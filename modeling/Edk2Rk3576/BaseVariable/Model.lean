import Edk2Rk3576.RkFvb.Header

/-!
# Reading variables before the variable services

`BaseVariableLib` reads the variable store in place: it walks the records from the first one on,
and keeps the distances between the live records it has passed in an index table that later calls
go through first. When a fault tolerant write was interrupted, the store goes on in the spare
area from `TargetAddress` on: a header that the split cuts is put together once in a static
buffer, and names and data are compared and copied in two parts.

The store does not change, so its memory is a parameter. A pointer the caller passes comes with
the bytes read through it. `reads` is not in the source: it lists the ranges of variable headers,
names and data that the calls have read, the last one first.
-/

namespace Edk2Rk3576

open Cells

/-- `UINTN` arithmetic. -/
def toUintn (x : ℕ) : ℕ := x % 2 ^ 64

/-- A pointer, with the bytes read through it. -/
structure Pointer where
  address : ℕ
  byte : Cells UInt8

def Pointer.advance (p : Pointer) (n : ℕ) : Pointer := ⟨p.address + n, fun k => p.byte (n + k)⟩

def pointer (m : Cells UInt8) (a : ℕ) : Pointer := ⟨a, fun k => m (a + k)⟩

/-- `FAULT_TOLERANT_WRITE_LAST_WRITE_DATA`; zero when no write was interrupted. -/
structure FtwLastWriteData where
  targetAddress : ℕ
  spareAddress : ℕ

/-- The flash as it is mapped, with the PCDs and build options the library reads. -/
structure BaseVariableEnv where
  mem : Cells UInt8
  nvStorageBase : ℕ
  nvStorageSize : ℕ
  emuVariableNvModeEnable : Bool
  ftwLastWriteData : FtwLastWriteData
  /-- Entries of `VARIABLE_INDEX_TABLE`. -/
  indexTableVolume : ℕ
  /-- A failed `ASSERT` stops the processor; without it the code runs on. -/
  debugAssertEnabled : Bool
  -- `GetVariableStore` asserts it
  nvStorageBase_pos : 0 < nvStorageBase
  -- physical addresses
  nvStorageBase_lt : nvStorageBase < 2 ^ 52
  spareAddress_lt : ftwLastWriteData.spareAddress < 2 ^ 52

inductive VariableStoreType
  | hob
  | nv
  deriving DecidableEq

structure VariableStoreInfo where
  variableStoreHeader : ℕ
  -- whether `IndexTable` is there
  indexTable : Bool
  ftwLastWriteData : Option FtwLastWriteData
  authFlag : Bool

structure VariableIndexTable where
  /-- `Index[0..Length)`. -/
  index : List ℕ
  startPtr : ℕ
  endPtr : ℕ
  goneThrough : Bool

/-- The statics of the library. -/
structure BaseVariableState where
  variableHeaderFtw : Cells UInt8
  variableHeaderFtwMerged : Bool
  variableIndexTable : VariableIndexTable
  reads : List (ℕ × ℕ)

namespace BaseVariableState

def boot : BaseVariableState := ⟨fun _ => 0, false, ⟨[], 0, 0, false⟩, []⟩

def read (s : BaseVariableState) (a n : ℕ) : BaseVariableState := { s with reads := (a, n) :: s.reads }

end BaseVariableState

/-- Why a call does not return. -/
inductive Halt
  | assert
  | fuel
  deriving DecidableEq

def variableData : ℕ := 0x55AA
def varInDeletedTransition : UInt8 := 0xfe
def varAdded : UInt8 := 0x3f

-- offsets of the fields of `VARIABLE_HEADER` and `AUTHENTICATED_VARIABLE_HEADER`
def variableState : ℕ := 2
def variableAttributes : ℕ := 4
def variableNameSize (authFlag : Bool) : ℕ := if authFlag then 36 else 8
def variableDataSize (authFlag : Bool) : ℕ := if authFlag then 40 else 12
def variableVendorGuid (authFlag : Bool) : ℕ := if authFlag then 44 else 16

def getVariableHeaderSize (authFlag : Bool) : ℕ := if authFlag then 60 else 32

/-- `HEADER_ALIGN`. -/
def headerAlign (x : ℕ) : ℕ := toUintn (x + 3) / 4 * 4

def getStartPointer (varStoreHeader : ℕ) : ℕ :=
  headerAlign (toUintn (varStoreHeader + variableStoreHeaderSize))

def getEndPointer (m : Cells UInt8) (varStoreHeader : ℕ) : ℕ :=
  headerAlign (toUintn (varStoreHeader + m.le (varStoreHeader + vshSize) 4))

def isValidVariableHeader (h : Cells UInt8) : Bool := decide (h.le 0 2 = variableData)

/-- The sizes in a header that is not written in full count as zero. -/
def headerUnwritten (authFlag : Bool) (h : Cells UInt8) : Prop :=
  h variableState = 0xFF ∨ h.le (variableDataSize authFlag) 4 = 0xFFFFFFFF
    ∨ h.le (variableNameSize authFlag) 4 = 0xFFFFFFFF ∨ h.le variableAttributes 4 = 0xFFFFFFFF

instance (authFlag : Bool) (h : Cells UInt8) : Decidable (headerUnwritten authFlag h) := by
  unfold headerUnwritten
  infer_instance

def nameSizeOfVariable (h : Cells UInt8) (authFlag : Bool) : ℕ :=
  if headerUnwritten authFlag h then 0 else h.le (variableNameSize authFlag) 4

def dataSizeOfVariable (h : Cells UInt8) (authFlag : Bool) : ℕ :=
  if headerUnwritten authFlag h then 0 else h.le (variableDataSize authFlag) 4

def getVendorGuid (h : Cells UInt8) (authFlag : Bool) : EfiGuid :=
  h.le (variableVendorGuid authFlag) 16

def getVariableNamePtr (var : ℕ) (authFlag : Bool) : ℕ :=
  toUintn (var + getVariableHeaderSize authFlag)

-- `GET_PAD_SIZE` is zero on this processor, here and below
def getVariableDataPtr (var : ℕ) (h : Cells UInt8) (authFlag : Bool) : ℕ :=
  toUintn (getVariableNamePtr var authFlag + nameSizeOfVariable h authFlag)

def getNextVariablePtr (si : VariableStoreInfo) (var : ℕ) (h : Cells UInt8) : ℕ :=
  let value := headerAlign
    (toUintn (getVariableDataPtr var h si.authFlag + dataSizeOfVariable h si.authFlag))
  match si.ftwLastWriteData with
  | some ftw =>
    if var < ftw.targetAddress ∧ ftw.targetAddress ≤ value then
      toUintn (ftw.spareAddress + (value - ftw.targetAddress))
    else value
  | none => value

inductive VariableStoreStatus
  | efiRaw
  | efiValid
  | efiInvalid
  deriving DecidableEq

-- offsets of `Format` and `State` in `VARIABLE_STORE_HEADER`
def vshFormat : ℕ := 20
def vshState : ℕ := 21

def getVariableStoreStatus (m : Cells UInt8) (varStoreHeader : ℕ) : VariableStoreStatus :=
  if (m.le varStoreHeader 16 = gEfiAuthenticatedVariableGuid
        ∨ m.le varStoreHeader 16 = gEfiVariableGuid)
      ∧ m.le (varStoreHeader + vshFormat) 1 = variableStoreFormatted
      ∧ m.le (varStoreHeader + vshState) 1 = variableStoreHealthy then .efiValid
  else if m.le varStoreHeader 16 = 2 ^ 128 - 1 ∧ m.le (varStoreHeader + vshSize) 4 = 0xffffffff
      ∧ m.le (varStoreHeader + vshFormat) 1 = 0xff
      ∧ m.le (varStoreHeader + vshState) 1 = 0xff then .efiRaw
  else .efiInvalid

/-- The range of two that `CompareMem` compares. -/
def compareMem (p q : Pointer) (n : ℕ) (s : BaseVariableState) : Bool × BaseVariableState :=
  (decide (∀ k < n, p.byte k = q.byte k), (s.read p.address n).read q.address n)

section Store

variable (E : BaseVariableEnv) (si : VariableStoreInfo)

/-- Compare with a name that the split cuts: its parts are `partial` and the spare area. -/
def comparePartial (ftw : FtwLastWriteData) (cut other : Pointer) (nameSize : ℕ)
    (s : BaseVariableState) : Bool × BaseVariableState :=
  let partialNameSize := ftw.targetAddress - cut.address
  match compareMem cut other partialNameSize s with
  | (true, s) =>
    compareMem (pointer E.mem ftw.spareAddress) (other.advance partialNameSize)
      (nameSize - partialNameSize) s
  | (false, s) => (false, s)

def compareVariableName (name1 name2 : Pointer) (nameSize : ℕ) (s : BaseVariableState) :
    Bool × BaseVariableState :=
  match si.ftwLastWriteData with
  | some ftw =>
    if name1.address < ftw.targetAddress ∧ ftw.targetAddress < toUintn (name1.address + nameSize) then
      comparePartial E ftw name1 name2 nameSize s
    else if name2.address < ftw.targetAddress
        ∧ ftw.targetAddress < toUintn (name2.address + nameSize) then
      comparePartial E ftw name2 name1 nameSize s
    else compareMem name1 name2 nameSize s
  | none => compareMem name1 name2 nameSize s

/-- `VariableName[0]` is zero. -/
def nameIsEmpty (name : Pointer) : Bool := decide (name.byte.le 0 2 = 0)

def compareWithValidVariable (var : ℕ) (h : Cells UInt8) (name : Pointer) (guid : EfiGuid)
    (s : BaseVariableState) : Except Halt Bool × BaseVariableState :=
  let s := s.read name.address 2
  if nameIsEmpty name then (.ok true, s)
  else if guid = getVendorGuid h si.authFlag then
    let nameSize := nameSizeOfVariable h si.authFlag
    if nameSize = 0 ∧ E.debugAssertEnabled then (.error .assert, s)
    else
      let point := pointer E.mem (getVariableNamePtr var si.authFlag)
      match compareVariableName E si name point nameSize s with
      | (equal, s) => (.ok equal, s)
  else (.ok false, s)

/-- The fields that the callers read come with the header: a valid one is read in full. -/
def readHeader (var : ℕ) (s : BaseVariableState) :
    Bool × Cells UInt8 × BaseVariableState :=
  let h := (pointer E.mem var).byte
  if isValidVariableHeader h then
    (true, h, s.read var (getVariableHeaderSize si.authFlag))
  else (false, h, s.read var 2)

/-- Put a header that the split cuts together in `mVariableHeaderFtw`, the first time. -/
def mergeHeader (ftw : FtwLastWriteData) (var : ℕ) (s : BaseVariableState) :
    BaseVariableState :=
  if s.variableHeaderFtwMerged then s
  else
    let size := getVariableHeaderSize si.authFlag
    let partialHeaderSize := ftw.targetAddress - var
    let header := s.variableHeaderFtw.write 0 partialHeaderSize (pointer E.mem var).byte
    let header := header.write partialHeaderSize (size - partialHeaderSize)
      (pointer E.mem ftw.spareAddress).byte
    let s := { s with variableHeaderFtw := header, variableHeaderFtwMerged := true }
    (s.read var partialHeaderSize).read ftw.spareAddress (size - partialHeaderSize)

/-- Whether the header is valid, and its bytes. -/
def getVariableHeader (var : ℕ) (s : BaseVariableState) :
    Bool × Cells UInt8 × BaseVariableState :=
  let h := (pointer E.mem var).byte
  if var = 0 then (false, h, s)
  else
    let endPtr := getEndPointer E.mem si.variableStoreHeader
    match si.ftwLastWriteData with
    | some ftw =>
      if ftw.spareAddress < var
          ∧ endPtr ≤ toUintn (var - ftw.spareAddress + ftw.targetAddress) then (false, h, s)
      else if var < ftw.targetAddress
          ∧ ftw.targetAddress < toUintn (var + getVariableHeaderSize si.authFlag) then
        let s := mergeHeader E si ftw var s
        (isValidVariableHeader s.variableHeaderFtw, s.variableHeaderFtw, s)
      else readHeader E si var s
    | none => if endPtr ≤ var then (false, h, s) else readHeader E si var s

/-- The bytes that end up in `Buffer`. -/
def getVariableNameOrData (nameOrData size : ℕ) (s : BaseVariableState) :
    List UInt8 × BaseVariableState :=
  match si.ftwLastWriteData with
  | some ftw =>
    if nameOrData < ftw.targetAddress ∧ ftw.targetAddress < toUintn (nameOrData + size) then
      let partialSize := ftw.targetAddress - nameOrData
      (E.mem.slice nameOrData partialSize ++ E.mem.slice ftw.spareAddress (size - partialSize),
        (s.read nameOrData partialSize).read ftw.spareAddress (size - partialSize))
    else (E.mem.slice nameOrData size, s.read nameOrData size)
  | none => (E.mem.slice nameOrData size, s.read nameOrData size)

/-- `VAR_ADDED`, or with its deletion begun. -/
def isLive (h : Cells UInt8) : Bool :=
  h variableState == varAdded || h variableState == varInDeletedTransition &&& varAdded

def isInDeletedTransition (h : Cells UInt8) : Bool :=
  h variableState == varInDeletedTransition &&& varAdded

structure VariablePointerTrack where
  currPtr : ℕ
  endPtr : ℕ
  startPtr : ℕ

/-- Where a loop over records stands when it is left. -/
inductive Search
  /-- at the record to return -/
  | found (var : ℕ)
  /-- past its last record, with `InDeletedVariable` -/
  | passed (inDeletedVariable : ℕ)

variable (name : Pointer) (guid : EfiGuid)

/-- The `for` loop of `FindVariableEx` over the index table, from `maxIndex` on. With the search
it returns the last `MaxIndex` and its header. -/
def findIndexed : (index : List ℕ) → (offset maxIndex inDeletedVariable : ℕ) →
    (header : Cells UInt8) → BaseVariableState →
    Except Halt (Search × ℕ × Cells UInt8) × BaseVariableState
  | [], _, maxIndex, inDeletedVariable, header, s =>
    (.ok (.passed inDeletedVariable, maxIndex, header), s)
  | distance :: index, offset, _, inDeletedVariable, _, s =>
    let offset := toUintn (offset + distance)
    let maxIndex := toUintn (s.variableIndexTable.startPtr + offset)
    match getVariableHeader E si maxIndex s with
    | (_, h, s) =>
      match compareWithValidVariable E si maxIndex h name guid s with
      | (.error halt, s) => (.error halt, s)
      | (.ok true, s) =>
        if isInDeletedTransition h then findIndexed index offset maxIndex maxIndex h s
        else (.ok (.found maxIndex, maxIndex, h), s)
      | (.ok false, s) => findIndexed index offset maxIndex inDeletedVariable h s

/-- Note a live record in the index table: the new `LastVariable` and `StopRecord`. -/
def recordIndex (var lastVariable : ℕ) (stopRecord : Bool) (s : BaseVariableState) :
    ℕ × Bool × BaseVariableState :=
  if si.indexTable ∧ ¬ stopRecord then
    let offset := toUintn (var + (2 ^ 64 - lastVariable))
    let table := s.variableIndexTable
    if 0xFFFF < offset ∨ E.indexTableVolume ≤ table.index.length then (lastVariable, true, s)
    else
      (var, false,
        { s with variableIndexTable := { table with index := table.index ++ [offset] } })
  else (lastVariable, stopRecord, s)

/-- The `while` loop of `FindVariableEx`. -/
def findWalking : (fuel : ℕ) → (var lastVariable : ℕ) → (stopRecord : Bool) →
    (inDeletedVariable : ℕ) → BaseVariableState → Except Halt Search × BaseVariableState
  | 0, _, _, _, _, s => (.error .fuel, s)
  | fuel + 1, var, lastVariable, stopRecord, inDeletedVariable, s =>
    match getVariableHeader E si var s with
    | (false, _, s) =>
      let table := s.variableIndexTable
      (.ok (.passed inDeletedVariable),
        if si.indexTable ∧ ¬ stopRecord then
          { s with variableIndexTable := { table with goneThrough := true } }
        else s)
    | (true, h, s) =>
      let next := getNextVariablePtr si var h
      if isLive h then
        match recordIndex E si var lastVariable stopRecord s with
        | (lastVariable, stopRecord, s) =>
          match compareWithValidVariable E si var h name guid s with
          | (.error halt, s) => (.error halt, s)
          | (.ok true, s) =>
            if isInDeletedTransition h then
              findWalking fuel next lastVariable stopRecord var s
            else (.ok (.found var), s)
          | (.ok false, s) => findWalking fuel next lastVariable stopRecord inDeletedVariable s
      else findWalking fuel next lastVariable stopRecord inDeletedVariable s

/-- How `FindVariableEx` ends: the variable found, or `InDeletedVariable` unless it is `NULL`. -/
def searchResult (track : VariablePointerTrack) : Search → EfiStatus × VariablePointerTrack
  | .found var => (efiSuccess, { track with currPtr := var })
  | .passed inDeletedVariable =>
    (if inDeletedVariable = 0 then efiNotFound else efiSuccess,
      { track with currPtr := inDeletedVariable })

def mapResult {α β : Type} (f : α → β) (r : Except Halt α × BaseVariableState) :
    Except Halt β × BaseVariableState := (r.1.map f, r.2)

variable (fuel : ℕ)

def findVariableEx (s : BaseVariableState) :
    Except Halt (EfiStatus × VariablePointerTrack) × BaseVariableState :=
  let store := si.variableStoreHeader
  if store = 0 then (.ok (efiInvalidParameter, ⟨0, 0, 0⟩), s)
  else if getVariableStoreStatus E.mem store ≠ .efiValid then
    (.ok (efiUnsupported, ⟨0, 0, 0⟩), s)
  else if E.mem.le (store + vshSize) 4 = 0xFFFFFFFF then (.ok (efiNotFound, ⟨0, 0, 0⟩), s)
  else
    let track : VariablePointerTrack := ⟨0, getEndPointer E.mem store, getStartPointer store⟩
    if si.indexTable then
      match findIndexed E si name guid s.variableIndexTable.index 0 0 0 (fun _ => 0) s with
      | (.error halt, s) => (.error halt, s)
      | (.ok (.found var, _), s) => (.ok (searchResult track (.found var)), s)
      | (.ok (.passed inDeletedVariable, maxIndex, h), s) =>
        if s.variableIndexTable.goneThrough then
          (.ok (searchResult track (.passed inDeletedVariable)), s)
        else if maxIndex = 0 then
          mapResult (searchResult track)
            (findWalking E si name guid fuel track.startPtr track.startPtr false inDeletedVariable s)
        else
          mapResult (searchResult track)
            (findWalking E si name guid fuel (getNextVariablePtr si maxIndex h) maxIndex false
              inDeletedVariable s)
    else
      mapResult (searchResult track)
        (findWalking E si name guid fuel track.startPtr track.startPtr false 0 s)

end Store

end Edk2Rk3576
