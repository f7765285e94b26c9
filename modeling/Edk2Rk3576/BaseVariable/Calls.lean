import Edk2Rk3576.BaseVariable.Model

/-!
# The calls of the library

`BaseGetVariable` and `BaseGetNextVariableName`, over the stores that `GetVariableStore` knows:
the one of the HOB type is never there.
-/

namespace Edk2Rk3576

open Cells

variable (E : BaseVariableEnv)

/-- The part of `GetVariableStore` that finds the store of the flash. -/
def nvVariableStore : VariableStoreInfo :=
  let target := E.ftwLastWriteData.targetAddress
  let fvHeader :=
    if target = E.nvStorageBase then E.ftwLastWriteData.spareAddress else E.nvStorageBase
  let ftw :=
    if E.nvStorageBase < target ∧ target < E.nvStorageBase + E.nvStorageSize then
      some E.ftwLastWriteData
    else none
  if E.emuVariableNvModeEnable then ⟨0, false, none, false⟩
  else if E.mem.le (fvHeader + fvhSignature) 4 ≠ efiFvhSignature
      ∨ E.mem.le (fvHeader + fvhFileSystemGuid) 16 ≠ gEfiSystemNvDataFvGuid then
    ⟨0, false, ftw, false⟩
  else
    let variableStoreHeader := fvHeader + E.mem.le (fvHeader + fvhHeaderLength) 2
    ⟨variableStoreHeader, true, ftw,
      decide (E.mem.le variableStoreHeader 16 = gEfiAuthenticatedVariableGuid)⟩

/-- The first access of a store sets the index table up. -/
def initIndexTable (si : VariableStoreInfo) (s : BaseVariableState) : BaseVariableState :=
  if si.indexTable ∧ s.variableIndexTable.startPtr = 0 then
    { s with variableIndexTable :=
        ⟨[], getStartPointer si.variableStoreHeader,
          getEndPointer E.mem si.variableStoreHeader, false⟩ }
  else s

def getVariableStore (type : VariableStoreType) (s : BaseVariableState) :
    VariableStoreInfo × BaseVariableState :=
  match type with
  | .hob => (⟨0, false, none, false⟩, s)
  | .nv => (nvVariableStore E, initIndexTable E (nvVariableStore E) s)

/-- The loop of `FindVariable`. Its callers have checked that `VendorGuid` is not `NULL`. -/
def findVariableIn (fuel : ℕ) (name : Pointer) (guid : EfiGuid) :
    List VariableStoreType → BaseVariableState →
    Except Halt (EfiStatus × VariablePointerTrack × VariableStoreInfo) × BaseVariableState
  | [], s => (.ok (efiNotFound, ⟨0, 0, 0⟩, ⟨0, false, none, false⟩), s)
  | type :: types, s =>
    match getVariableStore E type s with
    | (si, s) =>
      match findVariableEx E si name guid fuel s with
      | (.error halt, s) => (.error halt, s)
      | (.ok (status, track), s) =>
        if efiError status then findVariableIn fuel name guid types s
        else (.ok (status, track, si), s)

def findVariable (fuel : ℕ) (name : Pointer) (guid : EfiGuid) (s : BaseVariableState) :
    Except Halt (EfiStatus × VariablePointerTrack × VariableStoreInfo) × BaseVariableState :=
  findVariableIn E fuel name guid [.hob, .nv] s

/-- The status, and what is written through `Attributes`, `DataSize` and `Data`. -/
structure BaseGetResult where
  status : EfiStatus
  attributes : Option ℕ
  dataSize : Option ℕ
  data : Option (List UInt8)

def BaseGetResult.failed (status : EfiStatus) : BaseGetResult := ⟨status, none, none, none⟩

/-- `BaseGetVariable`. `attributes` and `data` say whether the pointers are not `NULL`. -/
def baseGetVariable (fuel : ℕ) (variableName : Option Pointer) (variableGuid : Option EfiGuid)
    (attributes : Bool) (dataSize : Option ℕ) (data : Bool) (s : BaseVariableState) :
    Except Halt BaseGetResult × BaseVariableState :=
  match variableName, variableGuid, dataSize with
  | some name, some guid, some dataSize =>
    if nameIsEmpty name then (.ok (.failed efiNotFound), s)
    else
      match findVariable E fuel name guid s with
      | (.error halt, s) => (.error halt, s)
      | (.ok (status, track, si), s) =>
        if efiError status then (.ok (.failed status), s)
        else
          match getVariableHeader E si track.currPtr s with
          | (_, h, s) =>
            let varDataSize := dataSizeOfVariable h si.authFlag
            let written := if attributes then some (h.le variableAttributes 4) else none
            if varDataSize ≤ dataSize then
              if data then
                match getVariableNameOrData E si (getVariableDataPtr track.currPtr h si.authFlag)
                    varDataSize s with
                | (bytes, s) => (.ok ⟨efiSuccess, written, some varDataSize, some bytes⟩, s)
              else (.ok (.failed efiInvalidParameter), s)
            else (.ok ⟨efiBufferTooSmall, written, some varDataSize, none⟩, s)
  | _, _, _ => (.ok (.failed efiInvalidParameter), s)

/-- The status, and what is written through the three pointers. -/
structure BaseNextResult where
  status : EfiStatus
  variableNameSize : Option ℕ
  variableName : Option (List UInt8)
  variableGuid : Option EfiGuid

def BaseNextResult.failed (status : EfiStatus) : BaseNextResult := ⟨status, none, none, none⟩

/-- An in-transition record gives way to another one of its name and GUID. -/
def givesWay (fuel : ℕ) (si : VariableStoreInfo) (currPtr : ℕ) (h : Cells UInt8)
    (s : BaseVariableState) : Except Halt Bool × BaseVariableState :=
  if isInDeletedTransition h then
    match findVariableEx E si (pointer E.mem (getVariableNamePtr currPtr si.authFlag))
        (getVendorGuid h si.authFlag) fuel s with
    | (.error halt, s) => (.error halt, s)
    | (.ok (status, track), s) => (.ok (! efiError status && track.currPtr != currPtr), s)
  else (.ok false, s)

/-- A record of the flash gives way to a HOB variable of its name and GUID. -/
def hobOverrides (fuel : ℕ) (headers : VariableStoreType → ℕ) (hob si : VariableStoreInfo)
    (track : VariablePointerTrack) (h : Cells UInt8) (s : BaseVariableState) :
    Except Halt Bool × BaseVariableState :=
  if headers .hob ≠ 0 ∧ headers .nv ≠ 0 ∧ track.startPtr = getStartPointer (headers .nv) then
    match findVariableEx E hob (pointer E.mem (getVariableNamePtr track.currPtr si.authFlag))
        (getVendorGuid h si.authFlag) fuel s with
    | (.error halt, s) => (.error halt, s)
    | (.ok (status, _), s) => (.ok (! efiError status), s)
  else (.ok false, s)

/-- The result for the record at `currPtr`, once nothing hides it. -/
def returnName (si : VariableStoreInfo) (currPtr : ℕ) (h : Cells UInt8) (variableNameSize : ℕ)
    (s : BaseVariableState) : Except Halt BaseNextResult × BaseVariableState :=
  let varNameSize := nameSizeOfVariable h si.authFlag
  if varNameSize = 0 ∧ E.debugAssertEnabled then (.error .assert, s)
  else if varNameSize ≤ variableNameSize then
    match getVariableNameOrData E si (getVariableNamePtr currPtr si.authFlag) varNameSize s with
    | (bytes, s) =>
      (.ok ⟨efiSuccess, some varNameSize, some bytes, some (getVendorGuid h si.authFlag)⟩, s)
  else (.ok ⟨efiBufferTooSmall, some varNameSize, none, none⟩, s)

/-- The type of the store that starts at `startPtr`, and of the next store there is. -/
def currentStore (headers : VariableStoreType → ℕ) (startPtr : ℕ) : Option VariableStoreType :=
  [VariableStoreType.hob, .nv].find? fun type =>
    headers type ≠ 0 ∧ startPtr = getStartPointer (headers type)

def followingStore (headers : VariableStoreType → ℕ) : VariableStoreType → Option VariableStoreType
  | .hob => if headers .nv ≠ 0 then some .nv else none
  | .nv => none

/-- The two nested loops of `BaseGetNextVariableName`, each pass on one record or one store. -/
def nextName (fuel : ℕ) (headers : VariableStoreType → ℕ) (hob : VariableStoreInfo)
    (variableNameSize : ℕ) : (passes : ℕ) → VariableStoreInfo → VariablePointerTrack →
    BaseVariableState → Except Halt BaseNextResult × BaseVariableState
  | 0, _, _, s => (.error .fuel, s)
  | passes + 1, si, track, s =>
    match getVariableHeader E si track.currPtr s with
    | (false, _, s) =>
      match currentStore headers track.startPtr with
      | none => (.error .assert, s)
      | some type =>
        match followingStore headers type with
        | none => (.ok (.failed efiNotFound), s)
        | some type =>
          match getVariableStore E type s with
          | (si, s) =>
            let startPtr := getStartPointer (headers type)
            nextName fuel headers hob variableNameSize passes si
              ⟨startPtr, getEndPointer E.mem (headers type), startPtr⟩ s
    | (true, h, s) =>
      let next := { track with currPtr := getNextVariablePtr si track.currPtr h }
      if isLive h then
        match givesWay E fuel si track.currPtr h s with
        | (.error halt, s) => (.error halt, s)
        | (.ok true, s) => nextName fuel headers hob variableNameSize passes si next s
        | (.ok false, s) =>
          match hobOverrides E fuel headers hob si track h s with
          | (.error halt, s) => (.error halt, s)
          | (.ok true, s) => nextName fuel headers hob variableNameSize passes si next s
          | (.ok false, s) => returnName E si track.currPtr h variableNameSize s
      else nextName fuel headers hob variableNameSize passes si next s

/-- `BaseGetNextVariableName`. -/
def baseGetNextVariableName (fuel : ℕ) (variableNameSize : Option ℕ) (variableName : Option Pointer)
    (variableGuid : Option EfiGuid) (s : BaseVariableState) :
    Except Halt BaseNextResult × BaseVariableState :=
  match variableName, variableGuid, variableNameSize with
  | some name, some guid, some nameSize =>
    match findVariable E fuel name guid s with
    | (.error halt, s) => (.error halt, s)
    | (.ok (status, track, si), s) =>
      if track.currPtr = 0 ∨ status ≠ efiSuccess then (.ok (.failed status), s)
      else
        match (if nameIsEmpty name then (track.currPtr, s)
            else
              match getVariableHeader E si track.currPtr s with
              | (_, h, s) => (getNextVariablePtr si track.currPtr h, s)) with
        | (currPtr, s) =>
          match getVariableStore E .hob s with
          | (hob, s) =>
            match getVariableStore E .nv s with
            | (nv, s) =>
              let headers : VariableStoreType → ℕ
                | .hob => hob.variableStoreHeader
                | .nv => nv.variableStoreHeader
              nextName E fuel headers hob nameSize fuel si { track with currPtr := currPtr } s
  | _, _, _ => (.ok (.failed efiInvalidParameter), s)

end Edk2Rk3576
