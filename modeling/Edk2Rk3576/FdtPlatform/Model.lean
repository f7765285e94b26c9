import Edk2Rk3576.Efi
import Edk2Rk3576.Lib.Pool
import Mathlib.Data.Int.Notation

/-!
# The device-tree platform driver

`FdtPlatformProcessFileSystem` looks on a file system for a device tree that overrides the
platform's own and for overlays, and installs the tree they make as a configuration table. Trees
live in pool memory and go from routine to routine by pointer, each of them cloning, growing and
freeing some.

What `libfdt` makes of a tree is a parameter, and so is what the file system and the allocator
return; reading a freed buffer, or freeing one twice, halts.
-/

namespace Edk2Rk3576

inductive FdtHalt
  | assertion
  | badPointer
  deriving DecidableEq

def size8KB : ℕ := 0x2000

/-- `sizeof (EFI_FILE_INFO) + MAX_PATH_LENGTH`. -/
def dirEntryInfoSize : ℕ := 88 + 512

def efiFileDirectory : ℕ := 0x10

/-- `CharToUpper`. -/
def charToUpper (c : UInt16) : UInt16 :=
  if 0x61 ≤ c ∧ c ≤ 0x7a then c - 0x20 else c

/-- `StriCmp`; a string ends in its terminator. -/
def striCmp : List UInt16 → List UInt16 → ℤ
  | [], [] => 0
  | [], y :: _ => -(charToUpper y).toNat
  | x :: _, [] => (charToUpper x).toNat
  | x :: xs, y :: ys =>
    if charToUpper x = charToUpper y then striCmp xs ys
    else (charToUpper x).toNat - (charToUpper y).toNat

/-- `StrEndsWith`. -/
def strEndsWith (string extension : List UInt16) : Bool :=
  if string.length < extension.length then false
  else striCmp (string.drop (string.length - extension.length)) extension == 0

/-- The string `.dtbo`. -/
def dtboExtension : List UInt16 := [0x2e, 0x64, 0x74, 0x62, 0x6f]

/-- The routines of `libfdt`, on the contents of tree buffers. `openInto` and `overlayApply` return
their `Ret` with what the tree they write is then. -/
structure FdtLib (β : Type) where
  checkHeader : β → ℤ
  totalSize : β → ℕ
  offsetDtStrings : β → ℕ
  sizeDtStrings : β → ℕ
  openInto : β → ℕ → ℤ × β
  overlayApply : β → β → ℤ × β

/-- The platform fix-ups. Each edits the tree where it is, and is `none` where an `ASSERT` in it
fails. -/
structure PlatformFixups (β : Type) where
  fixupComboPhyDevices : β → Option β
  fixupPcieResources : β → Option β
  fixupVopDevices : β → Option β
  fixupNorFlashDevices : β → Option β
  fixupUfsDevices : β → Option β
  fixupUsbDrd0 : β → Option β
  fixupChosen : β → Option β

/-- What becomes of one file: what opening it, asking for its information and reading it return, and
the buffer after the read. -/
structure FileOutcome (β : Type) where
  openStatus : EfiStatus
  infoSizeStatus : EfiStatus
  infoSize : ℕ
  infoAllocated : Bool
  infoStatus : EfiStatus
  bufferAllocated : Bool
  readStatus : EfiStatus
  readSize : ℕ
  content : β

/-- What one read of a directory returns, and what becomes of the file it names. -/
structure DirRead (β : Type) where
  status : EfiStatus
  infoSize : ℕ
  fileAttribute : ℕ
  fileName : List UInt16
  fileSize : ℕ
  file : FileOutcome β
  growAllocated : Bool

/-- The reads of a directory come to its end after those listed. -/
structure DirOutcome (β : Type) where
  openStatus : EfiStatus
  infoAllocated : Bool
  reads : List (DirRead β)

/-- One call of `FdtPlatformProcessFileSystem`; a path of either array can be `NULL`. -/
structure FdtCall (β : Type) where
  openVolumeStatus : EfiStatus
  basePaths : List (Option (FileOutcome β))
  cloneAllocated : Bool
  fixupAllocated : Bool
  overlayPaths : List (Option (DirOutcome β))
  installStatus : EfiStatus

/-- The driver's surroundings: `libfdt`, the fix-ups, `PcdFdtOverrideFixup`, and whether an `ASSERT`
stops. -/
structure FdtEnv (β : Type) where
  lib : FdtLib β
  fixups : PlatformFixups β
  overrideFixup : Bool
  debugAssertEnabled : Bool

/-- Pool memory and the FDT configuration table. -/
structure FdtState (β : Type) where
  pool : Pool β
  table : ℕ

section Model

variable {β : Type}

def loadBuffer (s : Pool β) (p : ℕ) : Except FdtHalt β :=
  match s.buffer p with
  | some b => .ok b
  | none => .error .badPointer

def freePool (s : Pool β) (p : ℕ) : Except FdtHalt (Pool β) :=
  match s.buffer p with
  | some _ => .ok (s.release p)
  | none => .error .badPointer

variable (L : FdtLib β)

/-- `FdtOpenIntoAlloc`, and the pointer it sets: `*DestinationFdt` when there is one, else `*Fdt`,
whose old buffer is freed. -/
def fdtOpenIntoAlloc (allocated destination : Bool) (fdt size : ℕ) (s : Pool β) :
    Except FdtHalt (EfiStatus × ℕ × Pool β) :=
  if !allocated then .ok (efiOutOfResources, fdt, s)
  else do
    let b ← loadBuffer s fdt
    let newFdt := s.fresh
    let s := s.allocate (L.openInto b size).2
    if (L.openInto b size).1 ≠ 0 then
      let s ← freePool s newFdt
      .ok (efiLoadError, fdt, s)
    else if destination then .ok (efiSuccess, newFdt, s)
    else
      let s ← freePool s fdt
      .ok (efiSuccess, newFdt, s)

def PlatformFixups.apply (F : PlatformFixups β) (b : β) : Option β := do
  let b ← F.fixupComboPhyDevices b
  let b ← F.fixupPcieResources b
  let b ← F.fixupVopDevices b
  let b ← F.fixupNorFlashDevices b
  let b ← F.fixupUfsDevices b
  let b ← F.fixupUsbDrd0 b
  F.fixupChosen b

/-- `ApplyPlatformFdtFixups`. -/
def applyPlatformFdtFixups (F : PlatformFixups β) (allocated : Bool) (fdt : ℕ) (s : Pool β) :
    Except FdtHalt (EfiStatus × ℕ × Pool β) := do
  let b ← loadBuffer s fdt
  let (status, fdt, s) ←
    fdtOpenIntoAlloc L allocated false fdt ((L.totalSize b + size8KB) % 2 ^ 32) s
  if efiError status then .ok (status, fdt, s)
  else
    let b ← loadBuffer s fdt
    match F.apply b with
    | none => .error .assertion
    | some b => .ok (efiSuccess, fdt, s.store fdt b)

/-- What asking for the information of a file returns, for its size. -/
def FileOutcome.infoResult (f : FileOutcome β) : EfiStatus :=
  if efiError f.infoSizeStatus && f.infoSize == 0 then f.infoSizeStatus
  else if !f.infoAllocated then efiOutOfResources
  else f.infoStatus

/-- The exit of `ReadFdtFromFilePath`. -/
def readFdtExit (status : EfiStatus) (fileSize : Option ℕ) (fdt : ℕ) (s : Pool β) :
    Except FdtHalt (EfiStatus × Option ℕ × ℕ × Pool β) :=
  if efiError status && fdt != 0 then do
    let s ← freePool s fdt
    .ok (status, fileSize, 0, s)
  else .ok (status, fileSize, fdt, s)

/-- `ReadFdtFromFilePath`, with `*FileSize` and `*Fdt`. -/
def readFdtFromFilePath (f : FileOutcome β) (fileSize : Option ℕ) (fdt : ℕ) (s : Pool β) :
    Except FdtHalt (EfiStatus × Option ℕ × ℕ × Pool β) :=
  if efiError f.openStatus then .ok (f.openStatus, fileSize, fdt, s)
  else if fileSize.isNone && efiError f.infoResult then readFdtExit f.infoResult fileSize fdt s
  else if !f.bufferAllocated then readFdtExit efiOutOfResources fileSize 0 s
  else
    let fdt := s.fresh
    let s := s.allocate f.content
    if efiError f.readStatus then
      readFdtExit f.readStatus (fileSize.map fun _ => f.readSize) fdt s
    else if L.checkHeader f.content ≠ 0 then readFdtExit efiLoadError fileSize fdt s
    else readFdtExit f.readStatus fileSize fdt s

def fdtUsedSize (b : β) : ℕ := (L.offsetDtStrings b + L.sizeDtStrings b) % 2 ^ 32

/-- Room for an overlay of `fileSize` bytes. -/
def growFdt (allocated : Bool) (fileSize fdt : ℕ) (s : Pool β) :
    Except FdtHalt (EfiStatus × ℕ × Pool β) := do
  let b ← loadBuffer s fdt
  if L.totalSize b ≤ (fdtUsedSize L b + fileSize) % 2 ^ 64 then
    fdtOpenIntoAlloc L allocated false fdt ((L.totalSize b + max fileSize size8KB) % 2 ^ 64) s
  else .ok (efiSuccess, fdt, s)

/-- `FdtOverlayApply` of an overlay, which is then freed. -/
def applyOverlay (fdt overlay : ℕ) (s : Pool β) : Except FdtHalt (ℤ × Pool β) := do
  let b ← loadBuffer s fdt
  let o ← loadBuffer s overlay
  let s ← freePool (s.store fdt (L.overlayApply b o).2) overlay
  .ok ((L.overlayApply b o).1, s)

variable (E : FdtEnv β)

/-- Whether a directory entry is an overlay, by its name. -/
def DirRead.isOverlay (r : DirRead β) : Bool :=
  r.fileAttribute &&& efiFileDirectory == 0 && strEndsWith r.fileName dtboExtension

/-- The loop of `InstallOverlaysFromDirectoryPath` over a directory, with `*Fdt` and
`*OverlaysCount`. -/
def installOverlays : List (DirRead β) → (fdt count : ℕ) → Pool β →
    Except FdtHalt (EfiStatus × ℕ × ℕ × Pool β)
  | [], fdt, count, s => .ok (efiSuccess, fdt, count, s)
  | r :: rs, fdt, count, s =>
    if efiError r.status || r.infoSize == 0 then
      if E.debugAssertEnabled && (decide (dirEntryInfoSize < r.infoSize) || efiError r.status) then
        .error .assertion
      else .ok (r.status, fdt, count, s)
    else if !r.isOverlay then installOverlays rs fdt count s
    else do
      let (status, fileSize, overlay, s) ←
        readFdtFromFilePath E.lib r.file (some r.fileSize) 0 s
      if efiError status then
        if status = efiOutOfResources then .ok (status, fdt, count, s)
        else installOverlays rs fdt count s
      else
        let (status, fdt, s) ← growFdt E.lib r.growAllocated (fileSize.getD 0) fdt s
        if efiError status then
          let s ← freePool s overlay
          .ok (status, fdt, count, s)
        else
          let (ret, s) ← applyOverlay E.lib fdt overlay s
          -- the tree is damaged
          if ret ≠ 0 then .ok (efiLoadError, fdt, count, s)
          else installOverlays rs fdt (count + 1) s

/-- `InstallOverlaysFromDirectoryPath`. -/
def installOverlaysFromDirectoryPath (d : DirOutcome β) (fdt count : ℕ) (s : Pool β) :
    Except FdtHalt (EfiStatus × ℕ × ℕ × Pool β) :=
  if efiError d.openStatus then .ok (d.openStatus, fdt, count, s)
  else if !d.infoAllocated then .ok (efiOutOfResources, fdt, count, s)
  else installOverlays E d.reads fdt count s

/-- The search for a base tree: the first path that can be read. -/
def readBaseOverride : List (Option (FileOutcome β)) → EfiStatus → (fdt : ℕ) → Pool β →
    Except FdtHalt (EfiStatus × ℕ × Pool β)
  | [], status, fdt, s => .ok (status, fdt, s)
  | none :: paths, status, fdt, s => readBaseOverride paths status fdt s
  | some f :: paths, _, fdt, s => do
    let (status, _, fdt, s) ← readFdtFromFilePath E.lib f none fdt s
    if !efiError status then .ok (status, fdt, s)
    else readBaseOverride paths status fdt s

/-- The overlay directories in turn, up to a fatal error. -/
def processOverlayPaths : List (Option (DirOutcome β)) → EfiStatus → (fdt count : ℕ) → Pool β →
    Except FdtHalt (EfiStatus × ℕ × ℕ × Pool β)
  | [], status, fdt, count, s => .ok (status, fdt, count, s)
  | none :: paths, status, fdt, count, s => processOverlayPaths paths status fdt count s
  | some d :: paths, _, fdt, count, s => do
    let (status, fdt, count, s) ← installOverlaysFromDirectoryPath E d fdt count s
    if status = efiLoadError ∨ status = efiOutOfResources then .ok (status, fdt, count, s)
    else processOverlayPaths paths efiSuccess fdt count s

/-- Whether the new tree is to be installed. -/
def useNewFdt (status : EfiStatus) (fdt newFdt count platformFdt : ℕ) (s : Pool β) :
    Except FdtHalt Bool :=
  if efiError status then .ok false
  else do
    let b ← loadBuffer s newFdt
    .ok (E.lib.checkHeader b == 0 && (fdt != platformFdt || decide (0 < count)))

/-- The tree to install, if any, becomes the configuration table. -/
def installTable (c : FdtCall β) (status : EfiStatus) (fdtToInstall platformFdt table : ℕ)
    (s : Pool β) : Except FdtHalt (EfiStatus × FdtState β) :=
  if fdtToInstall ≠ 0 then
    if efiError c.installStatus then do
      let s ← if fdtToInstall ≠ platformFdt then freePool s fdtToInstall else .ok s
      .ok (c.installStatus, ⟨s, table⟩)
    else .ok (c.installStatus, ⟨s, fdtToInstall⟩)
  else .ok (if efiError status then status else efiNotFound, ⟨s, table⟩)

/-- The end of `FdtPlatformProcessFileSystem`, from the trees it has come to: the new one, or else
the original where that overrides the platform's. -/
def installFdt (c : FdtCall β) (status : EfiStatus) (fdt newFdt count platformFdt table : ℕ)
    (s : Pool β) : Except FdtHalt (EfiStatus × FdtState β) := do
  let new ← useNewFdt E status fdt newFdt count platformFdt s
  if new then
    if fdt ≠ platformFdt then
      let s ← freePool s fdt
      installTable c status newFdt platformFdt table s
    else installTable c status newFdt platformFdt table s
  else
    let s ← freePool s newFdt
    installTable c status (if fdt ≠ platformFdt then fdt else 0) platformFdt table s

/-- The fix-ups of a base tree that overrides the platform's. Their status is not looked at. -/
def applyOverrideFixups (platformFdt : ℕ) (c : FdtCall β) (fdt newFdt : ℕ) (s : Pool β) :
    Except FdtHalt (EfiStatus × ℕ × Pool β) :=
  if E.overrideFixup && fdt != platformFdt then
    applyPlatformFdtFixups E.lib E.fixups c.fixupAllocated newFdt s
  else .ok (efiSuccess, newFdt, s)

/-- `FdtPlatformProcessFileSystem` from the base tree on: its clone is fixed up, takes the overlays,
and is installed. -/
def processFdt (platformFdt : ℕ) (c : FdtCall β) (fdt table : ℕ) (s : Pool β) :
    Except FdtHalt (EfiStatus × FdtState β) := do
  let b ← loadBuffer s fdt
  let (status, newFdt, s) ←
    fdtOpenIntoAlloc E.lib c.cloneAllocated true fdt (E.lib.totalSize b) s
  if efiError status then .ok (status, ⟨s, table⟩)
  else
    let (_, newFdt, s) ← applyOverrideFixups E platformFdt c fdt newFdt s
    let (status, newFdt, count, s) ← processOverlayPaths E c.overlayPaths status newFdt 0 s
    installFdt E c status fdt newFdt count platformFdt table s

/-- `FdtPlatformProcessFileSystem`, with `mPlatformFdt`. -/
def fdtPlatformProcessFileSystem (platformFdt : ℕ) (c : FdtCall β) (s : FdtState β) :
    Except FdtHalt (EfiStatus × FdtState β) :=
  if efiError c.openVolumeStatus then .ok (c.openVolumeStatus, s)
  else do
    let (status, fdt, pool) ← readBaseOverride E c.basePaths c.openVolumeStatus 0 s.pool
    if fdt = 0 then
      if platformFdt = 0 then .ok (status, ⟨pool, s.table⟩)
      else processFdt E platformFdt c platformFdt s.table pool
    else processFdt E platformFdt c fdt s.table pool

end Model

end Edk2Rk3576
