import Edk2Rk3576.Lib.Checksum
import Edk2Rk3576.Lib.Fields
import Edk2Rk3576.Lib.Loops
import Edk2Rk3576.ExitBootServicesHook
import Edk2Rk3576.Pcie.Model

/-!
# The ACPI fixups

What `RK3576AcpiPlatformDxe` does to the installed tables when an OS exits boot services: it sets
integers that the DSDT names, fills the entries of the MCFG for the ECAM quirk the OS knows, and
makes the FADT or the MCFG identify a board with that quirk.

Memory is bytes by address. A table is where its header is.
-/

namespace Edk2Rk3576

open Cells

def copyBytes (m : Cells UInt8) (a : ℕ) (l : List UInt8) : Cells UInt8 :=
  m.write a l.length fun k => l.getD k 0

/-- The header's `Length`. -/
def sdtLength (m : Cells UInt8) (table : ℕ) : ℕ := m.le (table + 4) 4

/-- `AcpiUpdateChecksum`: of a buffer that holds a table's header it sets the byte for the checksum,
so that its bytes add up to zero. -/
structure AcpiLib where
  updateChecksum : Cells UInt8 → ℕ → ℕ → Cells UInt8
  sameOutside : ∀ m table size, SameOutside m (updateChecksum m table size) {table + 9}
  sum_eq_zero : ∀ m table size, 36 ≤ size → sumWords 1 (updateChecksum m table size) table size = 0

section Names

def charBytes (l : List Char) : List UInt8 := l.map fun c => UInt8.ofNat c.toNat

def amlNameOp : UInt8 := 0x08

def sdtPatternLen : ℕ := 5

/-- What follows a name, by its opcode: where the value starts, from the name's opcode on, and the
bytes it takes. The zero and one opcodes are values themselves. -/
def sdtValue (opcode : UInt8) : Option (ℕ × ℕ) :=
  if opcode = 0x0E then some (6, 8)
  else if opcode = 0x0C then some (6, 4)
  else if opcode = 0x0B then some (6, 2)
  else if opcode = 0x01 ∨ opcode = 0x00 then some (5, 1)
  else if opcode = 0x0A then some (6, 1)
  else none

/-- The bytes at `a` are the pattern: a name's opcode and the name. -/
def IsNameOp (m : Cells UInt8) (a : ℕ) (name : List UInt8) : Prop :=
  m.slice a sdtPatternLen = amlNameOp :: name

instance (m : Cells UInt8) (a : ℕ) (name : List UInt8) : Decidable (IsNameOp m a name) := by
  unfold IsNameOp
  infer_instance

/-- The first index at which the scan finds the name. -/
def findName (m : Cells UInt8) (table : ℕ) (name : List UInt8) : Option ℕ :=
  (List.range (sdtLength m table - sdtPatternLen)).find? fun index =>
    decide (IsNameOp m (table + index) name)

def acpiUpdateSdtNameInteger (m : Cells UInt8) (table : ℕ) (name : List UInt8) (value : ℕ) :
    EfiStatus × Cells UInt8 :=
  if sdtLength m table ≤ sdtPatternLen then (efiInvalidParameter, m)
  else
    match findName m table name with
    | none => (efiNotFound, m)
    | some index =>
      match sdtValue (m (table + index + sdtPatternLen)) with
      | none => (efiUnsupported, m)
      | some (valueOffset, dataSize) =>
        (efiSuccess, copyBytes m (table + index + valueOffset) (leBytes value dataSize))

end Names

section Ecam

def acpiPcieEcamCompatModeAuto : UInt32 := 0
def acpiPcieEcamCompatModeSingleDev : UInt32 := 1
def acpiPcieEcamCompatModeNxpmx6 : UInt32 := 2
def acpiPcieEcamCompatModeGraviton : UInt32 := 4

/-- The tables that are looked up by signature. -/
inductive AcpiTable
  | dsdt
  | mcfg
  | fadt
  deriving DecidableEq

/-- What a boot hands to the driver: the OS, its settings, and whether it found the protocol for
tables. -/
structure AcpiPlatform where
  osType : ExitBootServicesOsType
  pcdAcpiPcieEcamCompatMode : UInt32
  pcdPcieEcamCompliantSegmentsMask : UInt32
  mIsSdmmcBoot : Bool
  mAcpiSdtProtocol : Bool

variable (platform : AcpiPlatform)

def pcieEcamMode : UInt32 :=
  if platform.pcdAcpiPcieEcamCompatMode = acpiPcieEcamCompatModeAuto then
    match platform.osType with
    | .windows => acpiPcieEcamCompatModeNxpmx6
    | .linux => acpiPcieEcamCompatModeGraviton
    | _ => acpiPcieEcamCompatModeSingleDev
  else platform.pcdAcpiPcieEcamCompatMode

def pcieBusOffset : Bool := decide (pcieEcamMode platform ≠ acpiPcieEcamCompatModeNxpmx6)

def mcfgDeviceFiltering : Bool :=
  decide (pcieEcamMode platform = acpiPcieEcamCompatModeNxpmx6
    ∨ pcieEcamMode platform = acpiPcieEcamCompatModeGraviton)

def mcfgSplitConfigSpaces : Bool := decide (pcieEcamMode platform = acpiPcieEcamCompatModeNxpmx6)

def pcieBusMin : UInt8 := if mcfgDeviceFiltering platform then 0 else 1

def pcieBusMax : UInt8 :=
  if !mcfgDeviceFiltering platform && !mcfgSplitConfigSpaces platform then pcieBusMin platform
  else UInt8.ofNat (pcieBusCount - 1)

/-- An entry of the MCFG, without its reserved bytes. -/
structure ConfigSpace where
  baseAddress : ℕ
  pciSegmentGroupNumber : ℕ
  startBusNumber : UInt8
  endBusNumber : UInt8

def ConfigSpace.bytes (space : ConfigSpace) : List UInt8 :=
  leBytes space.baseAddress 8 ++ leBytes space.pciSegmentGroupNumber 2
    ++ [space.startBusNumber, space.endBusNumber]

/-- `ConfigSpaces[0][Index]` as first set, with the bus numbers the segment has. -/
def configSpaceStart (index : ℕ) : ConfigSpace :=
  let base : UInt8 := if pcieBusOffset platform then UInt8.ofNat (pcieBusBase index) else 0
  { baseAddress := pcieCfgBase index
    pciSegmentGroupNumber := index
    startBusNumber := pcieBusMin platform + base
    endBusNumber := pcieBusMax platform + base }

/-- The two entries of a segment where its space is split. -/
def configSpaceSplit (index : ℕ) (space : ConfigSpace) : ConfigSpace × ConfigSpace :=
  if mcfgDeviceFiltering platform then
    ({ space with startBusNumber := space.startBusNumber + 1 },
      { space with
        baseAddress := pcieDbiBase index
        endBusNumber := space.startBusNumber })
  else
    ({ space with endBusNumber := space.startBusNumber },
      { space with startBusNumber := space.startBusNumber + 1 })

/-- The clamp to the config aperture, and the offset of a segment that answers for every device. -/
def configSpaceClamp (index : ℕ) (space : ConfigSpace) : ConfigSpace :=
  let span := pcieCfgSize / size1Mb
  let space :=
    if space.startBusNumber.toNat + (span - 1) < space.endBusNumber.toNat then
      { space with endBusNumber := space.startBusNumber + UInt8.ofNat (span - 1) }
    else space
  if !mcfgDeviceFiltering platform
      && !platform.pcdPcieEcamCompliantSegmentsMask.toNat.testBit index then
    { space with baseAddress := space.baseAddress + 0x8000 }
  else space

/-- `ConfigSpaces[i][Index]` in a table. -/
def configSpaceAt (mcfgTable i index : ℕ) : ℕ :=
  mcfgTable + 44 + 16 * (i * numPcieController + index)

def fixupConfigSpace (mcfgTable index : ℕ) (m : Cells UInt8) : Cells UInt8 :=
  let space := configSpaceStart platform index
  if mcfgSplitConfigSpaces platform then
    let spaces := configSpaceSplit platform index space
    copyBytes
      (copyBytes m (configSpaceAt mcfgTable 0 index) (configSpaceClamp platform index spaces.1).bytes)
      (configSpaceAt mcfgTable 1 index) spaces.2.bytes
  else
    copyBytes m (configSpaceAt mcfgTable 0 index) (configSpaceClamp platform index space).bytes

variable (lib : AcpiLib)

def fixupFadt (fadtTable : ℕ) (m : Cells UInt8) : Cells UInt8 :=
  let m := copyBytes m (fadtTable + 10) (charBytes ['N', 'X', 'P', 'M', 'X', '6'])
  lib.updateChecksum m fadtTable (sdtLength m fadtTable)

def fixupMcfg (mcfgTable : ℕ) (m : Cells UInt8) : Cells UInt8 :=
  let m :=
    if pcieEcamMode platform = acpiPcieEcamCompatModeGraviton then
      copyBytes (copyBytes m (mcfgTable + 10) (charBytes ['A', 'M', 'A', 'Z', 'O', 'N']))
        (mcfgTable + 16) (charBytes ['G', 'R', 'A', 'V', 'I', 'T', 'O', 'N'])
    else m
  let m := countUp (fixupConfigSpace platform mcfgTable) numPcieController m
  let m :=
    if mcfgSplitConfigSpaces platform then m
    else copyBytes m (mcfgTable + 4) (leBytes (44 + 16 * numPcieController) 4)
  lib.updateChecksum m mcfgTable (sdtLength m mcfgTable)

/-- A name of the DSDT and the integer it is set to. -/
structure SdtPatch where
  name : List UInt8
  value : ℕ

def applyPatches (table : ℕ) (patches : List SdtPatch) (m : Cells UInt8) : Cells UInt8 :=
  patches.foldl (fun m patch => (acpiUpdateSdtNameInteger m table patch.name patch.value).2) m

/-- What the DSDT is told of the bus numbers. -/
def busPatches : List SdtPatch :=
  [⟨charBytes ['P', 'B', 'M', 'I'], (pcieBusMin platform).toNat⟩,
    ⟨charBytes ['P', 'B', 'M', 'A'], (pcieBusMax platform).toNat⟩,
    ⟨charBytes ['P', 'B', 'O', 'F'], (pcieBusOffset platform).toNat⟩]

variable (find : AcpiTable → Option ℕ)

def acpiFixupPcieEcam (mDsdtTable : ℕ) (m : Cells UInt8) : EfiStatus × Cells UInt8 :=
  match find .mcfg with
  | none => (efiNotFound, m)
  | some mcfgTable =>
    if pcieEcamMode platform = acpiPcieEcamCompatModeNxpmx6 then
      match find .fadt with
      | none => (efiNotFound, m)
      | some fadtTable =>
        (efiSuccess, applyPatches mDsdtTable (busPatches platform)
          (fixupMcfg platform lib mcfgTable (fixupFadt lib fadtTable m)))
    else
      (efiSuccess, applyPatches mDsdtTable (busPatches platform) (fixupMcfg platform lib mcfgTable m))

/-- What the DSDT is told of the OS and the boot device. -/
def devicePatches : List SdtPatch :=
  (if platform.osType = .windows then [⟨charBytes ['E', 'H', 'I', 'D'], 0⟩] else [])
    ++ if platform.mIsSdmmcBoot then [⟨charBytes ['S', 'D', 'R', 'M'], 0⟩] else []

def acpiPlatformExitBootServicesOsHandler (m : Cells UInt8) : Cells UInt8 :=
  match platform.mAcpiSdtProtocol, find .dsdt with
  | true, some mDsdtTable =>
    let m := applyPatches mDsdtTable (devicePatches platform) m
    let m := (acpiFixupPcieEcam platform lib find mDsdtTable m).2
    lib.updateChecksum m mDsdtTable (sdtLength m mDsdtTable)
  | _, _ => m

end Ecam

end Edk2Rk3576
