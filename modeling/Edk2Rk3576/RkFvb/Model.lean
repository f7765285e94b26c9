import Edk2Rk3576.Lib.LittleEndian
import Edk2Rk3576.NorFlash.Snor

/-!
# The firmware volume block driver

`RkFvbDxe` serves the variable region from a shadow in memory. In SPI mode every write and erase
goes to the NOR flash first; otherwise the shadow is dumped to the boot disk from time to time.

What `FvbConfigureFlashInstance` fixes once is an `FvbGeometry`, and what later calls change is an
`FvbState`. Memory is the whole address space, so that a call may go past the shadow.
-/

namespace Edk2Rk3576

open Cells

def uintn : ℕ := 2 ^ 64

/-- `GET_DATA_OFFSET`, in `UINTN` arithmetic. -/
def getDataOffset (baseAddr lba lbaSize : ℕ) : ℕ := (baseAddr + lba * lbaSize) % uintn

-- `mRkFvbFlashInstanceTemplate` and `FvbConfigureFlashInstance`
def fvbTemplateSize : ℕ := 0x40000
def fvbStartLba : ℕ := 0
def fvbBlockSize : ℕ := 0x1000
def fvbLastBlock : ℕ := fvbTemplateSize / fvbBlockSize - 1

structure FvbGeometry where
  regionBaseAddress : ℕ
  fvbOffset : ℕ
  variableSize : ℕ
  ftwWorkingSize : ℕ
  ftwSpareSize : ℕ
  /-- The shadow is an allocation of the address space. -/
  region_le : regionBaseAddress + (variableSize + ftwWorkingSize + ftwSpareSize) ≤ 2 ^ 64
  /-- The region has `UINT32` offsets on the medium, as the flash protocol takes. -/
  offset_lt : fvbOffset + (variableSize + ftwWorkingSize + ftwSpareSize) < 2 ^ 32

def FvbGeometry.fvbSize (g : FvbGeometry) : ℕ :=
  g.variableSize + g.ftwWorkingSize + g.ftwSpareSize

/-- The region of the RK3576 boards: three areas of 64 KB, at the board's offset of the medium. -/
def rk3576Geometry (fvbOffset : ℕ) (h : fvbOffset + 0x30000 < 2 ^ 32) : FvbGeometry where
  regionBaseAddress := 0x415C0000
  fvbOffset := fvbOffset
  variableSize := 0x10000
  ftwWorkingSize := 0x10000
  ftwSpareSize := 0x10000
  region_le := by decide
  offset_lt := h

-- `PcdRkFvbNvStorageSpiOffset` of the boards that keep the region on SPI NOR, and on a disk
def rock4dGeometry : FvbGeometry := rk3576Geometry 0xFC0000 (by decide)
def cm5ioGeometry : FvbGeometry := rk3576Geometry 0x1600000 (by decide)

structure FvbDevice where
  isSpiFlashAvailable : Bool
  isFvbHeaderValid : Bool
  /-- The disk whose device path `DiskDevice` holds. -/
  diskDevice : Option ℕ
  diskMediaId : ℕ
  diskDataInvalidated : Bool
  deriving DecidableEq

structure FvbState where
  dev : FvbDevice
  ram : Cells UInt8
  chip : NorChip
  disks : ℕ → Cells UInt8

/-- A device just set up over cleared memory and media. -/
def FvbState.zeros (spi : Bool) : FvbState where
  dev := ⟨spi, false, none, 0, false⟩
  ram _ := 0
  chip := ⟨fun _ => 0, false, .idle, 0, 0, 0⟩
  disks _ _ := 0

/-- `CopyMem` into memory: `n` bytes of `b` from `dst` on. -/
def copyMem (ram : Cells UInt8) (dst n : ℕ) (b : Cells UInt8) : Cells UInt8 :=
  rmodify uintn ram dst n fun k _ => b k

/-- `SetMem`. -/
def setMem (ram : Cells UInt8) (dst n : ℕ) (v : UInt8) : Cells UInt8 :=
  rmodify uintn ram dst n fun _ _ => v

def efiFvb2WriteStatus : ℕ := 0x20
def fvHeaderAttributes : ℕ := 44

def efiLbaListTerminator : ℕ := 2 ^ 64 - 1

section Protocol

variable (g : FvbGeometry)

/-- `FvbGetAttributes`: the attributes of the header at the start of the shadow. -/
def fvbGetAttributes (ram : Cells UInt8) : ℕ := ram.le (g.regionBaseAddress + fvHeaderAttributes) 4

/-- `FvbGetBlockSize`. -/
def fvbGetBlockSize (lba : ℕ) : EfiStatus × ℕ × ℕ :=
  if fvbLastBlock < lba then (efiInvalidParameter, 0, 0)
  else (efiSuccess, fvbBlockSize, fvbLastBlock - lba + 1)

/-- `FvbRead`, with the bytes it copies to the caller. -/
def fvbRead (ram : Cells UInt8) (lba offset numBytes : ℕ) : EfiStatus × List UInt8 :=
  if fvbBlockSize ≤ offset ∨ fvbBlockSize < numBytes
      ∨ fvbBlockSize < (offset + numBytes) % uintn then
    (efiBadBufferSize, [])
  else if numBytes = 0 then (efiSuccess, [])
  else
    let dataOffset :=
      getDataOffset (g.regionBaseAddress + offset) (fvbStartLba + lba) fvbBlockSize
    (efiSuccess, (List.range numBytes).map fun k => ram ((dataOffset + k) % uintn))

variable (E : NorEnv) (nor : SpiNor)

/-- `FvbWrite`. -/
def fvbWrite (s : FvbState) (lba offset numBytes : ℕ) (buffer : Cells UInt8) :
    EfiStatus × FvbState :=
  let dataOffset := getDataOffset (g.fvbOffset + offset) (fvbStartLba + lba) fvbBlockSize
  let (status, chip) :=
    if s.dev.isSpiFlashAvailable then
      norWrite E nor s.chip (toUint32 dataOffset) buffer (toUint32 numBytes)
    else (efiSuccess, s.chip)
  if efiError status then (status, { s with chip := chip })
  else
    let dataOffset :=
      getDataOffset (g.regionBaseAddress + offset) (fvbStartLba + lba) fvbBlockSize
    (efiSuccess,
      { s with
        chip := chip
        ram := copyMem s.ram dataOffset numBytes buffer
        dev := { s.dev with diskDataInvalidated := true } })

/-- The validation pass of `FvbEraseBlocks` over its argument list. -/
def fvbEraseValidate : List (ℕ × ℕ) → EfiStatus
  | [] => efiSuccess
  | (startingLba, numOfLba) :: args =>
    if startingLba = efiLbaListTerminator then efiSuccess
    else if toUint32 numOfLba = 0
        ∨ fvbLastBlock < (fvbStartLba + startingLba + toUint32 numOfLba - 1) % uintn then
      efiInvalidParameter
    else fvbEraseValidate args

/-- One turn of the inner loop of the erase pass. -/
def fvbEraseBlock (s : FvbState) (lba : ℕ) : EfiStatus × FvbState :=
  let blockAddress := getDataOffset g.fvbOffset (fvbStartLba + lba) fvbBlockSize
  let (status, chip) :=
    if s.dev.isSpiFlashAvailable then norErase E nor s.chip (toUint32 blockAddress) fvbBlockSize
    else (efiSuccess, s.chip)
  if efiError status then (efiDeviceError, { s with chip := chip })
  else
    let blockAddress := getDataOffset g.regionBaseAddress (fvbStartLba + lba) fvbBlockSize
    (efiSuccess,
      { s with
        chip := chip
        ram := setMem s.ram blockAddress fvbBlockSize 0xFF
        dev := { s.dev with diskDataInvalidated := true } })

def fvbEraseRange (s : FvbState) (lba : ℕ) : (numOfLba : ℕ) → EfiStatus × FvbState
  | 0 => (efiSuccess, s)
  | numOfLba + 1 =>
    let (status, s) := fvbEraseBlock g E nor s lba
    if efiError status then (status, s) else fvbEraseRange s (lba + 1) numOfLba

/-- The erase pass of `FvbEraseBlocks`. -/
def fvbErasePass (s : FvbState) : List (ℕ × ℕ) → EfiStatus × FvbState
  | [] => (efiSuccess, s)
  | (startingLba, numOfLba) :: args =>
    if startingLba = efiLbaListTerminator then (efiSuccess, s)
    else
      let (status, s) := fvbEraseRange g E nor s startingLba (toUint32 numOfLba)
      if efiError status then (status, s) else fvbErasePass s args

/-- The volume is in its write disabled state. -/
def fvbWriteDisabled (s : FvbState) : Prop :=
  s.dev.isFvbHeaderValid = true ∧ fvbGetAttributes g s.ram &&& efiFvb2WriteStatus = 0

instance (s : FvbState) : Decidable (fvbWriteDisabled g s) := by
  unfold fvbWriteDisabled
  infer_instance

/-- `FvbEraseBlocks` on the pairs of its argument list, up to the terminator. -/
def fvbEraseBlocks (s : FvbState) (args : List (ℕ × ℕ)) : EfiStatus × FvbState :=
  if fvbWriteDisabled g s then (efiAccessDenied, s)
  else if efiError (fvbEraseValidate args) then (fvbEraseValidate args, s)
  else fvbErasePass g E nor s args

end Protocol

end Edk2Rk3576
