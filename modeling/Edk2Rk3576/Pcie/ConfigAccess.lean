import Edk2Rk3576.Lib.AlignedPieces
import Edk2Rk3576.Lib.LittleEndian
import Edk2Rk3576.Pcie.Config

/-!
# Accesses to configuration registers

`PciSegmentLib` reads and writes registers of 8, 16 and 32 bits, and ranges of them from or to a
buffer. Of an address no device can be at, a read gives all ones, and a write is dropped.
-/

namespace Edk2Rk3576

inductive PciCfgWidth
  | uint8
  | uint16
  | uint32
  deriving DecidableEq

namespace PciCfgWidth

/-- Its `sizeof`. -/
def size : PciCfgWidth → ℕ
  | uint8 => 1
  | uint16 => 2
  | uint32 => 4

/-- A conversion to the type of the width. -/
def cast (width : PciCfgWidth) (value : ℕ) : ℕ := value % 256 ^ width.size

/-- The bits of an address that are to be zero for it. -/
def mask : PciCfgWidth → UInt64
  | uint8 => 0
  | uint16 => 1
  | uint32 => 3

end PciCfgWidth

/-- An access to a memory-mapped register. -/
inductive MmioAccess
  | read (address : ℕ) (width : PciCfgWidth)
  | write (address : ℕ) (width : PciCfgWidth) (data : ℕ)

/-- What answers a read, by the accesses made before it. -/
abbrev MmioDevice := List MmioAccess → ℕ → PciCfgWidth → ℕ

structure PciState where
  /-- The accesses made, in order. -/
  accesses : List MmioAccess
  /-- The memory the buffers are in. -/
  memory : Cells UInt8
  /-- An `ASSERT` has failed; outside of a debug build the code goes on. -/
  asserted : Bool

namespace PciState

def assert (s : PciState) (p : Prop) [Decidable p] : PciState :=
  if p then s else { s with asserted := true }

/-- `WriteUnaligned16`, `WriteUnaligned32`, and the assignment of a byte. -/
def store (s : PciState) (buffer : ℕ) (width : PciCfgWidth) (value : ℕ) : PciState :=
  { s with memory := s.memory.write buffer width.size fun k => UInt8.ofNat (value / 256 ^ k) }

end PciState

section Registers

variable (device : MmioDevice) (width : PciCfgWidth) (address : UInt64)

/-- `MmioRead8`, `MmioRead16`, `MmioRead32`. -/
def mmioRead (base : ℕ) (s : PciState) : ℕ × PciState :=
  (width.cast (device s.accesses base width),
    { s with accesses := s.accesses ++ [.read base width] })

/-- `MmioWrite8`, `MmioWrite16`, `MmioWrite32`. -/
def mmioWrite (base data : ℕ) (s : PciState) : PciState :=
  { s with accesses := s.accesses ++ [.write base width (width.cast data)] }

/-- `PciSegmentLibReadWorker`. -/
def pciSegmentLibReadWorker (s : PciState) : ℕ × PciState :=
  let s := s.assert (getSegNum address < numPcieController)
  let base := pciSegmentLibGetConfigBase address
  if base = invalidPciAddress then (base.toUInt32.toNat, s) else mmioRead device width base.toNat s

/-- `PciSegmentLibWriteWorker`. -/
def pciSegmentLibWriteWorker (data : ℕ) (s : PciState) : ℕ × PciState :=
  let s := s.assert (getSegNum address < numPcieController)
  let base := pciSegmentLibGetConfigBase address
  if base = invalidPciAddress then (base.toUInt32.toNat, s)
  else (data, mmioWrite width base.toNat data s)

/-- `ASSERT_INVALID_PCI_SEGMENT_ADDRESS`. -/
def assertInvalidPciSegmentAddress (mask : UInt64) (s : PciState) : PciState :=
  s.assert (address &&& (0xffff0000f0000000 ||| mask) = 0)

def pciSegmentRead (s : PciState) : ℕ × PciState :=
  let r := pciSegmentLibReadWorker device width address
    (assertInvalidPciSegmentAddress address width.mask s)
  (width.cast r.1, r.2)

def pciSegmentRead8 := pciSegmentRead device .uint8
def pciSegmentRead16 := pciSegmentRead device .uint16
def pciSegmentRead32 := pciSegmentRead device .uint32

def pciSegmentWrite (value : ℕ) (s : PciState) : ℕ × PciState :=
  let r := pciSegmentLibWriteWorker width address value
    (assertInvalidPciSegmentAddress address width.mask s)
  (width.cast r.1, r.2)

def pciSegmentWrite8 := pciSegmentWrite .uint8
def pciSegmentWrite16 := pciSegmentWrite .uint16
def pciSegmentWrite32 := pciSegmentWrite .uint32

/-- The value written is computed from the one read. -/
def pciSegmentModify (f : ℕ → ℕ) (s : PciState) : ℕ × PciState :=
  let r := pciSegmentRead device width address s
  pciSegmentWrite width address (width.cast (f r.1)) r.2

/-- `PciSegmentOr8`, `PciSegmentOr16`, `PciSegmentOr32`. -/
def pciSegmentOr (orData : ℕ) := pciSegmentModify device width address fun v => v ||| orData

/-- `PciSegmentAnd8`, `PciSegmentAnd16`, `PciSegmentAnd32`. -/
def pciSegmentAnd (andData : ℕ) := pciSegmentModify device width address fun v => v &&& andData

/-- `PciSegmentAndThenOr8`, `PciSegmentAndThenOr16`, `PciSegmentAndThenOr32`. -/
def pciSegmentAndThenOr (andData orData : ℕ) :=
  pciSegmentModify device width address fun v => v &&& andData ||| orData

end Registers

section Buffers

/-- The locals of `PciSegmentReadBuffer` and `PciSegmentWriteBuffer`. -/
structure PciCursor where
  startAddress : UInt64
  size : ℕ
  buffer : ℕ

/-- One register to or from the place in the buffer. -/
abbrev PciUnit := PciCfgWidth → UInt64 → ℕ → PciState → PciState

variable (unit : PciUnit) (width : PciCfgWidth)

/-- A register, and on to what is behind it. -/
def pciBufferStep (r : PciCursor × PciState) : PciCursor × PciState :=
  (⟨r.1.startAddress + UInt64.ofNat width.size, r.1.size - width.size, r.1.buffer + width.size⟩,
    unit width r.1.startAddress r.1.buffer r.2)

/-- `while (Size >= sizeof (UINT32))`. -/
def pciBufferDwords : (fuel : ℕ) → PciCursor × PciState → PciCursor × PciState
  | 0, r => r
  | fuel + 1, r =>
    if PciCfgWidth.uint32.size ≤ r.1.size then pciBufferDwords fuel (pciBufferStep unit .uint32 r)
    else r

/-- The body of both functions; they differ in what they do with a register. -/
def pciSegmentBuffer (startAddress : UInt64) (size buffer : ℕ) (s : PciState) : ℕ × PciState :=
  let s := assertInvalidPciSegmentAddress startAddress 0 s
  let s := s.assert (((startAddress &&& 0xFFF).toNat + size) % 2 ^ 64 ≤ 0x1000)
  if size = 0 then (size, s)
  else
    let s := s.assert (buffer ≠ 0)
    let r : PciCursor × PciState := (⟨startAddress, size, buffer⟩, s)
    let r := if r.1.startAddress &&& 1 ≠ 0 then pciBufferStep unit .uint8 r else r
    let r := if PciCfgWidth.uint16.size ≤ r.1.size ∧ r.1.startAddress &&& 2 ≠ 0 then
      pciBufferStep unit .uint16 r else r
    let r := pciBufferDwords unit r.1.size r
    let r := if PciCfgWidth.uint16.size ≤ r.1.size then pciBufferStep unit .uint16 r else r
    let r := if PciCfgWidth.uint8.size ≤ r.1.size then pciBufferStep unit .uint8 r else r
    (size, r.2)

/-- A register read into the buffer. -/
def pciReadUnit (device : MmioDevice) : PciUnit := fun width address buffer s =>
  let r := pciSegmentRead device width address s
  r.2.store buffer width r.1

/-- A register written from the buffer. -/
def pciWriteUnit : PciUnit := fun width address buffer s =>
  (pciSegmentWrite width address (s.memory.le buffer width.size) s).2

def pciSegmentReadBuffer (device : MmioDevice) := pciSegmentBuffer (pciReadUnit device)

def pciSegmentWriteBuffer := pciSegmentBuffer pciWriteUnit

end Buffers

end Edk2Rk3576
