import Edk2Rk3576.Efi
import Edk2Rk3576.Lib.Cells

/-!
# The SPI NOR driver

`NorFlashDxe` talks to the chip through transfers that may fail. A `NorEnv` says what each
transfer does at each moment, and every function below is a function of it, so that a statement
about every `NorEnv` is one about every pattern of failures.

The chip accepts a program or an erase only after a write enable. A page program clears bits:
each cell becomes its AND with the byte sent. A program or an erase that does not complete leaves
its range torn, with bytes the environment picks.
-/

namespace Edk2Rk3576

inductive NorJob
  | idle
  | program
  | erase
  deriving DecidableEq

/-- What one read of the status register tells: the transfer failed, or the chip is busy or ready. -/
inductive Poll
  | fail
  | busy
  | ready
  deriving DecidableEq

structure NorEnv where
  /-- The write-enable transfer at this moment goes through. -/
  enable : ℕ → Bool
  /-- The transfer of this job's command goes through. -/
  xfer : NorJob → ℕ → Bool
  poll : NorJob → ℕ → Poll
  readXfer : ℕ → Bool
  /-- What a range is left with when its job, or its read, does not complete. -/
  torn : ℕ → Cells UInt8

/-- Every transfer goes through and the chip is never busy. -/
def NorEnv.healthy : NorEnv where
  enable _ := true
  xfer _ _ := true
  poll _ _ := .ready
  readXfer _ := true
  torn _ _ := 0

structure NorChip where
  cells : Cells UInt8
  writeEnabled : Bool
  job : NorJob
  jobAddr : ℕ
  jobLen : ℕ
  clock : ℕ

/-- `struct SPI_NOR`, as `HAL_SNOR_Init` fills it for every chip of its table. -/
structure SpiNor where
  size : ℕ
  size_le : size ≤ 2 ^ 31

/-- A chip of 128 Mbit, as the boards carry. -/
def spiNor16M : SpiNor := ⟨0x1000000, by decide⟩

def SpiNor.pageSize (_ : SpiNor) : ℕ := 256
def SpiNor.sectorSize (_ : SpiNor) : ℕ := 8 * 512

def readMaxIoSize : ℕ := 1024 * 8

namespace NorChip

def tick (c : NorChip) : NorChip := { c with clock := c.clock + 1 }

/-- The job is over, completed or not. -/
def settle (E : NorEnv) (c : NorChip) (completed : Bool) : NorChip :=
  { c with
    cells := if completed || c.job == .idle then c.cells
      else c.cells.write c.jobAddr c.jobLen (E.torn c.clock)
    job := .idle
    clock := c.clock + 1 }

/-- The chip takes the command of `job` on `n` cells from `a`, if it is write enabled. -/
def start (c : NorChip) (job : NorJob) (a n : ℕ) (f : ℕ → UInt8 → UInt8) : NorChip :=
  if c.writeEnabled then
    { c with
      cells := c.cells.modify a n f
      writeEnabled := false
      job := job
      jobAddr := a
      jobLen := n
      clock := c.clock + 1 }
  else c.tick

end NorChip

section Driver

variable (E : NorEnv) (nor : SpiNor)

/-- `SNOR_WriteEnable`. -/
def snorWriteEnable (c : NorChip) : EfiStatus × NorChip :=
  if E.enable c.clock then (efiSuccess, { c.tick with writeEnabled := true })
  else (efiTimeout, c.tick)

/-- `SNOR_WriteData`: the bytes the transfer sent, or zero when it failed. -/
def snorWriteData (c : NorChip) (addr len : ℕ) (buf : Cells UInt8) : ℕ × NorChip :=
  let c' := c.start .program addr len fun k old => old &&& buf k
  if E.xfer .program c.clock then (len, c') else (0, c'.settle E false)

/-- What an erase of this kind at `addr` covers. -/
inductive NorEraseType
  | sector
  | block64k
  | chip
  deriving DecidableEq

def eraseRange (addr : ℕ) : NorEraseType → ℕ × ℕ
  | .sector => (addr - addr % nor.sectorSize, nor.sectorSize)
  | .block64k => (addr - addr % 0x10000, 0x10000)
  | .chip => (0, nor.size)

/-- The milliseconds `HAL_SNOR_Erase` allows. -/
def eraseTimeout : NorEraseType → ℕ
  | .sector => 400
  | .block64k => 2000
  | .chip => 40000

/-- `SNOR_EraseSec`, `SNOR_EraseBlk` and `SNOR_EraseChip`. -/
def snorErase (c : NorChip) (addr : ℕ) (ty : NorEraseType) : EfiStatus × NorChip :=
  let r := eraseRange nor addr ty
  let c' := c.start .erase r.1 r.2 fun _ _ => 0xFF
  if E.xfer .erase c.clock then (efiSuccess, c') else (efiTimeout, c'.settle E false)

/-- `SNOR_WaitBusy`: at most `timeout` reads of the status register. -/
def snorWaitBusy (c : NorChip) : (timeout : ℕ) → EfiStatus × NorChip
  | 0 => (efiNotReady, c.settle E false)
  | timeout + 1 =>
    match E.poll c.job c.clock with
    | .fail => (efiTimeout, c.settle E false)
    | .ready => (efiSuccess, c.settle E true)
    | .busy => snorWaitBusy c.tick timeout

/-- The loop of `HAL_SNOR_ProgData`; `fuel` pages are enough when it is at least `remain`. -/
def progLoop (len : ℕ) : (fuel : ℕ) → NorChip → (addr : ℕ) → (pBuf : Cells UInt8) →
    (remain : ℕ) → EfiStatus × NorChip
  | 0, c, _, _, _ => (len, c)
  | fuel + 1, c, addr, pBuf, remain =>
    if remain = 0 then (len, c)
    else
      let size := min (nor.pageSize - addr % nor.pageSize) remain
      let c := (snorWriteEnable E c).2
      let (ret, c) := snorWriteData E c addr size pBuf
      if ret ≠ size then (ret, c)
      else
        -- the status of the wait is not looked at
        let c := (snorWaitBusy E c 10000).2
        progLoop len fuel c (addr + size) (fun k => pBuf (size + k)) (remain - size)

/-- The range check of `HAL_SNOR_ProgData` and `HAL_SNOR_ReadData`, in `UINT32` arithmetic. -/
def SpiNor.outside (a len : ℕ) : Prop :=
  nor.size ≤ a ∨ nor.size < len ∨ nor.size < toUint32 (a + len)

instance (a len : ℕ) : Decidable (nor.outside a len) := by
  unfold SpiNor.outside
  infer_instance

/-- `HAL_SNOR_ProgData`. -/
def halSnorProgData (c : NorChip) (addr : ℕ) (buf : Cells UInt8) (len : ℕ) : EfiStatus × NorChip :=
  if nor.outside addr len then (efiDeviceError, c)
  else progLoop E nor len len c addr buf len

/-- `HAL_SNOR_Erase`. -/
def halSnorErase (c : NorChip) (addr : ℕ) (ty : NorEraseType) : EfiStatus × NorChip :=
  if nor.size ≤ addr then (efiDeviceError, c)
  else
    let c := (snorWriteEnable E c).2
    let (ret, c) := snorErase E nor c addr ty
    if ret ≠ efiSuccess then (ret, c)
    else snorWaitBusy E c (eraseTimeout ty * 1000)

/-- The loop of `Erase`; `fuel` sectors are enough when it is at least `ulLen`. -/
def eraseLoop : (fuel : ℕ) → NorChip → (offset ulLen : ℕ) → EfiStatus × NorChip
  | 0, c, _, _ => (efiSuccess, c)
  | fuel + 1, c, offset, ulLen =>
    if ulLen = 0 then (efiSuccess, c)
    else
      let (status, c) := halSnorErase E nor c offset .sector
      if efiError status then (status, c)
      else eraseLoop fuel c (toUint32 (offset + nor.sectorSize)) (ulLen - nor.sectorSize)

/-- `Erase` of the flash protocol. -/
def norErase (c : NorChip) (offset ulLen : ℕ) : EfiStatus × NorChip :=
  if offset % nor.sectorSize ≠ 0 ∨ ulLen % nor.sectorSize ≠ 0 then (efiDeviceError, c)
  else eraseLoop E nor ulLen c offset ulLen

/-- `Write` of the flash protocol: the status is what `HAL_SNOR_ProgData` returned. -/
def norWrite (c : NorChip) (offset : ℕ) (buffer : Cells UInt8) (ulLen : ℕ) :
    EfiStatus × NorChip :=
  halSnorProgData E nor c offset buffer ulLen

/-- The loop of `HAL_SNOR_ReadData`, filling `dst` from `pos` on. -/
def readLoop (len : ℕ) : (fuel : ℕ) → NorChip → (src : ℕ) → (dst : Cells UInt8) →
    (pos remain : ℕ) → EfiStatus × Cells UInt8 × NorChip
  | 0, c, _, dst, _, _ => (len, dst, c)
  | fuel + 1, c, src, dst, pos, remain =>
    if remain = 0 then (len, dst, c)
    else
      let size := min readMaxIoSize remain
      if E.readXfer c.clock then
        readLoop len fuel c.tick (src + size) (dst.write pos size fun k => c.cells (src + k))
          (pos + size) (remain - size)
      -- `SNOR_ReadData` returns zero, and so does the caller
      else (0, dst.write pos size (E.torn c.clock), c.tick)

/-- `HAL_SNOR_ReadData`, and `Read` of the flash protocol, which returns its status. -/
def norRead (c : NorChip) (src : ℕ) (dst : Cells UInt8) (len : ℕ) :
    EfiStatus × Cells UInt8 × NorChip :=
  if nor.outside src len then (efiDeviceError, dst, c)
  else readLoop E len len c src dst 0 len

end Driver

end Edk2Rk3576
