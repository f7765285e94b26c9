import Edk2Rk3576.Efi
import Edk2Rk3576.Lib.Cells
import Edk2Rk3576.Lib.Polling

/-!
# I2C requests

`I2cStartRequest` runs the operations of a packet one after the other, in chunks of what the
controller's FIFO holds. Whether the controller and the slave answer is told by the pending bits of
`I2C_IPD`: a bit shows from some read of a wait on, or never.
-/

namespace Edk2Rk3576

open Cells

inductive I2cReg
  | con
  | mrxAddr
  | mtxCnt
  | mrxCnt
  | ien
  | ipd
  | txData (i : ℕ)
  deriving DecidableEq

def i2cConEn : UInt32 := 1
def i2cConMod (mod : UInt32) : UInt32 := mod <<< 1
def i2cModeTx : UInt32 := 0
def i2cModeTrx : UInt32 := 1
def i2cModeRx : UInt32 := 2
def i2cConStart : UInt32 := 0x08
def i2cConStop : UInt32 := 0x10
def i2cConLastAck : UInt32 := 0x20

/-- The bits of `I2C_IEN` and `I2C_IPD`. -/
def i2cMbtf : UInt32 := 0x04
def i2cMbrf : UInt32 := 0x08
def i2cStartBit : UInt32 := 0x10
def i2cStopBit : UInt32 := 0x20
def i2cNakRcv : UInt32 := 0x40
def i2cIpdAllClean : UInt32 := 0x7f

def i2cFlagRead : UInt32 := 1
def rkI2cFifoSize : ℕ := 32
def i2cTimeoutUs : ℕ := 100000
def i2cReadyTimeout : ℕ := 100
def tplHighLevel : ℕ := 31

def efiNoResponse : EfiStatus := encodeError 16

structure I2cOperation where
  flags : UInt32
  lengthInBytes : UInt32
  buffer : Cells UInt8

/-- `I2C_FLAG_READ` is set. -/
def I2cOperation.isRead (op : I2cOperation) : Bool := op.flags &&& i2cFlagRead ≠ 0

/-- The bytes an operation is to move: a write moves the address as its first one. -/
def I2cOperation.bytes (op : I2cOperation) : ℕ :=
  if op.isRead then op.lengthInBytes.toNat else op.lengthInBytes.toNat + 1

/-- How the bus answers a chunk: from which read of `I2C_IPD` on a byte is seen not acknowledged,
from which one the chunk is seen finished, and what was received. -/
structure ChunkAnswer where
  nak : Option ℕ
  finished : Option ℕ
  rxData : ℕ → UInt32

/-- How it answers an operation: the start, and chunk by chunk. -/
structure OperationAnswer where
  start : Option ℕ
  chunk : ℕ → ChunkAnswer

structure BusAnswer where
  operation : ℕ → OperationAnswer
  stop : Option ℕ

/-- The bit that shows from read `since` on, at a read. -/
def shows (since : Option ℕ) (read : ℕ) : Bool :=
  match since with
  | some r => r ≤ read
  | none => false

structure I2cState where
  tpl : ℕ
  /-- The registers written, the last one first. -/
  written : List (I2cReg × UInt32)
  i2cStatus : EfiStatus
  signaled : Bool
  /-- The bytes each operation that was run has moved. -/
  transferred : List ℕ

def I2cState.write (s : I2cState) (reg : I2cReg) (val : UInt32) : I2cState :=
  { s with written := (reg, val) :: s.written }

section Requests

variable (config : UInt32)

def i2cDisable (s : I2cState) : I2cState :=
  ((s.write .ien 0).write .ipd i2cIpdAllClean).write .con 0

/-- `I2cStartEnable`. `Timeout` is a `UINTN`: it is not `<= 0` where the loop has run out. -/
def i2cStartEnable (con : UInt32) (timeout : ℕ) (start : Option ℕ) (s : I2cState) :
    EfiStatus × I2cState :=
  let s := s.write .ipd i2cIpdAllClean
  let s := s.write .ien i2cStartBit
  let s := s.write .con (i2cConEn ||| i2cConStart ||| con ||| config)
  match pollFor (fun t => if shows start t then some () else none) timeout 0 with
  | some ((), left) =>
    if left = 0 then (efiTimeout, s.write .ipd i2cStartBit)
    else (efiSuccess, s.write .ipd i2cStartBit)
  | none => (efiSuccess, s)

def i2cStop (stop : Option ℕ) (s : I2cState) : EfiStatus × I2cState :=
  let s := s.write .ipd i2cIpdAllClean
  let s := s.write .con (i2cConEn ||| i2cConStop ||| config)
  let s := s.write .ien i2cConStop
  match pollFor (fun t => if shows stop t then some () else none) i2cReadyTimeout 0 with
  | some ((), left) =>
    if left = 0 then (efiTimeout, s.write .ipd i2cStopBit)
    else (efiSuccess, s.write .ipd i2cStopBit)
  | none => (efiTimeout, s)

/-- How the wait for a chunk ended. -/
structure ChunkWait where
  status : EfiStatus
  left : ℕ
  /-- The chunk is finished, each byte acknowledged. -/
  carried : Bool
  state : I2cState

/-- The wait of both operations: `TimeOut` is an `int`, and negative where the loop has run out. A
pass reads `I2C_IPD` twice. -/
def i2cWaitChunk (finished : UInt32) (answer : ChunkAnswer) (timeOut : ℕ) (s : I2cState) :
    ChunkWait :=
  match pollFor (fun t =>
      if shows answer.nak (2 * t) then some false
      else if shows answer.finished (2 * t + 1) then some true
      else none) timeOut 0 with
  | some (false, left) => ⟨efiNoResponse, left, false, s.write .ipd i2cNakRcv⟩
  | some (true, left) =>
    ⟨if left = 0 then efiTimeout else efiSuccess, left, answer.nak.isNone,
      s.write .ipd finished⟩
  | none => ⟨efiTimeout, 0, false, s⟩

/-- Where an operation is: its status, `*Read` or `*Sent`, the buffer, the bytes moved. -/
structure I2cTransfer where
  status : EfiStatus
  transmitted : ℕ
  buffer : Cells UInt8
  moved : ℕ
  state : I2cState

/-- Byte `i` of what a chunk received. -/
def ChunkAnswer.rxByte (answer : ChunkAnswer) (i : ℕ) : UInt8 :=
  UInt8.ofNat ((answer.rxData (i / 4)).toNat / 256 ^ (i % 4))

/-- The loop of `I2cReadOperation`, from chunk `k` on. -/
def i2cReadChunks (answer : OperationAnswer) (length k timeOut bytesRemainLen : ℕ)
    (r : I2cTransfer) : I2cTransfer :=
  if bytesRemainLen = 0 then { r with status := efiSuccess, transmitted := length }
  else
    let con := if rkI2cFifoSize < bytesRemainLen then i2cConEn else i2cConEn ||| i2cConLastAck
    let n := min rkI2cFifoSize bytesRemainLen
    let started :=
      if k ≠ 0 then (efiSuccess, r.state.write .con (con ||| i2cConMod i2cModeRx ||| config))
      else i2cStartEnable config (con ||| i2cConMod i2cModeTrx) i2cTimeoutUs answer.start r.state
    if efiError started.1 then { r with status := started.1, state := started.2 }
    else
      let s := started.2.write .ien (i2cMbrf ||| i2cNakRcv)
      let s := s.write .mrxCnt (UInt32.ofNat n)
      let w := i2cWaitChunk i2cMbrf (answer.chunk k) timeOut s
      if efiError w.status then { r with status := w.status, state := w.state }
      else
        i2cReadChunks answer length (k + 1) w.left (bytesRemainLen - n)
          { status := w.status
            transmitted := n
            buffer := r.buffer.modify (rkI2cFifoSize * k) n fun i _ => (answer.chunk k).rxByte i
            moved := if w.carried then r.moved + n else r.moved
            state := w.state }
termination_by bytesRemainLen
decreasing_by all_goals (simp only [rkI2cFifoSize]; omega)

def i2cReadOperation (slaveAddress : UInt64) (buf : Cells UInt8) (length : UInt64) (snd : Bool)
    (answer : OperationAnswer) (s : I2cState) : I2cTransfer :=
  let s := if snd then s.write .con 0 else s
  let s := s.write .mrxAddr (slaveAddress <<< 1 ||| 1 ||| 0x1000000).toUInt32
  i2cReadChunks config answer length.toNat 0 i2cTimeoutUs length.toUInt32.toNat
    ⟨efiSuccess, 0, buf, 0, s⟩

/-- Byte `j` of word `i` of what chunk `k` sends; the first one is the address. -/
def txPart (slaveAddress : UInt64) (buf : Cells UInt8) (k n i j : ℕ) : UInt32 :=
  if 4 * i + j < n then
    if k = 0 ∧ i = 0 ∧ j = 0 then (slaveAddress <<< 1).toUInt32
    else (buf (rkI2cFifoSize * k + 4 * i + j - 1)).toUInt32 <<< UInt32.ofNat (8 * j)
  else 0

def txData (slaveAddress : UInt64) (buf : Cells UInt8) (k n i : ℕ) : UInt32 :=
  (List.range 4).foldl (fun d j => d ||| txPart slaveAddress buf k n i j) 0

/-- The words of a chunk, into the FIFO. -/
def writeTxData (slaveAddress : UInt64) (buf : Cells UInt8) (k n : ℕ) (s : I2cState) : I2cState :=
  (List.range ((n + 3) / 4)).foldl
    (fun s i => s.write (.txData i) (txData slaveAddress buf k n i)) s

/-- The loop of `I2cWriteOperation`, from chunk `k` on. -/
def i2cWriteChunks (slaveAddress : UInt64) (answer : OperationAnswer)
    (length k timeOut bytesRemainLen : ℕ) (r : I2cTransfer) : I2cTransfer :=
  if bytesRemainLen = 0 then { r with status := efiSuccess, transmitted := length }
  else
    let n := min rkI2cFifoSize bytesRemainLen
    let s := writeTxData slaveAddress r.buffer k n r.state
    let started :=
      if k ≠ 0 then (efiSuccess, s.write .con (i2cConEn ||| i2cConMod i2cModeTx ||| config))
      else i2cStartEnable config (i2cConEn ||| i2cConMod i2cModeTx) i2cTimeoutUs answer.start s
    if efiError started.1 then { r with status := started.1, state := started.2 }
    else
      let s := started.2.write .ien (i2cMbtf ||| i2cNakRcv)
      let s := s.write .mtxCnt (UInt32.ofNat n)
      let w := i2cWaitChunk i2cMbtf (answer.chunk k) timeOut s
      let moved := if w.carried then r.moved + n else r.moved
      if efiError w.status then { r with status := w.status, moved := moved, state := w.state }
      else
        i2cWriteChunks slaveAddress answer length (k + 1) w.left (bytesRemainLen - n)
          { r with status := w.status, transmitted := n, moved := moved, state := w.state }
termination_by bytesRemainLen
decreasing_by all_goals (simp only [rkI2cFifoSize]; omega)

def i2cWriteOperation (slaveAddress : UInt64) (buf : Cells UInt8) (length : UInt64)
    (answer : OperationAnswer) (s : I2cState) : I2cTransfer :=
  i2cWriteChunks config slaveAddress answer length.toNat 0 i2cTimeoutUs
    (length + 1).toUInt32.toNat ⟨efiSuccess, 0, buf, 0, s⟩

/-- Operation number `i` of a packet. -/
def i2cOperation (slaveAddress : UInt64) (answer : OperationAnswer) (i : ℕ) (op : I2cOperation)
    (s : I2cState) : I2cTransfer :=
  if op.isRead then
    i2cReadOperation config slaveAddress op.buffer op.lengthInBytes.toUInt64 (i == 1) answer s
  else i2cWriteOperation config slaveAddress op.buffer op.lengthInBytes.toUInt64 answer s

/-- The operations of a packet from number `i` on, up to one that fails. -/
def i2cOperations (slaveAddress : UInt64) (bus : BusAnswer) :
    ℕ → List I2cOperation → I2cState → List I2cOperation × I2cState
  | _, [], s => ([], s)
  | i, op :: ops, s =>
    let r := i2cOperation config slaveAddress (bus.operation i) i op s
    let op := { op with lengthInBytes := UInt32.ofNat r.transmitted, buffer := r.buffer }
    let s := { r.state with transferred := s.transferred ++ [r.moved] }
    if efiError r.status then (op :: ops, s)
    else
      let rest := i2cOperations slaveAddress bus (i + 1) ops s
      (op :: rest.1, rest.2)

def raiseTpl (tpl : ℕ) (s : I2cState) : I2cState := { s with tpl := tpl }

/-- A packet the request does not support. -/
def tooManyMessages (ops : List I2cOperation) : Bool :=
  2 < ops.length || (ops.length == 2 && (ops.head?.map I2cOperation.isRead).getD false)

/-- `I2cStartRequest`: what it returns, the packet, and the state. -/
def i2cStartRequest (atRuntime : Bool) (slaveAddress : UInt64) (ops : List I2cOperation)
    (event i2cStatus : Bool) (bus : BusAnswer) (s : I2cState) :
    EfiStatus × List I2cOperation × I2cState :=
  if atRuntime && event then (efiUnsupported, ops, s)
  else
    let tpl := s.tpl
    let s := if atRuntime then s else raiseTpl tplHighLevel s
    if tooManyMessages ops then (efiInvalidParameter, ops, s)
    else
      let run := i2cOperations config slaveAddress bus 0 ops s
      let s := i2cDisable (i2cStop config bus.stop run.2).2
      let s := if atRuntime then s else raiseTpl tpl s
      let s := if i2cStatus then { s with i2cStatus := efiSuccess } else s
      let s := if event then { s with signaled := true } else s
      (efiSuccess, run.1, s)

end Requests

end Edk2Rk3576
