import Edk2Rk3576.Efi
import Mathlib.Algebra.Group.Nat.Defs

/-!
# Endpoint and transfer descriptors

The descriptors of `Descriptor.h`, which the driver and the host controller share. A field of a word
keeps as many bits of what it is set to as it has. What the controller writes back is of its own
choice, but for the fields that it only reads.
-/

namespace Edk2Rk3576.Ohci

/-- `ED_DESCRIPTOR`. -/
structure EdDescriptor where
  functionAddress : ℕ
  endPointNum : ℕ
  direction : ℕ
  speed : ℕ
  skip : ℕ
  format : ℕ
  maxPacketSize : ℕ
  freeSpace : ℕ
  tdTailPointer : ℕ
  halted : ℕ
  toggleCarry : ℕ
  zero : ℕ
  tdHeadPointer : ℕ
  nextED : ℕ
  deriving DecidableEq

/-- `TD_DESCRIPTOR`. -/
structure TdDescriptor where
  reserved : ℕ
  bufferRounding : ℕ
  dirPID : ℕ
  delayInterrupt : ℕ
  dataToggle : ℕ
  errorCount : ℕ
  conditionCode : ℕ
  currBufferPointer : ℕ
  nextTD : ℕ
  bufferEndPointer : ℕ
  nextTDPointer : ℕ
  dataBuffer : ℕ
  actualSendLength : ℕ
  deriving DecidableEq

/-- What `ZeroMem` leaves. -/
def EdDescriptor.zeroed : EdDescriptor := ⟨0, 0, 0, 0, 0, 0, 0, 0, 0, 0, 0, 0, 0, 0⟩
def TdDescriptor.zeroed : TdDescriptor := ⟨0, 0, 0, 0, 0, 0, 0, 0, 0, 0, 0, 0, 0⟩

def sizeofEd : ℕ := 16
def sizeofTd : ℕ := 32

section Fields

def edFuncAdd : ℕ := 0x0001
def edEndptNum : ℕ := 0x0002
def edDir : ℕ := 0x0004
def edSpeed : ℕ := 0x0008
def edSkip : ℕ := 0x0010
def edFormat : ℕ := 0x0020
def edMaxPacket : ℕ := 0x0040
def edTdtailPtr : ℕ := 0x0080
def edHalted : ℕ := 0x0100
def edDttoggle : ℕ := 0x0200
def edTdheadPtr : ℕ := 0x0400
def edNextEdptr : ℕ := 0x0800
def edPdata : ℕ := 0x1000
def edZero : ℕ := 0x2000

def tdBufferRound : ℕ := 0x0001
def tdDirPid : ℕ := 0x0002
def tdDelayInt : ℕ := 0x0004
def tdDtToggle : ℕ := 0x0008
def tdErrorCnt : ℕ := 0x0010
def tdCondCode : ℕ := 0x0020
def tdCurrBufferPtr : ℕ := 0x0040
def tdNextPtr : ℕ := 0x0080
def tdBufferEndPtr : ℕ := 0x0100
def tdPdata : ℕ := 0x0200

def edFromTdDir : ℕ := 0x0
def edOutDir : ℕ := 0x1
def edInDir : ℕ := 0x2

def tdSetupPid : ℕ := 0x00
def tdOutPid : ℕ := 0x01
def tdInPid : ℕ := 0x02

def hiSpeed : ℕ := 0

def tdNoError : ℕ := 0x00
def tdTobeProcessed : ℕ := 0x0E
def tdNoDelay : ℕ := 0x7

def ohciSetEDField (ed : EdDescriptor) (field value : ℕ) : EdDescriptor :=
  let ed := if field &&& edFuncAdd ≠ 0 then { ed with functionAddress := value % 2 ^ 7 } else ed
  let ed := if field &&& edEndptNum ≠ 0 then { ed with endPointNum := value % 2 ^ 4 } else ed
  let ed := if field &&& edDir ≠ 0 then { ed with direction := value % 2 ^ 2 } else ed
  let ed := if field &&& edSpeed ≠ 0 then { ed with speed := value % 2 } else ed
  let ed := if field &&& edSkip ≠ 0 then { ed with skip := value % 2 } else ed
  let ed := if field &&& edFormat ≠ 0 then { ed with format := value % 2 } else ed
  let ed := if field &&& edMaxPacket ≠ 0 then { ed with maxPacketSize := value % 2 ^ 11 } else ed
  let ed := if field &&& edPdata ≠ 0 then { ed with freeSpace := value % 2 ^ 5 } else ed
  let ed := if field &&& edZero ≠ 0 then { ed with zero := value % 2 ^ 2 } else ed
  let ed := if field &&& edTdtailPtr ≠ 0 then { ed with tdTailPointer := value } else ed
  let ed := if field &&& edHalted ≠ 0 then { ed with halted := value % 2 } else ed
  let ed := if field &&& edDttoggle ≠ 0 then { ed with toggleCarry := value % 2 } else ed
  let ed := if field &&& edTdheadPtr ≠ 0 then { ed with tdHeadPointer := value / 2 ^ 4 } else ed
  if field &&& edNextEdptr ≠ 0 then { ed with nextED := value } else ed

def ohciSetTDField (td : TdDescriptor) (field value : ℕ) : TdDescriptor :=
  let td := if field &&& tdPdata ≠ 0 then { td with reserved := value % 2 ^ 18 } else td
  let td := if field &&& tdBufferRound ≠ 0 then { td with bufferRounding := value % 2 } else td
  let td := if field &&& tdDirPid ≠ 0 then { td with dirPID := value % 2 ^ 2 } else td
  let td := if field &&& tdDelayInt ≠ 0 then { td with delayInterrupt := value % 2 ^ 3 } else td
  let td := if field &&& tdDtToggle ≠ 0 then { td with dataToggle := (value ||| 2) % 2 ^ 2 } else td
  let td := if field &&& tdErrorCnt ≠ 0 then { td with errorCount := value % 2 ^ 2 } else td
  let td := if field &&& tdCondCode ≠ 0 then { td with conditionCode := value % 2 ^ 4 } else td
  let td := if field &&& tdCurrBufferPtr ≠ 0 then { td with currBufferPointer := value } else td
  let td := if field &&& tdNextPtr ≠ 0 then { td with nextTD := value } else td
  if field &&& tdBufferEndPtr ≠ 0 then { td with bufferEndPointer := value } else td

end Fields

section Stages

/-- What `OhciCreateED` leaves in the descriptor. -/
def EdDescriptor.created : EdDescriptor := { EdDescriptor.zeroed with skip := 1 }

/-- The fields of an endpoint, in the order the transfers set them. -/
def edStage (deviceAddress endPointNum speed maximumPacketLength : ℕ) (ed : EdDescriptor) :
    EdDescriptor :=
  let ed := ohciSetEDField ed edSkip 1
  let ed := ohciSetEDField ed edFuncAdd deviceAddress
  let ed := ohciSetEDField ed edEndptNum endPointNum
  let ed := ohciSetEDField ed edDir edFromTdDir
  let ed := ohciSetEDField ed edSpeed speed
  let ed := ohciSetEDField ed (edFormat ||| edHalted ||| edDttoggle) 0
  let ed := ohciSetEDField ed edMaxPacket maximumPacketLength
  let ed := ohciSetEDField ed edPdata 0
  let ed := ohciSetEDField ed edZero 0
  let ed := ohciSetEDField ed edTdheadPtr 0
  let ed := ohciSetEDField ed edTdtailPtr 0
  ohciSetEDField ed edNextEdptr 0

/-- `edStage` of `OhciInterruptTransfer`, which sets the same fields in other groups. -/
def interruptEdStage (deviceAddress endPointNum speed maximumPacketLength : ℕ)
    (ed : EdDescriptor) : EdDescriptor :=
  let ed := ohciSetEDField ed edSkip 1
  let ed := ohciSetEDField ed edFuncAdd deviceAddress
  let ed := ohciSetEDField ed edEndptNum endPointNum
  let ed := ohciSetEDField ed edDir edFromTdDir
  let ed := ohciSetEDField ed edSpeed speed
  let ed := ohciSetEDField ed edFormat 0
  let ed := ohciSetEDField ed edMaxPacket maximumPacketLength
  let ed := ohciSetEDField ed (edPdata ||| edZero ||| edHalted ||| edDttoggle) 0
  let ed := ohciSetEDField ed edTdheadPtr 0
  let ed := ohciSetEDField ed edTdtailPtr 0
  ohciSetEDField ed edNextEdptr 0

/-- A descriptor of the data stage: so many bytes from an address on. -/
def dataTd (pidDir toggle addr length : ℕ) : TdDescriptor :=
  let td := ohciSetTDField TdDescriptor.zeroed tdPdata 0
  let td := ohciSetTDField td tdBufferRound 1
  let td := ohciSetTDField td tdDirPid pidDir
  let td := ohciSetTDField td tdDelayInt tdNoDelay
  let td := ohciSetTDField td tdDtToggle toggle
  let td := ohciSetTDField td tdErrorCnt 0
  let td := ohciSetTDField td tdCondCode tdTobeProcessed
  let td := ohciSetTDField td tdCurrBufferPtr (toUint32 addr)
  let td := ohciSetTDField td tdBufferEndPtr (toUint32 (addr + length - 1))
  let td := ohciSetTDField td tdNextPtr 0
  { td with
    actualSendLength := toUint32 length
    dataBuffer := toUint32 addr
    nextTDPointer := 0 }

/-- The descriptor a list of them ends with. -/
def emptyTd : TdDescriptor := TdDescriptor.zeroed

/-- The setup stage of a control transfer. -/
def setupTd (addr : ℕ) : TdDescriptor :=
  let td := ohciSetTDField TdDescriptor.zeroed tdPdata 0
  let td := ohciSetTDField td tdBufferRound 1
  let td := ohciSetTDField td tdDirPid tdSetupPid
  let td := ohciSetTDField td tdDelayInt tdNoDelay
  let td := ohciSetTDField td tdDtToggle 2
  let td := ohciSetTDField td tdErrorCnt 0
  let td := ohciSetTDField td tdCondCode tdTobeProcessed
  let td := ohciSetTDField td tdCurrBufferPtr (toUint32 addr)
  let td := ohciSetTDField td tdNextPtr 0
  let td := ohciSetTDField td tdBufferEndPtr (toUint32 (addr + 8 - 1))
  { td with
    actualSendLength := 8
    dataBuffer := toUint32 addr
    nextTDPointer := 0 }

/-- The status stage of a control transfer. -/
def statusTd (pidDir : ℕ) : TdDescriptor :=
  let td := ohciSetTDField TdDescriptor.zeroed tdPdata 0
  let td := ohciSetTDField td tdBufferRound 1
  let td := ohciSetTDField td tdDirPid pidDir
  let td := ohciSetTDField td tdDelayInt 7
  let td := ohciSetTDField td tdDtToggle 3
  let td := ohciSetTDField td tdErrorCnt 0
  let td := ohciSetTDField td tdCondCode tdTobeProcessed
  let td := ohciSetTDField td tdCurrBufferPtr 0
  let td := ohciSetTDField td tdNextPtr 0
  ohciSetTDField td tdBufferEndPtr 0

variable {deviceAddress endPointNum speed maximumPacketLength pidDir toggle addr length : ℕ}

/-- The endpoint's own fields are the ones that are not zero. -/
theorem edStage_created : edStage deviceAddress endPointNum speed maximumPacketLength .created =
    { EdDescriptor.zeroed with
      functionAddress := deviceAddress % 2 ^ 7
      endPointNum := endPointNum % 2 ^ 4
      speed := speed % 2
      skip := 1
      maxPacketSize := maximumPacketLength % 2 ^ 11 } := rfl

theorem interruptEdStage_created :
    interruptEdStage deviceAddress endPointNum speed maximumPacketLength .created =
      edStage deviceAddress endPointNum speed maximumPacketLength .created := rfl

theorem dataTd_eq : dataTd pidDir toggle addr length =
    { TdDescriptor.zeroed with
      bufferRounding := 1
      dirPID := pidDir % 2 ^ 2
      delayInterrupt := tdNoDelay
      dataToggle := (toggle ||| 2) % 2 ^ 2
      conditionCode := tdTobeProcessed
      currBufferPointer := toUint32 addr
      bufferEndPointer := toUint32 (addr + length - 1)
      actualSendLength := toUint32 length
      dataBuffer := toUint32 addr } := rfl

theorem setupTd_eq : setupTd addr =
    { TdDescriptor.zeroed with
      bufferRounding := 1
      dirPID := tdSetupPid
      delayInterrupt := tdNoDelay
      dataToggle := 2
      conditionCode := tdTobeProcessed
      currBufferPointer := toUint32 addr
      bufferEndPointer := toUint32 (addr + 8 - 1)
      actualSendLength := 8
      dataBuffer := toUint32 addr } := rfl

theorem statusTd_eq : statusTd pidDir =
    { TdDescriptor.zeroed with
      bufferRounding := 1
      dirPID := pidDir % 2 ^ 2
      delayInterrupt := 7
      dataToggle := 3
      conditionCode := tdTobeProcessed } := rfl

end Stages

section Controller

/-- What the controller writes back to an endpoint. -/
structure EdWriteBack where
  halted : ℕ
  toggleCarry : ℕ
  tdHeadPointer : ℕ

/-- What the controller writes back to a transfer descriptor. -/
structure TdWriteBack where
  dataToggle : ℕ
  errorCount : ℕ
  conditionCode : ℕ
  currBufferPointer : ℕ
  nextTD : ℕ

def EdDescriptor.writeBack (ed : EdDescriptor) (w : EdWriteBack) : EdDescriptor :=
  { ed with halted := w.halted, toggleCarry := w.toggleCarry, tdHeadPointer := w.tdHeadPointer }

def TdDescriptor.writeBack (td : TdDescriptor) (w : TdWriteBack) : TdDescriptor :=
  { td with
    dataToggle := w.dataToggle
    errorCount := w.errorCount
    conditionCode := w.conditionCode
    currBufferPointer := w.currBufferPointer
    nextTD := w.nextTD }

end Controller

end Edk2Rk3576.Ohci
