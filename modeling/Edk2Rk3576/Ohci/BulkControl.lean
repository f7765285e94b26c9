import Edk2Rk3576.Ohci.Interrupts

/-!
# Bulk and control transfers

`OhciBulkTransfer` and `OhciControlTransfer` of `Ohci.c`. Each puts an endpoint of its own at the head
of its list, enables the list, and looks at the descriptors until the controller is through with them
or the time is up. What the controller does from one look to the next is an input. A register write
of `MmioWrite32` comes back with the 32 bits that are written, which are no error.
-/

namespace Edk2Rk3576.Ohci

open Cells

section Lists

/-- `DESCRIPTOR_LIST_TYPE`, for the lists that have a head register. -/
inductive DescriptorListType
  | control
  | bulk
  deriving DecidableEq

def OhciDev.memoryPointer (dev : OhciDev) : DescriptorListType → ℕ
  | .control => dev.controlHead
  | .bulk => dev.bulkHead

def OhciDev.setMemoryPointer (dev : OhciDev) (value : ℕ) : DescriptorListType → OhciDev
  | .control => { dev with controlHead := toUint32 value }
  | .bulk => { dev with bulkHead := toUint32 value }

/-- `CONTROL_ENABLE` and `BULK_ENABLE`. -/
def OhciDev.enabled (dev : OhciDev) : DescriptorListType → Bool
  | .control => dev.controlEnable
  | .bulk => dev.bulkEnable

def OhciDev.setEnable (dev : OhciDev) (value : Bool) : DescriptorListType → OhciDev
  | .control => { dev with controlEnable := value }
  | .bulk => { dev with bulkEnable := value }

/-- The head of the list comes out. -/
def ohciAttachEDToList (listType : DescriptorListType) (ed : ℕ) (dev : OhciDev) : ℕ × OhciDev :=
  if dev.memoryPointer listType = 0 then (ed, dev.setMemoryPointer ed listType)
  else (dev.memoryPointer listType, ohciAttachED (dev.memoryPointer listType) ed dev)

/-- An endpoint that is skipped, and taken off the list. -/
def ohciDetachED (listType : DescriptorListType) (headEd ed : ℕ) (dev : OhciDev) : OhciDev :=
  let dev := dev.setEd ed (ohciSetEDField (dev.ed ed) edSkip 1)
  if headEd = ed then dev.setMemoryPointer 0 listType
  else dev.setNextED headEd (dev.nextED ed)

end Lists

section Polls

/-- What the controller writes to memory. -/
inductive ControllerWrite
  | ed (p : ℕ) (w : EdWriteBack)
  | td (p : ℕ) (w : TdWriteBack)

def OhciDev.write (dev : OhciDev) : ControllerWrite → OhciDev
  | .ed p w => dev.setEd p ((dev.ed p).writeBack w)
  | .td p w => dev.setTd p ((dev.td p).writeBack w)

/-- What the controller has done when the driver looks, and whether the list is still filled. -/
structure ControllerPoll where
  writes : List ControllerWrite
  filled : Bool

/-- `OHCI_ED_RESULT`. -/
structure OhciEdResult where
  errorCode : ℕ
  nextToggle : ℕ
  deriving DecidableEq

def checkEDStatus (dev : OhciDev) (ed : ℕ) :
    (fuel headTd nextToggle : ℕ) → Except OhciHalt OhciEdResult
  | 0, _, _ => .error .endless
  | fuel + 1, headTd, nextToggle =>
    if headTd = 0 then
      if (dev.ed ed).tdHeadPointer * 2 ^ 4 % 2 ^ 32 ≠ (dev.ed ed).tdTailPointer then
        .ok ⟨tdTobeProcessed, nextToggle⟩
      else .ok ⟨tdNoError, nextToggle⟩
    else if (dev.td headTd).nextTDPointer = 0 then .ok ⟨tdNoError, nextToggle⟩
    else if (dev.td headTd).conditionCode ≠ 0 then .ok ⟨(dev.td headTd).conditionCode, nextToggle⟩
    else
      checkEDStatus dev ed fuel (dev.td headTd).nextTDPointer
        (((dev.td headTd).dataToggle &&& 1) ^^^ 1)

def checkIfDone (filled : Bool) (dev : OhciDev) (ed headTd nextToggle : ℕ) :
    Except OhciHalt (EfiStatus × OhciEdResult) :=
  if filled then .ok (efiNotReady, ⟨tdTobeProcessed, nextToggle⟩)
  else
    checkEDStatus dev ed chainFuel headTd nextToggle >>= fun r =>
      .ok (if r.errorCode = tdNoError then efiSuccess
        else if r.errorCode = tdTobeProcessed then efiNotReady else efiDeviceError, r)

/-- The first look, and `left` more as long as the transfer is not through. -/
def ohciPoll (ed headTd : ℕ) : (left : ℕ) → (polls : ℕ → ControllerPoll) → (nextToggle : ℕ) →
    OhciDev → Except OhciHalt (EfiStatus × OhciEdResult × OhciDev)
  | 0, polls, nextToggle, dev =>
    let dev := (polls 0).writes.foldl OhciDev.write dev
    checkIfDone (polls 0).filled dev ed headTd nextToggle >>= fun r => .ok (r.1, r.2, dev)
  | left + 1, polls, nextToggle, dev =>
    let dev := (polls 0).writes.foldl OhciDev.write dev
    checkIfDone (polls 0).filled dev ed headTd nextToggle >>= fun r =>
      if r.1 = efiNotReady then
        ohciPoll ed headTd left (fun i => polls (i + 1)) r.2.nextToggle dev
      else .ok (r.1, r.2, dev)

/-- The descriptors are hooked on the endpoint, the list is enabled, and the driver waits. -/
def ohciRunList (listType : DescriptorListType) (ed headTd emptyTd timeOut nextToggle : ℕ)
    (polls : ℕ → ControllerPoll) (dev : OhciDev) :
    Except OhciHalt (EfiStatus × OhciEdResult × OhciDev) :=
  ohciAttachTDListToED ed headTd
    (dev.setEd ed { dev.ed ed with tdTailPointer := toUint32 emptyTd }) >>= fun dev =>
  ohciPoll ed headTd (timeOut + 1) polls nextToggle
    ((dev.setEd ed (ohciSetEDField (dev.ed ed) edSkip 0)).setEnable true listType)

end Polls

section Transfers

variable (D : DmaLib)

/-- What `DmaMap` answers. -/
structure MapAnswer where
  status : EfiStatus
  length : ℕ
  phyAddr : ℕ
  mapping : ℕ
  deriving DecidableEq

/-- `DmaUnmap`, but for a null mapping. -/
def OhciDev.unmap (dev : OhciDev) (mapping : ℕ) : OhciDev :=
  if mapping ≠ 0 then dev.setDma (dev.mem.dma.unmap mapping) else dev

/-- What a transfer comes to: its status, what it writes to its arguments, and the device. The result
is not always written. -/
structure TransferOutcome where
  status : EfiStatus
  dataLength : ℕ
  dataToggle : ℕ
  transferResult : Option ℕ
  dev : OhciDev

structure BulkRequest where
  /-- One of the pointers is null. -/
  null : Bool
  deviceAddress : ℕ
  endPointAddress : ℕ
  maximumPacketLength : ℕ
  dataLength : ℕ
  dataToggle : ℕ
  timeOut : ℕ
  deriving DecidableEq

/-- The end of a transfer: its descriptors, its mapping and its endpoint are given back. -/
def ohciFreeTransfer (ed headTd mapping : ℕ) (dev : OhciDev) : Except OhciHalt OhciDev :=
  ohciFreeTds chainFuel headTd dev >>= fun dev => usbHcFree ed sizeofEd (dev.unmap mapping)

/-- `FREE_OHCI_TDBUFF` of `OhciBulkTransfer`. -/
def ohciEndBulk (headEd ed headTd mapping : ℕ) (dev : OhciDev) : Except OhciHalt OhciDev :=
  ohciFreeTransfer ed headTd mapping (ohciDetachED .bulk headEd ed dev)

/-- The stages of a bulk transfer. The toggle of the next transfer is that behind all of the
descriptors, unless the pipe broke. -/
def ohciBulkStages (req : BulkRequest) (answer : MapAnswer) (polls : ℕ → ControllerPoll)
    (headEd ed : ℕ) (dev : OhciDev) : Except OhciHalt TransferOutcome :=
  let dataPidDir := if req.endPointAddress &&& 0x80 ≠ 0 then tdInPid else tdOutPid
  ohciDataStage D dataPidDir req.maximumPacketLength (answer.length + 1) 0 req.dataToggle
    answer.phyAddr answer.length dev >>= fun r =>
  if r.1 then
    ohciAppendTD D r.2.1 emptyTd r.2.2.2 >>= fun s =>
    if s.1 = 0 then
      ohciEndBulk headEd ed r.2.1 answer.mapping s.2 >>= fun dev =>
        .ok ⟨efiOutOfResources, req.dataLength, r.2.2.1, none, dev⟩
    else
      ohciRunList .bulk ed r.2.1 s.1 req.timeOut req.dataToggle polls s.2 >>= fun p =>
      ohciEndBulk headEd ed r.2.1 answer.mapping p.2.2 >>= fun dev =>
        .ok {
          status := p.1
          dataLength := if p.2.1.errorCode ≠ tdNoError then 0 else req.dataLength
          dataToggle :=
            if p.2.1.errorCode ≠ tdNoError ∧ p.2.1.errorCode ≠ tdTobeProcessed then p.2.1.nextToggle
            else r.2.2.1
          transferResult := some (convertErrorCode p.2.1.errorCode)
          dev := dev }
  else
    ohciEndBulk headEd ed r.2.1 answer.mapping r.2.2.2 >>= fun dev =>
      .ok ⟨efiOutOfResources, req.dataLength, r.2.2.1, none, dev⟩

/-- The packet lengths of the endpoints that are not for interrupts. -/
def packetLengths : List ℕ := [8, 16, 32, 64]

def ohciBulkTransfer (req : BulkRequest) (answer : MapAnswer) (polls : ℕ → ControllerPoll)
    (dev : OhciDev) : Except OhciHalt TransferOutcome :=
  if req.null ∨ req.dataLength = 0 ∨ (req.dataToggle ≠ 0 ∧ req.dataToggle ≠ 1) ∨
      req.maximumPacketLength ∉ packetLengths then
    .ok ⟨efiInvalidParameter, req.dataLength, req.dataToggle, none, dev⟩
  else
    ohciCreateED D ((dev.setEnable false .bulk).setMemoryPointer 0 .bulk) >>= fun r =>
    if r.1 = 0 then .ok ⟨efiOutOfResources, req.dataLength, req.dataToggle, none, r.2⟩
    else
      let attached := ohciAttachEDToList .bulk r.1
        (r.2.setEd r.1 (edStage req.deviceAddress (req.endPointAddress &&& 0xF) hiSpeed
          req.maximumPacketLength (r.2.ed r.1)))
      if efiError answer.status then
        usbHcFree r.1 sizeofEd attached.2 >>= fun dev =>
          .ok ⟨answer.status, req.dataLength, req.dataToggle, none, dev⟩
      else
        ohciBulkStages D req answer polls attached.1 r.1
          (attached.2.setDma (attached.2.mem.dma.map answer.mapping))

/-- `EFI_USB_DATA_DIRECTION`, with what is not one. -/
inductive UsbDataDirection
  | dataIn
  | dataOut
  | noData
  | other
  deriving DecidableEq

structure ControlRequest where
  /-- One of the pointers but `Data` is null. -/
  null : Bool
  dataNull : Bool
  deviceAddress : ℕ
  isSlowDevice : Bool
  maximumPacketLength : ℕ
  transferDirection : UsbDataDirection
  dataLength : ℕ
  timeOut : ℕ
  deriving DecidableEq

def ControlRequest.dataPidDir (req : ControlRequest) : ℕ :=
  if req.transferDirection = .dataIn then tdInPid else tdOutPid

def ControlRequest.statusPidDir (req : ControlRequest) : ℕ :=
  if req.transferDirection = .dataIn then tdOutPid else tdInPid

/-- `UNMAP_DATA_BUFF` of `OhciControlTransfer`. -/
def ohciEndControl (headEd ed headTd reqMapping dataMapping : ℕ) (dev : OhciDev) :
    Except OhciHalt OhciDev :=
  ohciFreeTransfer ed headTd reqMapping ((ohciDetachED .control headEd ed dev).unmap dataMapping)

/-- The stages of a control transfer behind the setup stage. -/
def ohciControlStages (req : ControlRequest) (reqMapping : ℕ) (length phyAddr mapping : ℕ)
    (polls : ℕ → ControllerPoll) (headEd ed headTd : ℕ) (dev : OhciDev) :
    Except OhciHalt TransferOutcome :=
  let failed dev := ohciEndControl headEd ed headTd reqMapping mapping dev >>= fun dev =>
    .ok ⟨efiOutOfResources, req.dataLength, 0, none, dev⟩
  ohciDataStage D req.dataPidDir req.maximumPacketLength (length + 1) headTd 1 phyAddr length dev >>=
    fun r =>
  if r.1 then
    ohciAppendTD D headTd (statusTd req.statusPidDir) r.2.2.2 >>= fun s =>
    if s.1 = 0 then failed s.2
    else
      ohciAppendTD D headTd emptyTd s.2 >>= fun t =>
      if t.1 = 0 then failed t.2
      else
        ohciRunList .control ed headTd t.1 req.timeOut 0 polls t.2 >>= fun p =>
        ohciEndControl headEd ed headTd reqMapping mapping p.2.2 >>= fun dev =>
          .ok {
            status := p.1
            dataLength := if p.2.1.errorCode ≠ tdNoError then 0 else req.dataLength
            dataToggle := 0
            transferResult := some (convertErrorCode p.2.1.errorCode)
            dev := dev }
  else failed r.2.2.2

/-- The setup stage of a control transfer, and the mapping of its data. An endpoint that is freed
early stays at the head of the list. -/
def ohciControlSetup (req : ControlRequest) (reqAnswer dataAnswer : MapAnswer)
    (polls : ℕ → ControllerPoll) (headEd ed : ℕ) (dev : OhciDev) :
    Except OhciHalt TransferOutcome :=
  ohciCreateTD D dev >>= fun r =>
  if r.1 = 0 then
    usbHcFree ed sizeofEd (r.2.unmap reqAnswer.mapping) >>= fun dev =>
      .ok ⟨efiOutOfResources, req.dataLength, 0, none, dev⟩
  else
    let dev := r.2.setTd r.1 (setupTd reqAnswer.phyAddr)
    if req.dataNull ∨ req.dataLength = 0 then
      ohciControlStages D req reqAnswer.mapping req.dataLength 0 0 polls headEd ed r.1 dev
    else if efiError dataAnswer.status then
      ohciFreeTransfer ed r.1 reqAnswer.mapping dev >>= fun dev =>
        .ok ⟨dataAnswer.status, req.dataLength, 0, none, dev⟩
    else
      ohciControlStages D req reqAnswer.mapping dataAnswer.length dataAnswer.phyAddr
        dataAnswer.mapping polls headEd ed r.1
        (dev.setDma (dev.mem.dma.map dataAnswer.mapping))

def ControlRequest.invalid (req : ControlRequest) : Bool :=
  req.transferDirection = .other ∨ req.null ∨
    (req.transferDirection = .noData ∧ (req.dataLength ≠ 0 ∨ ¬ req.dataNull)) ∨
    (req.transferDirection ≠ .noData ∧ (req.dataLength = 0 ∨ req.dataNull)) ∨
    (req.isSlowDevice ∧ req.maximumPacketLength ≠ 8) ∨
    req.maximumPacketLength ∉ packetLengths ∨ maxBytesPerTd < req.dataLength

def ohciControlTransfer (req : ControlRequest) (reqAnswer dataAnswer : MapAnswer)
    (polls : ℕ → ControllerPoll) (dev : OhciDev) : Except OhciHalt TransferOutcome :=
  if req.invalid then .ok ⟨efiInvalidParameter, req.dataLength, 0, none, dev⟩
  else
    ohciCreateED D ((dev.setEnable false .control).setMemoryPointer 0 .control) >>= fun r =>
    if r.1 = 0 then .ok ⟨efiOutOfResources, req.dataLength, 0, none, r.2⟩
    else
      let speed := if req.isSlowDevice then 1 else 0
      let attached := ohciAttachEDToList .control r.1
        (r.2.setEd r.1 (edStage req.deviceAddress 0 speed req.maximumPacketLength (r.2.ed r.1)))
      if efiError reqAnswer.status then
        usbHcFree r.1 sizeofEd attached.2 >>= fun dev =>
          .ok ⟨reqAnswer.status, req.dataLength, 0, none, dev⟩
      else
        ohciControlSetup D req reqAnswer dataAnswer polls attached.1 r.1
          (attached.2.setDma (attached.2.mem.dma.map reqAnswer.mapping))

end Transfers

end Edk2Rk3576.Ohci
