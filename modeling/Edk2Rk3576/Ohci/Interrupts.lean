import Edk2Rk3576.Ohci.Device

/-!
# Interrupt transfers

`OhciInterruptTransfer` and what is around it in `Ohci.c` and `OhciSched.c`: a new transfer has an
endpoint attached to a list of its polling interval, and a context for the timer; to cancel it takes
both away again. How the DMA library and the pool of the firmware answer is an input.
-/

namespace Edk2Rk3576.Ohci

open Cells

/-- `MAX_BYTES_PER_TD`. -/
def maxBytesPerTd : ℕ := 0x1000

structure InterruptRequest where
  deviceAddress : ℕ
  endPointAddress : ℕ
  isSlowDevice : Bool
  maximumPacketLength : ℕ
  dataToggle : ℕ
  pollingInterval : ℕ
  dataLength : ℕ
  deriving DecidableEq

/-- The context of a transfer. -/
def InterruptRequest.context (req : InterruptRequest) (ed headTd : ℕ) (isPeriodic : Bool)
    (ucBuffer mapping : ℕ) : InterruptContextEntry where
  deviceAddress := req.deviceAddress
  endPointAddress := req.endPointAddress
  ed := ed
  dataTd := headTd
  isSlowDevice := req.isSlowDevice
  maximumPacketLength := req.maximumPacketLength % 2 ^ 8
  pollingInterval := req.pollingInterval
  isPeriodic := isPeriodic
  dataLength := req.dataLength
  ucBuffer := ucBuffer
  ucBufferMapping := mapping

/-- What a request meets: `DmaAllocateBuffer`, `DmaMap` and `AllocatePool` for the context. -/
structure InterruptAnswer where
  allocateStatus : EfiStatus
  bufHost : ℕ
  mapStatus : EfiStatus
  mapLength : ℕ
  mapPyhAddr : ℕ
  mapping : ℕ
  entryNull : Bool
  deriving DecidableEq

section Contexts

def OhciDev.setDma (dev : OhciDev) (dma : DmaState) : OhciDev :=
  { dev with mem := { dev.mem with dma := dma } }

/-- A new entry goes behind those there are. -/
def ohciAddInterruptContextEntry (entry : InterruptContextEntry) (dev : OhciDev) : OhciDev :=
  { dev with interruptContextList := dev.interruptContextList ++ [entry] }

def ohciFreeInterruptContextEntry (entry : InterruptContextEntry) (dev : OhciDev) :
    Except OhciHalt OhciDev :=
  let dev :=
    if entry.ucBufferMapping ≠ 0 then dev.setDma (dev.mem.dma.unmap entry.ucBufferMapping) else dev
  let dev :=
    if entry.ucBuffer ≠ 0 then
      dev.setDma (dev.mem.dma.freeBuffer (efiSizeToPages entry.dataLength) entry.ucBuffer)
    else dev
  ohciFreeTds chainFuel entry.dataTd dev >>= fun dev => .ok (dev.setDma dev.mem.dma.freePool)

/-- The entries of an endpoint are freed, the first ones and those behind others alike; what is left
of the list and the last toggle of a freed entry come out. -/
def ohciFreeContexts (deviceAddress endPointAddress : ℕ) :
    List InterruptContextEntry → (dataToggle : ℕ) → OhciDev →
      Except OhciHalt (List InterruptContextEntry × ℕ × OhciDev)
  | [], dataToggle, dev => .ok ([], dataToggle, dev)
  | entry :: entries, dataToggle, dev =>
    if entry.deviceAddress = deviceAddress ∧ entry.endPointAddress = endPointAddress then
      if entry.dataTd = 0 then .error .null
      else
        let dataToggle := (dev.td entry.dataTd).dataToggle &&& 1
        ohciFreeInterruptContextEntry entry dev >>= fun dev =>
          ohciFreeContexts deviceAddress endPointAddress entries dataToggle dev
    else
      ohciFreeContexts deviceAddress endPointAddress entries dataToggle dev >>= fun r =>
        .ok (entry :: r.1, r.2)

def ohciFreeInterruptContext (deviceAddress endPointAddress dataToggle : ℕ) (dev : OhciDev) :
    Except OhciHalt (ℕ × OhciDev) :=
  ohciFreeContexts deviceAddress endPointAddress dev.interruptContextList dataToggle dev >>= fun r =>
    .ok (r.2.1, { r.2.2 with interruptContextList := r.1 })

end Contexts

section Submit

variable (D : DmaLib)

/-- The depth of the list for a polling interval, and the frames from one poll to the next. -/
def ohciDepth (pollingInterval : ℕ) : (depth index : ℕ) → ℕ × ℕ
  | 0, index => (0, index)
  | depth + 1, index =>
    if index * 2 ≤ pollingInterval then ohciDepth pollingInterval depth (index * 2)
    else (depth + 1, index)

/-- The endpoint that leads on to `ed`. -/
def ohciFindBefore (dev : OhciDev) (ed : ℕ) : (fuel headEd : ℕ) → Except OhciHalt ℕ
  | 0, _ => .error .endless
  | fuel + 1, headEd =>
    if headEd = 0 then .error .null
    else if dev.nextED headEd = toUint32 ed then .ok headEd
    else ohciFindBefore dev ed fuel (dev.nextED headEd)

/-- `FREE_OHCI_TDBUFF` of `OhciInterruptTransfer`. -/
def ohciUndoInterrupt (headEd ed headTd mapping : ℕ) (dev : OhciDev) : Except OhciHalt OhciDev :=
  ohciFreeTds chainFuel headTd dev >>= fun dev =>
    (if headEd ≠ ed ∧ headEd ≠ 0 ∧ ed ≠ 0 then
      ohciFindBefore dev ed chainFuel headEd >>= fun before =>
        usbHcFree ed sizeofEd (dev.setNextED before (dev.nextED ed))
    else .ok dev) >>= fun dev => .ok (dev.setDma (dev.mem.dma.unmap mapping))

/-- What a transfer comes to: its status, the next toggle, and its endpoint and descriptors. -/
structure InterruptResult where
  status : EfiStatus
  dataToggle : ℕ
  ed : ℕ
  headTd : ℕ
  dev : OhciDev

/-- The end of a transfer whose descriptors are there. -/
def ohciStartInterrupt (req : InterruptRequest) (answer : InterruptAnswer)
    (ucBuffer : ℕ) (callBack isPeriodic : Bool) (headEd ed headTd emptTd toggle : ℕ)
    (dev : OhciDev) : Except OhciHalt InterruptResult :=
  ohciAttachTDListToED ed headTd
    (dev.setEd ed { dev.ed ed with tdTailPointer := toUint32 emptTd }) >>= fun dev =>
  if callBack ∧ answer.entryNull then
    ohciUndoInterrupt headEd ed headTd answer.mapping dev >>= fun dev =>
      .ok ⟨answer.mapStatus, toggle, ed, headTd, dev⟩
  else
    let dev :=
      if callBack then
        ohciAddInterruptContextEntry (req.context ed headTd isPeriodic ucBuffer answer.mapping)
          (dev.setDma dev.mem.dma.allocateZeroPool)
      else dev
    let dev := dev.setEd ed (ohciSetEDField (dev.ed ed) edSkip 0)
    .ok ⟨efiSuccess, toggle, ed, headTd, { dev with periodicEnable := true }⟩

/-- The data stage and the empty descriptor of a transfer. -/
def ohciInterruptStages (req : InterruptRequest) (answer : InterruptAnswer)
    (ucBuffer : ℕ) (callBack isPeriodic : Bool) (headEd ed : ℕ) (dev : OhciDev) :
    Except OhciHalt InterruptResult :=
  let dataPidDir := if req.endPointAddress &&& 0x80 ≠ 0 then tdInPid else tdOutPid
  ohciDataStage D dataPidDir (req.maximumPacketLength % 2 ^ 8) (answer.mapLength + 1) 0
    req.dataToggle answer.mapPyhAddr answer.mapLength dev >>= fun r =>
  if r.1 then
    ohciAppendTD D r.2.1 emptyTd r.2.2.2 >>= fun s =>
    if s.1 = 0 then
      ohciUndoInterrupt headEd ed r.2.1 answer.mapping s.2 >>= fun dev =>
        .ok ⟨efiOutOfResources, r.2.2.1, ed, r.2.1, dev⟩
    else
      ohciStartInterrupt req answer ucBuffer callBack isPeriodic headEd ed r.2.1 s.1 r.2.2.1 s.2
  else
    ohciUndoInterrupt headEd ed r.2.1 answer.mapping r.2.2.2 >>= fun dev =>
      .ok ⟨efiOutOfResources, r.2.2.1, ed, r.2.1, dev⟩

/-- `OhciInterruptTransfer` for a new transfer. -/
def ohciInterruptSubmit (req : InterruptRequest) (answer : InterruptAnswer) (ucBuffer : ℕ)
    (callBack isPeriodic : Bool) (dev : OhciDev) : Except OhciHalt InterruptResult :=
  if efiError answer.mapStatus then .ok ⟨answer.mapStatus, req.dataToggle, 0, 0, dev⟩
  else
    let dev := dev.setDma (dev.mem.dma.map answer.mapping)
    let edDir := if req.endPointAddress &&& 0x80 ≠ 0 then edInDir else edOutDir
    let endPointNum := req.endPointAddress &&& 0xF
    ohciFindMinInterruptEDList dev (ohciDepth req.pollingInterval 5 1).1 >>= fun headEd =>
    ohciFindWorkingEd dev req.deviceAddress endPointNum edDir chainFuel headEd >>= fun ed =>
    if ed ≠ 0 then
      ohciInterruptStages D req answer ucBuffer callBack isPeriodic headEd ed
        (dev.setEd ed (ohciSetEDField (dev.ed ed) edSkip 1))
    else
      ohciCreateED D dev >>= fun r =>
      if r.1 = 0 then
        .ok ⟨efiOutOfResources, req.dataToggle, 0, 0,
          r.2.setDma (r.2.mem.dma.unmap answer.mapping)⟩
      else
        let speed := if req.isSlowDevice then 1 else 0
        let dev := r.2.setEd r.1 (interruptEdStage req.deviceAddress endPointNum speed
          (req.maximumPacketLength % 2 ^ 8) (r.2.ed r.1))
        ohciInterruptStages D req answer ucBuffer callBack isPeriodic headEd r.1
          (ohciAttachED headEd r.1 dev)

/-- `OhciInterruptTransfer` to cancel a transfer. -/
def ohciInterruptCancel (deviceAddress endPointAddress dataToggle : ℕ) (dev : OhciDev) :
    Except OhciHalt InterruptResult :=
  ohciFreeInterruptContext deviceAddress endPointAddress dataToggle
    { dev with periodicEnable := false } >>= fun r =>
  ohciFreeInterruptEdByAddr deviceAddress (endPointAddress &&& 0xF) r.2 >>= fun dev =>
    .ok ⟨efiSuccess, r.1, 0, 0, { dev with periodicEnable := true }⟩

def ohciInterruptTransfer (req : InterruptRequest) (answer : InterruptAnswer)
    (isNewTransfer : Bool) (ucBuffer : ℕ) (callBack isPeriodic : Bool) (dev : OhciDev) :
    Except OhciHalt InterruptResult :=
  if maxBytesPerTd < req.dataLength then .ok ⟨efiInvalidParameter, req.dataToggle, 0, 0, dev⟩
  else if isNewTransfer then ohciInterruptSubmit D req answer ucBuffer callBack isPeriodic dev
  else ohciInterruptCancel req.deviceAddress req.endPointAddress req.dataToggle dev

/-- `OhciAsyncInterruptTransfer`: the buffer is given back if the transfer fails. -/
def ohciAsyncInterruptTransfer (req : InterruptRequest) (answer : InterruptAnswer)
    (isNewTransfer callBack : Bool) (dev : OhciDev) : Except OhciHalt InterruptResult :=
  if req.endPointAddress &&& 0x80 = 0 ∨
      (isNewTransfer ∧ (req.dataLength = 0 ∨ (req.dataToggle ≠ 0 ∧ req.dataToggle ≠ 1) ∨
        req.pollingInterval < 1 ∨ 255 < req.pollingInterval)) then
    .ok ⟨efiInvalidParameter, req.dataToggle, 0, 0, dev⟩
  else if isNewTransfer then
    if efiError answer.allocateStatus then .ok ⟨efiOutOfResources, req.dataToggle, 0, 0, dev⟩
    else
      let pages := efiSizeToPages req.dataLength
      ohciInterruptTransfer D req answer true answer.bufHost callBack true
        (dev.setDma (dev.mem.dma.allocateBuffer pages answer.bufHost)) >>= fun r =>
      if answer.bufHost ≠ 0 ∧ efiError r.status then
        .ok { r with
          dev := r.dev.setDma (r.dev.mem.dma.freeBuffer pages answer.bufHost) }
      else .ok r
  else ohciInterruptTransfer D req answer false 0 callBack true dev

end Submit

section Periodic

def efiUsbNoError : ℕ := 0x00
def efiUsbErrNotExecute : ℕ := 0x01
def efiUsbErrStall : ℕ := 0x02
def efiUsbErrBuffer : ℕ := 0x04
def efiUsbErrCrc : ℕ := 0x20
def efiUsbErrTimeout : ℕ := 0x40
def efiUsbErrBitstuff : ℕ := 0x80
def efiUsbErrSystem : ℕ := 0x100

/-- `ConvertErrorCode`, by the condition codes of `Descriptor.h`. -/
def convertErrorCode : ℕ → ℕ
  | 0x00 => efiUsbNoError
  | 0x0E | 0x0F => efiUsbErrNotExecute
  | 0x04 => efiUsbErrStall
  | 0x0C | 0x0D => efiUsbErrBuffer
  | 0x01 => efiUsbErrCrc
  | 0x05 => efiUsbErrTimeout
  | 0x02 => efiUsbErrBitstuff
  | _ => efiUsbErrSystem

/-- The result of a list of descriptors is the first one that is not zero. -/
def ohciCheckTDsResults (dev : OhciDev) : (fuel td : ℕ) → Except OhciHalt ℕ
  | 0, _ => .error .endless
  | fuel + 1, td =>
    if td = 0 then .ok efiUsbNoError
    else if convertErrorCode (dev.td td).conditionCode ≠ 0 then
      .ok (convertErrorCode (dev.td td).conditionCode)
    else ohciCheckTDsResults dev fuel (dev.td td).nextTDPointer

/-- What the callback of a context is called with. -/
structure InterruptReport where
  entry : InterruptContextEntry
  data : ℕ
  dataLength : ℕ
  result : ℕ
  deriving DecidableEq

def ohciInvokeInterruptCallBack (dev : OhciDev) (entry : InterruptContextEntry) (result : ℕ) :
    InterruptReport :=
  if result ≠ 0 then ⟨entry, 0, 0, result⟩
  else ⟨entry, (dev.td entry.dataTd).dataBuffer, (dev.td entry.dataTd).actualSendLength, result⟩

/-- A walk over a list of descriptors with a toggle that flips, and the last one treated apart. -/
def ohciUpdateTds (update : ℕ → TdDescriptor → TdDescriptor) (last : TdDescriptor → TdDescriptor) :
    (fuel td toggle : ℕ) → OhciDev → Except OhciHalt OhciDev
  | 0, _, _, _ => .error .endless
  | fuel + 1, td, toggle, dev =>
    if td = 0 then .ok dev
    else if (dev.td td).nextTDPointer = 0 then .ok (dev.setTd td (last (dev.td td)))
    else
      ohciUpdateTds update last fuel (dev.td td).nextTDPointer (toggle ^^^ 1)
        (dev.setTd td (update toggle (dev.td td)))

/-- The toggles of a transfer that is submitted again. -/
def toggleTd (toggle : ℕ) (td : TdDescriptor) : TdDescriptor := ohciSetTDField td tdDtToggle toggle

def toggleLastTd (td : TdDescriptor) : TdDescriptor := { td with dataToggle := 0 }

def ohciToggleTds (td toggle : ℕ) (dev : OhciDev) : Except OhciHalt OhciDev :=
  ohciUpdateTds toggleTd toggleLastTd chainFuel td toggle dev

/-- What the controller has written to the descriptors is taken back. -/
def renewTd (_ : ℕ) (td : TdDescriptor) : TdDescriptor :=
  let td := ohciSetTDField (ohciSetTDField td tdErrorCnt 0) tdCondCode tdTobeProcessed
  { td with nextTD := td.nextTDPointer, currBufferPointer := td.dataBuffer }

def renewLastTd (td : TdDescriptor) : TdDescriptor :=
  ohciSetTDField td (tdErrorCnt ||| tdCondCode ||| tdCurrBufferPtr ||| tdNextPtr) 0

def ohciRenewTds (td : ℕ) (dev : OhciDev) : Except OhciHalt OhciDev :=
  ohciUpdateTds renewTd renewLastTd chainFuel td 0 dev

/-- An endpoint that is given its descriptors again. -/
def activateEd (headTd : ℕ) (ed : EdDescriptor) : EdDescriptor :=
  let ed := { ed with tdHeadPointer := headTd / 2 ^ 4 % 2 ^ 28 }
  let ed := ohciSetEDField ed (edHalted ||| edDttoggle) 0
  { ed with skip := 0 }

/-- A periodic transfer that is done without an error is submitted again. -/
def ohciResubmit (entry : InterruptContextEntry) (dev : OhciDev) : Except OhciHalt OhciDev :=
  let dev :=
    if entry.dataTd ≠ 0 then dev.setEd entry.ed { dev.ed entry.ed with skip := 1 } else dev
  ohciToggleTds entry.dataTd (dev.ed entry.ed).toggleCarry dev >>= fun dev =>
  ohciRenewTds entry.dataTd dev >>= fun dev =>
  if entry.dataTd ≠ 0 then .ok (dev.setEd entry.ed (activateEd entry.dataTd (dev.ed entry.ed)))
  else .ok dev

/-- The pass of `OhciHouseKeeper` over the contexts, which are all periodic, with callbacks that do
not call the driver: what they are called with, and whether the task priority level is restored. -/
def ohciHouseKeep : List InterruptContextEntry → OhciDev →
    Except OhciHalt (List InterruptReport × Bool × OhciDev)
  | [], dev => .ok ([], true, dev)
  | entry :: entries, dev =>
    ohciCheckTDsResults dev chainFuel entry.dataTd >>= fun result =>
    if result &&& efiUsbErrStall = efiUsbErrStall ∨
        result &&& efiUsbErrNotExecute = efiUsbErrNotExecute then ohciHouseKeep entries dev
    else
      let report := ohciInvokeInterruptCallBack dev entry result
      if result = efiUsbNoError ∧ entry.ed ≠ 0 then
        ohciResubmit entry dev >>= fun dev =>
        ohciHouseKeep entries dev >>= fun r => .ok (report :: r.1, r.2)
      else .ok ([report], false, dev)

def ohciHouseKeeper (dev : OhciDev) : Except OhciHalt (List InterruptReport × Bool × OhciDev) :=
  ohciHouseKeep dev.interruptContextList dev

end Periodic

end Edk2Rk3576.Ohci
