import Edk2Rk3576.Eqos.Model

/-!
# The simple network protocol

The calls of `SimpleNetwork.c` that concern the rings and the receive filters, and the state
`EqosDriverBindingStart` leaves for them.
-/

namespace Edk2Rk3576

open Cells

def EqosState.setState (e : EqosState) (state : EfiSimpleNetworkState) : EqosState :=
  { e with snpMode := { e.snpMode with state := state } }

/-- What `EqosDriverBindingStart` installs: the private data come zeroed from the pool, the
descriptors are cleared, and the rest is as it was. -/
def eqosDriverBindingStart (rxBuffersAddr : ℕ) (rxBuffers : Cells UInt8) (hashTable : Cells UInt32)
    (packetFilter : UInt32) : EqosState where
  snpMode :=
    { state := .stopped
      mediaHeaderSize := etherHeadSize
      receiveFilterMask := receiveUnicast ||| receiveMulticast ||| receiveBroadcast |||
        receivePromiscuous ||| receivePromiscuousMulticast
      receiveFilterSetting := receiveUnicast ||| receiveBroadcast
      maxMCastFilterCount := maxMCastFilterCnt
      mCastFilterCount := 0
      mCastFilter := fun _ _ => 0
      mediaPresent := false }
  txDescs := fun _ => ⟨0, 0, 0, 0⟩
  txBuffers := fun _ => 0
  txBuffersMap := fun _ => none
  txQueued := 0
  txNext := 0
  txCurrent := 0
  rxDescs := fun _ => ⟨0, 0, 0, 0⟩
  rxBuffersAddr := rxBuffersAddr
  rxBuffers := rxBuffers
  rxBuffersMap := fun _ => none
  rxCurrent := 0
  hashTable := hashTable
  packetFilter := packetFilter
  txDma := 0
  rxDma := 0

section State

def eqosSnpStart (e : EqosState) : EfiStatus × EqosState :=
  if e.snpMode.state = .started then (efiAlreadyStarted, e)
  else if e.snpMode.state ≠ .stopped then (efiDeviceError, e)
  else (efiSuccess, e.setState .started)

/-- The check most calls start with: an interface that is not in the state they need is refused. -/
def eqosStateError (needed : EfiSimpleNetworkState) (e : EqosState) : Option EfiStatus :=
  if e.snpMode.state = .stopped then some efiNotStarted
  else if e.snpMode.state ≠ needed then some efiDeviceError
  else none

def eqosSnpStop (e : EqosState) : EfiStatus × EqosState :=
  match eqosStateError .started e with
  | some status => (status, e)
  | none => (efiSuccess, e.setState .stopped)

def eqosSnpInitialize (answer : StartAnswer) (e : EqosState) :
    Except EqosHalt (EfiStatus × EqosState) :=
  match eqosStateError .started e with
  | some status => .ok (status, e)
  | none =>
    eqosStart answer e >>= fun r =>
      if efiError r.1 then .ok r else .ok (efiSuccess, r.2.setState .initialized)

/-- `EqosSnpReset`: a restart that fails leaves the interface initialized. -/
def eqosSnpReset (answer : StartAnswer) (e : EqosState) : Except EqosHalt (EfiStatus × EqosState) :=
  match eqosStateError .initialized e with
  | some status => .ok (status, e)
  | none =>
    let r := eqosStop e
    if efiError r.1 then .ok r
    else
      eqosStart answer r.2 >>= fun r =>
        if efiError r.1 then .ok r
        else
          eqosSetRxFilters r.2.snpMode.receiveFilterSetting (r.2.snpMode.mCastFilterCount == 0)
            r.2.snpMode.mCastFilterCount r.2.snpMode.mCastFilter r.2

def eqosSnpShutdown (e : EqosState) : EfiStatus × EqosState :=
  match eqosStateError .initialized e with
  | some status => (status, e)
  | none =>
    let r := eqosStop e
    if efiError r.1 then r else (efiSuccess, r.2.setState .started)

end State

section Filters

structure ReceiveFiltersCall where
  enable : UInt32
  disable : UInt32
  resetMCastFilter : Bool
  mCastFilterCnt : ℕ
  mCastFilter : OptPointer (Cells EfiMacAddress)

/-- `ReceiveFilterSetting`, as a call makes it. -/
def ReceiveFiltersCall.setting (c : ReceiveFiltersCall) (mode : EfiSimpleNetworkMode) : UInt32 :=
  (mode.receiveFilterSetting ||| c.enable) &&& ~~~c.disable

/-- `EqosSnpReceiveFilters`. The list goes to the hash table as the caller gives it, also where it
resets the one of the mode. -/
def eqosSnpReceiveFilters (c : ReceiveFiltersCall) (e : EqosState) :
    Except EqosHalt (EfiStatus × EqosState) :=
  match eqosStateError .initialized e with
  | some status => .ok (status, e)
  | none =>
    if (c.enable ||| c.disable) &&& ~~~e.snpMode.receiveFilterMask ≠ 0 then
      .ok (efiInvalidParameter, e)
    else
      let setting := c.setting e.snpMode
      let setRxFilters (mode : EfiSimpleNetworkMode) :=
        eqosSetRxFilters setting c.resetMCastFilter c.mCastFilterCnt c.mCastFilter.target
          { e with snpMode := { mode with receiveFilterSetting := setting } }
      if c.resetMCastFilter then setRxFilters { e.snpMode with mCastFilterCount := 0 }
      else if setting &&& receiveMulticast ≠ 0 then
        if c.mCastFilterCnt = 0 ∨ e.snpMode.maxMCastFilterCount < c.mCastFilterCnt ∨
            c.mCastFilter.isNull then
          .ok (efiInvalidParameter, e)
        else
          setRxFilters { e.snpMode with
            mCastFilterCount := c.mCastFilterCnt
            mCastFilter := e.snpMode.mCastFilter.write 0 c.mCastFilterCnt c.mCastFilter.target }
      else setRxFilters e.snpMode

end Filters

section Transmitting

/-- `EqosUpdateLink`, less the link's configuration in registers that nothing here reads. -/
def eqosUpdateLink (phyIfStatus : UInt32) (e : EqosState) : Except EqosHalt EqosState :=
  if phyIfLnkSpeed phyIfStatus = 3 then .error .linkSpeed
  else
    .ok { e with snpMode := { e.snpMode with mediaPresent := phyIfStatus &&& phyIfLnkSts ≠ 0 } }

/-- `*InterruptStatus` of `EqosGetDmaInterruptStatus`. -/
def eqosGetDmaInterruptStatus (dmaStatus : UInt32) : UInt32 :=
  if dmaStatus &&& dmaStatusNis ≠ 0 then
    if dmaStatus &&& dmaStatusTi ≠ 0 then transmitInterrupt
    else if dmaStatus &&& dmaStatusRi ≠ 0 then receiveInterrupt
    else 0
  else 0

/-- Which outputs a `GetStatus` asks for, and the registers it reads. -/
structure GetStatusCall where
  interruptStatus : Bool
  txBuf : Bool
  phyIfStatus : UInt32
  dmaStatus : UInt32

structure GetStatusOut where
  status : EfiStatus
  interruptStatus : Option UInt32
  /-- `*TxBuf`. -/
  txBuf : Option ℕ

/-- The part of `EqosSnpGetStatus` that recycles a buffer: `*TxBuf`, and the state. -/
def eqosRecycleTxBuffer (e : EqosState) : Except EqosHalt (ℕ × EqosState) :=
  if 0 < e.txQueued then
    let descIndex := e.txCurrent
    if eqosCheckTxDescriptor (e.txDescs descIndex).tdes3 ≠ efiNotReady then
      if e.txBuffersMap descIndex = none then .error .txBuffersMapNull
      else
        let e := eqosDmaUnmapTxDescriptor descIndex e
        .ok (e.txBuffers descIndex,
          { e with txCurrent := eqosTxNext descIndex, txQueued := e.txQueued - 1 })
    else .ok (0, e)
  else .ok (0, e)

def eqosSnpGetStatus (c : GetStatusCall) (e : EqosState) :
    Except EqosHalt (GetStatusOut × EqosState) :=
  match eqosStateError .initialized e with
  | some status => .ok (⟨status, none, none⟩, e)
  | none =>
    let interruptStatus :=
      if c.interruptStatus then some (eqosGetDmaInterruptStatus c.dmaStatus) else none
    eqosUpdateLink c.phyIfStatus e >>= fun e =>
      if c.txBuf then
        eqosRecycleTxBuffer e >>= fun r => .ok (⟨efiSuccess, interruptStatus, some r.1⟩, r.2)
      else .ok (⟨efiSuccess, interruptStatus, none⟩, e)

structure TransmitCall where
  headerSize : ℕ
  bufferSize : ℕ
  /-- Where the frame is, and its bytes. -/
  buffer : ℕ
  frame : Cells UInt8
  srcAddr : OptPointer EfiMacAddress
  destAddr : OptPointer EfiMacAddress
  protocol : OptPointer UInt16
  /-- The lock is free. -/
  lock : Bool
  dmaMap : DmaMapAnswer

/-- The frame with its media header filled in. -/
def TransmitCall.filledIn (c : TransmitCall) : Cells UInt8 :=
  let frame := c.frame.write 0 netEtherAddrLen c.destAddr.target
  let frame := frame.write 6 netEtherAddrLen c.srcAddr.target
  let frame := Function.update frame 12 ((c.protocol.target &&& 0xFF00) >>> 8).toUInt8
  Function.update frame 13 (c.protocol.target &&& 0xFF).toUInt8

/-- The part of `EqosSnpTransmit` under the lock: the status, the frame, and the state. -/
def eqosQueueFrame (c : TransmitCall) (e : EqosState) :
    Except EqosHalt (EfiStatus × Cells UInt8 × EqosState) :=
  if e.txQueued = eqosTxDescCount - 1 then .ok (efiNotReady, c.frame, e)
  else
    let frame := if c.headerSize ≠ 0 then c.filledIn else c.frame
    let descIndex := e.txNext
    let e := { e with txBuffers := Function.update e.txBuffers descIndex c.buffer }
    eqosDmaMapTxDescriptor descIndex c.bufferSize c.dmaMap e >>= fun r =>
      if efiError r.1 then .ok (r.1, frame, r.2)
      else
        .ok (efiSuccess, frame,
          { r.2 with txNext := eqosTxNext descIndex, txQueued := r.2.txQueued + 1 })

/-- `EqosSnpTransmit`. -/
def eqosSnpTransmit (c : TransmitCall) (e : EqosState) :
    Except EqosHalt (EfiStatus × Cells UInt8 × EqosState) :=
  let refused (status : EfiStatus) : Except EqosHalt (EfiStatus × Cells UInt8 × EqosState) :=
    .ok (status, c.frame, e)
  if c.buffer = 0 then refused efiInvalidParameter
  else
    match eqosStateError .initialized e with
    | some status => refused status
    | none =>
      if c.headerSize ≠ 0 ∧ (c.headerSize ≠ e.snpMode.mediaHeaderSize ∨
          c.destAddr.isNull ∨ c.protocol.isNull) then
        refused efiInvalidParameter
      else if c.bufferSize < e.snpMode.mediaHeaderSize then refused efiBufferTooSmall
      else if c.lock = false then refused efiAccessDenied
      else eqosQueueFrame c e

end Transmitting

section Receiving

/-- Which outputs a `Receive` asks for beside the frame, and the buffer that is to hold it. -/
structure ReceiveCall where
  headerSize : Bool
  bufferSize : ℕ
  buffer : OptPointer (Cells UInt8)
  srcAddr : Bool
  destAddr : Bool
  protocol : Bool
  /-- The lock is free. -/
  lock : Bool
  dmaMap : DmaMapAnswer

/-- What a `Receive` has written when it returns. -/
structure ReceiveOut where
  status : EfiStatus
  headerSize : Option ℕ
  bufferSize : ℕ
  buffer : Cells UInt8
  srcAddr : Option (List UInt8)
  destAddr : Option (List UInt8)
  protocol : Option UInt16

/-- A call that has written nothing yet. -/
def ReceiveCall.out (c : ReceiveCall) (status : EfiStatus) : ReceiveOut :=
  ⟨status, none, c.bufferSize, c.buffer.target, none, none, none⟩

/-- Where the receive buffer of a descriptor is, from `RxBuffersAddr` on: `EQOS_RX_BUFFER`. -/
def eqosRxBuffer (descIndex : ℕ) : ℕ := eqosRxBufferSize * descIndex

/-- The frame copied out. -/
def ReceiveCall.copied (c : ReceiveCall) (mode : EfiSimpleNetworkMode) (rxBuffers : Cells UInt8)
    (frame frameLength : ℕ) : ReceiveOut where
  status := efiSuccess
  headerSize := if c.headerSize then some mode.mediaHeaderSize else none
  bufferSize := frameLength
  buffer := c.buffer.target.write 0 frameLength fun k => rxBuffers (frame + k)
  srcAddr := if c.srcAddr then some (rxBuffers.slice (frame + 6) netEtherAddrLen) else none
  destAddr := if c.destAddr then some (rxBuffers.slice frame netEtherAddrLen) else none
  protocol :=
    if c.protocol then
      some (((rxBuffers (frame + 12)).toUInt16 <<< 8) ||| (rxBuffers (frame + 13)).toUInt16)
    else none

/-- From `ReleaseDesc` on. -/
def eqosReleaseDesc (dmaMap : DmaMapAnswer) (out : ReceiveOut) (e : EqosState) :
    Except EqosHalt (ReceiveOut × EqosState) :=
  eqosDmaMapRxDescriptor e.rxCurrent dmaMap e >>= fun r =>
    if efiError r.1 then .ok ({ out with status := r.1 }, r.2)
    else .ok (out, { r.2 with rxCurrent := eqosRxNext r.2.rxCurrent })

/-- The part of `EqosSnpReceive` under the lock. -/
def eqosTakeFrame (c : ReceiveCall) (e : EqosState) : Except EqosHalt (ReceiveOut × EqosState) :=
  let descIndex := e.rxCurrent
  let check := eqosCheckRxDescriptor (e.rxDescs descIndex).tdes3
  if check.1 = efiNotReady then .ok (c.out efiNotReady, e)
  else if efiError check.1 then
    if e.rxBuffersMap descIndex = none then .error .rxBuffersMapNull
    else eqosReleaseDesc c.dmaMap (c.out check.1) (eqosDmaUnmapRxDescriptor descIndex e)
  else if c.bufferSize < check.2 then
    .ok ({ c.out efiBufferTooSmall with bufferSize := check.2 }, e)
  else if e.rxBuffersMap descIndex = none then .error .rxBuffersMapNull
  else
    eqosReleaseDesc c.dmaMap (c.copied e.snpMode e.rxBuffers (eqosRxBuffer descIndex) check.2)
      (eqosDmaUnmapRxDescriptor descIndex e)

/-- `EqosSnpReceive`. -/
def eqosSnpReceive (c : ReceiveCall) (e : EqosState) : Except EqosHalt (ReceiveOut × EqosState) :=
  if c.buffer.isNull then .ok (c.out efiInvalidParameter, e)
  else
    match eqosStateError .initialized e with
    | some status => .ok (c.out status, e)
    | none => if c.lock = false then .ok (c.out efiAccessDenied, e) else eqosTakeFrame c e

end Receiving

end Edk2Rk3576
