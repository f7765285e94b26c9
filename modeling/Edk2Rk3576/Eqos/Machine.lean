import Edk2Rk3576.Eqos.Effects
import Edk2Rk3576.Lib.Runs

/-!
# Runs of the Ethernet driver

Calls of the protocol come in any order, and between them the DMA engine completes descriptors that
are its own, each ring in its order. A run keeps account of the frames that go in and come out,
from the last start on.
-/

namespace Edk2Rk3576

open Cells

/-- What the DMA engine writes back to a transmit descriptor: it gives it up. -/
structure TxWriteBack where
  tdes3 : UInt32
  released : txOwned tdes3 = false

/-- What it writes back to a receive descriptor, and what it has put in its buffer. -/
structure RxCompletion where
  tdes2 : UInt32
  tdes3 : UInt32
  data : Cells UInt8
  released : rxOwned tdes3 = false

/-- The DMA engine completes the transmit descriptor it is at, where that is its own. -/
def EqosState.dmaTransmits (w : TxWriteBack) (e : EqosState) : EqosState :=
  if txOwned (e.txDescs e.txDma).tdes3 then
    { e with
      txDescs :=
        Function.update e.txDescs e.txDma { e.txDescs e.txDma with tdes3 := w.tdes3 }
      txDma := eqosTxNext e.txDma }
  else e

/-- It fills the receive buffer it is at. -/
def EqosState.filled (c : RxCompletion) (e : EqosState) : EqosState :=
  { e with
    rxDescs := Function.update e.rxDescs e.rxDma
      { e.rxDescs e.rxDma with tdes2 := c.tdes2, tdes3 := c.tdes3 }
    rxBuffers := e.rxBuffers.write (eqosRxBuffer e.rxDma) eqosRxBufferSize c.data
    rxDma := eqosRxNext e.rxDma }

inductive EqosEvent
  | snpStart
  | snpStop
  | snpInitialize (answer : StartAnswer)
  | snpReset (answer : StartAnswer)
  | snpShutdown
  | snpReceiveFilters (c : ReceiveFiltersCall)
  | snpGetStatus (c : GetStatusCall)
  | snpTransmit (c : TransmitCall)
  | snpReceive (c : ReceiveCall)
  | txDone (w : TxWriteBack)
  | rxDone (c : RxCompletion)

/-- The driver, the buffers `Transmit` accepted and `GetStatus` returned, the receive descriptors
completed, and the frames `Receive` delivered: of each its length, and what of it is in the receive
buffer. -/
structure EqosTrace where
  eqos : EqosState
  accepted : List ℕ
  returned : List ℕ
  completed : List RxCompletion
  delivered : List (ℕ × List UInt8)

/-- The length of a frame, and the bytes of it that fit a receive buffer. -/
def frameIn (length : ℕ) (data : Cells UInt8) : ℕ × List UInt8 :=
  (length, data.slice 0 (min length eqosRxBufferSize))

namespace EqosTrace

def init (e : EqosState) : EqosTrace := ⟨e, [], [], [], []⟩

def restarted (t : EqosTrace) (r : EfiStatus × EqosState) : EqosTrace :=
  if efiError r.1 then { t with eqos := r.2 } else init r.2

def step (t : EqosTrace) : EqosEvent → Except EqosHalt EqosTrace
  | .snpStart => .ok { t with eqos := (eqosSnpStart t.eqos).2 }
  | .snpStop => .ok { t with eqos := (eqosSnpStop t.eqos).2 }
  | .snpInitialize answer => eqosSnpInitialize answer t.eqos >>= fun r => .ok (t.restarted r)
  | .snpReset answer => eqosSnpReset answer t.eqos >>= fun r => .ok (t.restarted r)
  | .snpShutdown => .ok { t with eqos := (eqosSnpShutdown t.eqos).2 }
  | .snpReceiveFilters c => eqosSnpReceiveFilters c t.eqos >>= fun r => .ok { t with eqos := r.2 }
  | .snpGetStatus c =>
    eqosSnpGetStatus c t.eqos >>= fun r =>
      .ok { t with
        eqos := r.2
        returned := t.returned ++ (r.1.txBuf.filter (· ≠ 0)).toList }
  | .snpTransmit c =>
    eqosSnpTransmit c t.eqos >>= fun r =>
      .ok { t with
        eqos := r.2.2
        accepted := if efiError r.1 then t.accepted else t.accepted ++ [c.buffer] }
  | .snpReceive c =>
    eqosSnpReceive c t.eqos >>= fun r =>
      .ok { t with
        eqos := r.2
        delivered :=
          if efiError r.1.status then t.delivered
          else t.delivered ++ [frameIn r.1.bufferSize r.1.buffer] }
  | .txDone w => .ok { t with eqos := t.eqos.dmaTransmits w }
  | .rxDone c =>
    .ok
      (if rxOwned (t.eqos.rxDescs t.eqos.rxDma).tdes3 then
        { t with eqos := t.eqos.filled c, completed := t.completed ++ [c] }
      else t)

/-- The traces from the driver's start on, on events that each state allows. -/
def Reaches (allowed : EqosTrace → EqosEvent → Prop) (e : EqosState) : EqosTrace → Prop :=
  ReachedOk step allowed (init e)

end EqosTrace

section Answers

-- answers of the platform, for runs on fixed inputs

def dmaMapDone : DmaMapAnswer := ⟨efiSuccess, 1, 0x1000, id⟩
def dmaMapFails : DmaMapAnswer := ⟨efiOutOfResources, 1, 0x1000, id⟩

/-- A start whose first `good` receive buffers can be mapped. -/
def startMapping (good : ℕ) : StartAnswer where
  swr := fun _ => false
  hashTable := fun _ => 0
  packetFilter := 0
  rxMap := fun i => if i < good then dmaMapDone else dmaMapFails

/-- The driver as it comes up, its receive buffers at an address. -/
def boundAt (rxBuffersAddr : ℕ) : EqosState :=
  eqosDriverBindingStart rxBuffersAddr (fun _ => 0) (fun _ => 0) 0

end Answers

end Edk2Rk3576
