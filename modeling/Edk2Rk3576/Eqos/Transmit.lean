import Edk2Rk3576.Eqos.Machine
import Edk2Rk3576.Lib.RingQueue

/-!
# The transmit ring

`TxNext` is where `Transmit` adds a frame to the ring, `TxCurrent` where `GetStatus` takes one from
it, and a frame's buffer is mapped from the one to the other. A restart lets all mappings go, and
empties the ring only if it succeeds.
-/

namespace Edk2Rk3576

open Cells

/-- The buffers queued, the oldest one first. -/
def EqosState.txQueue (e : EqosState) : List ℕ :=
  ringSlice eqosTxDescCount e.txBuffers e.txCurrent e.txQueued

/-- The indices of the ring that are in use. -/
def EqosState.txWindow (e : EqosState) : Set ℕ :=
  ringRange eqosTxDescCount e.txCurrent e.txQueued

/-- What is to hold of an initialized interface. -/
structure TxRingLaw (t : EqosTrace) : Prop where
  queued_le : t.eqos.txQueued ≤ eqosTxDescCount - 1
  next_eq : t.eqos.txNext = (t.eqos.txCurrent + t.eqos.txQueued) % eqosTxDescCount
  mapped : ∀ i < eqosTxDescCount, t.eqos.txBuffersMap i ≠ none ↔ i ∈ t.eqos.txWindow
  noAssert : ∀ event, Yields (fun halt => ¬ halt.OfTx) (fun _ => True) (t.step event)
  /-- What was accepted has been returned once, in order, or is queued. -/
  accounted : t.accepted = t.returned ++ t.eqos.txQueue
  /-- The oldest buffer queued is returned once the DMA engine is through with it. -/
  returns : ∀ c t' b rest, c.txBuf = true → t.accepted = t.returned ++ b :: rest →
    txOwned (t.eqos.txDescs t.eqos.txCurrent).tdes3 = false →
    t.step (.snpGetStatus c) = .ok t' → t'.returned = t.returned ++ [b]

/-- A `Reset` whose restart fails finds nothing queued. -/
def TxAllowed (t : EqosTrace) : EqosEvent → Prop
  | .snpReset answer =>
    t.eqos.snpMode.state = .initialized → ¬ answer.Succeeds → t.eqos.txQueued = 0
  | _ => True

section Invariant

/-- Of the initialized interface: what is mapped and queued. -/
structure TxInUse (t : EqosTrace) : Prop where
  mapped : ∀ i < eqosTxDescCount, t.eqos.txBuffersMap i ≠ none ↔ i ∈ t.eqos.txWindow
  buffers : ∀ b ∈ t.eqos.txQueue, b ≠ 0
  accounted : t.accepted = t.returned ++ t.eqos.txQueue

/-- What holds in each state of a run. -/
structure TxRing (t : EqosTrace) : Prop where
  queued_lt : t.eqos.txQueued < eqosTxDescCount
  current_lt : t.eqos.txCurrent < eqosTxDescCount
  next_eq : t.eqos.txNext = (t.eqos.txCurrent + t.eqos.txQueued) % eqosTxDescCount
  inUse : t.eqos.snpMode.state = .initialized → TxInUse t
  idle : t.eqos.snpMode.state ≠ .initialized → ∀ i < eqosTxDescCount, t.eqos.txBuffersMap i = none

/-- What the ring is made of is the same. -/
structure SameTx (e e' : EqosState) : Prop where
  state : e'.snpMode.state = e.snpMode.state
  buffers : e'.txBuffers = e.txBuffers
  map : e'.txBuffersMap = e.txBuffersMap
  queued : e'.txQueued = e.txQueued
  next : e'.txNext = e.txNext
  current : e'.txCurrent = e.txCurrent

variable {t t' : EqosTrace} {e e' : EqosState} {answer : StartAnswer}

theorem SameTx.refl (e : EqosState) : SameTx e e := ⟨rfl, rfl, rfl, rfl, rfl, rfl⟩

theorem SameTx.queue_eq (h : SameTx e e') : e'.txQueue = e.txQueue := by
  rw [EqosState.txQueue, EqosState.txQueue, h.buffers, h.current, h.queued]

theorem SameTx.window_eq (h : SameTx e e') : e'.txWindow = e.txWindow := by
  rw [EqosState.txWindow, EqosState.txWindow, h.current, h.queued]

theorem TxRing.congr (h : TxRing t) (hs : SameTx t.eqos t'.eqos)
    (haccepted : t'.accepted = t.accepted) (hreturned : t'.returned = t.returned) : TxRing t' where
  queued_lt := by
    rw [hs.queued]
    exact h.queued_lt
  current_lt := by
    rw [hs.current]
    exact h.current_lt
  next_eq := by
    rw [hs.next, hs.current, hs.queued]
    exact h.next_eq
  inUse hstate := by
    have huse := h.inUse (hs.state ▸ hstate)
    refine ⟨?_, ?_, ?_⟩
    · rw [hs.map, hs.window_eq]
      exact huse.mapped
    · rw [hs.queue_eq]
      exact huse.buffers
    · rw [haccepted, hreturned, hs.queue_eq]
      exact huse.accounted
  idle hstate := by
    rw [hs.map]
    exact h.idle (hs.state ▸ hstate)

/-- A ring with nothing queued, and nothing mapped. -/
theorem TxRing.of_empty (hqueued : t.eqos.txQueued = 0)
    (hcurrent : t.eqos.txCurrent < eqosTxDescCount) (hnext : t.eqos.txNext = t.eqos.txCurrent)
    (hmap : ∀ i < eqosTxDescCount, t.eqos.txBuffersMap i = none)
    (haccounted : t.accepted = t.returned) : TxRing t where
  queued_lt := by
    rw [hqueued]
    decide
  current_lt := hcurrent
  next_eq := by rw [hnext, hqueued, Nat.add_zero, Nat.mod_eq_of_lt hcurrent]
  inUse _ := by
    refine ⟨fun i hi => ?_, fun b hb => ?_, ?_⟩
    · simp [hmap i hi, EqosState.txWindow, hqueued]
    · simp [EqosState.txQueue, hqueued] at hb
    · simp [haccounted, EqosState.txQueue, hqueued]
  idle _ := hmap

/-- An interface that is not initialized gets to another such state. -/
theorem TxRing.setState (h : TxRing t) {state : EfiSimpleNetworkState}
    (hmap : ∀ i < eqosTxDescCount, e.txBuffersMap i = none) (hqueued : e.txQueued = t.eqos.txQueued)
    (hcurrent : e.txCurrent = t.eqos.txCurrent) (hnext : e.txNext = t.eqos.txNext)
    (hstate : state ≠ .initialized) : TxRing { t with eqos := e.setState state } where
  queued_lt := hqueued.symm ▸ h.queued_lt
  current_lt := hcurrent.symm ▸ h.current_lt
  next_eq := by
    change e.txNext = (e.txCurrent + e.txQueued) % eqosTxDescCount
    rw [hnext, hcurrent, hqueued]
    exact h.next_eq
  inUse hinit := absurd hinit hstate
  idle _ := hmap

theorem TxRing.init (hqueued : e.txQueued = 0) (hcurrent : e.txCurrent = 0) (hnext : e.txNext = 0)
    (hmap : ∀ i < eqosTxDescCount, e.txBuffersMap i = none) : TxRing (.init e) :=
  .of_empty hqueued (by rw [EqosTrace.init, hcurrent]; decide) (hnext.trans hcurrent.symm) hmap rfl

end Invariant

section Starting

variable {t : EqosTrace} {answer : StartAnswer}

theorem MapRxHalts.not_ofTx {e : EqosState} {n : ℕ} {halt : EqosHalt} (h : MapRxHalts e n halt) :
    ¬ halt.OfTx := by
  cases halt <;> simp_all [MapRxHalts, EqosHalt.OfTx]

theorem reset_halts_notOfTx {e : EqosState} {halt : EqosHalt}
    (h : (halt = .endless ∧ 2 ^ 32 ≤ e.snpMode.mCastFilterCount) ∨ MapRxHalts e.stopped 0 halt) :
    ¬ halt.OfTx := by
  rcases h with ⟨rfl, -⟩ | h
  · exact id
  · exact h.not_ofTx

theorem TxRing.snpStart (h : TxRing t) :
    TxRing { t with eqos := (eqosSnpStart t.eqos).2 } := by
  unfold eqosSnpStart
  split_ifs with h1 h2
  · exact h
  · exact h
  · have hstopped := not_not.1 h2
    exact h.setState (h.idle (by rw [hstopped]; decide)) rfl rfl rfl (by decide)

theorem TxRing.snpStop (h : TxRing t) : TxRing { t with eqos := (eqosSnpStop t.eqos).2 } := by
  unfold eqosSnpStop
  split
  · exact h
  · rename_i hstate
    have hstarted := eqosStateError_eq_none hstate
    exact h.setState (h.idle (by rw [hstarted]; decide)) rfl rfl rfl (by decide)

theorem TxRing.snpShutdown (h : TxRing t) :
    TxRing { t with eqos := (eqosSnpShutdown t.eqos).2 } := by
  unfold eqosSnpShutdown
  split
  · exact h
  · rw [eqosStop_eq]
    exact h.setState (fun i hi => unmapped_of_lt hi) rfl rfl rfl (by decide)

theorem TxRing.snpInitialize (h : TxRing t) :
    Yields (fun halt => ¬ halt.OfTx) TxRing (t.step (.snpInitialize answer)) := by
  refine (eqosSnpInitialize_yields.imp (fun _ hhalt => hhalt.2.not_ofTx) fun _ hr => hr).bind ?_
  rintro r (⟨herr, heq⟩ | ⟨-, herr, hfailed⟩ | ⟨hstate, hok, e', hstarted, heq⟩)
  · rw [Yields, EqosTrace.restarted, if_pos herr, heq]
    exact h
  · rw [Yields, EqosTrace.restarted, if_pos herr, hfailed.eq]
    exact h.congr ⟨rfl, rfl, rfl, rfl, rfl, rfl⟩ rfl rfl
  · rw [Yields, EqosTrace.restarted, hok, if_neg (by simp), heq, hstarted.eq]
    exact .init rfl rfl rfl (h.idle (by rw [hstate]; decide))

/-- A restart that fails leaves the indices, and lets the mappings go. -/
theorem TxRing.snpReset (h : TxRing t) (hok : TxAllowed t (.snpReset answer)) :
    Yields (fun halt => ¬ halt.OfTx) TxRing (t.step (.snpReset answer)) := by
  refine (eqosSnpReset_yields.imp (fun _ => reset_halts_notOfTx) fun _ hr => hr).bind ?_
  rintro r (⟨-, herr, heq⟩ | ⟨hinit, herr, hanswer, hfailed⟩ |
    ⟨hinit, hsucc, -, e', hstarted, heq, -⟩)
  · rw [Yields, EqosTrace.restarted, if_pos herr, heq]
    exact h
  · rw [Yields, EqosTrace.restarted, if_pos herr, hfailed.eq]
    have hqueued := hok hinit hanswer
    refine .of_empty hqueued h.current_lt ?_ (fun i hi => unmapped_of_lt hi) ?_
    · refine h.next_eq.trans ?_
      rw [hqueued, Nat.add_zero, Nat.mod_eq_of_lt h.current_lt]
      rfl
    · refine (h.inUse hinit).accounted.trans ?_
      rw [EqosState.txQueue, hqueued, ringSlice_zero, List.append_nil]
  · rw [Yields, EqosTrace.restarted, hsucc, if_neg (by simp), heq, hstarted.eq]
    exact .init rfl rfl rfl fun i hi => unmapped_of_lt hi

end Starting

section Frame

variable {t : EqosTrace} {e : EqosState}

theorem eqosSnpReceiveFilters_sameTx {c : ReceiveFiltersCall} :
    Yields (fun halt => ¬ halt.OfTx) (fun r => SameTx e r.2) (eqosSnpReceiveFilters c e) := by
  refine eqosSnpReceiveFilters_yields.imp (fun halt hhalt => ?_) fun r ⟨hstate, heq⟩ => ?_
  · rw [hhalt]
    exact id
  · rw [heq]
    exact ⟨hstate, rfl, rfl, rfl, rfl, rfl⟩

theorem eqosSnpReceive_sameTx {c : ReceiveCall} :
    Yields (fun halt => ¬ halt.OfTx) (fun r => SameTx e r.2) (eqosSnpReceive c e) := by
  refine eqosSnpReceive_touches.imp (fun _ hhalt => hhalt.1) fun r hr => ?_
  rw [hr]
  exact ⟨rfl, rfl, rfl, rfl, rfl, rfl⟩

theorem dmaTransmits_sameTx {w : TxWriteBack} : SameTx e (e.dmaTransmits w) := by
  unfold EqosState.dmaTransmits
  split_ifs
  · exact ⟨rfl, rfl, rfl, rfl, rfl, rfl⟩
  · exact SameTx.refl e

end Frame

section Queue

variable {t : EqosTrace} {e : EqosState} {b : ℕ} {rest : List ℕ}

/-- The oldest buffer is the one at `TxCurrent`. -/
theorem txQueue_cons (hcurrent : e.txCurrent < eqosTxDescCount) (hqueued : 0 < e.txQueued) :
    e.txQueue = e.txBuffers e.txCurrent ::
      ringSlice eqosTxDescCount e.txBuffers (eqosTxNext e.txCurrent) (e.txQueued - 1) := by
  obtain ⟨n, hn⟩ := Nat.exists_eq_succ_of_ne_zero hqueued.ne'
  rw [EqosState.txQueue, hn, Nat.succ_eq_add_one, ringSlice_cons hcurrent]
  rfl

theorem eqosCheckTxDescriptor_eq_notReady {tdes3 : UInt32} :
    eqosCheckTxDescriptor tdes3 = efiNotReady ↔ txOwned tdes3 = true := by
  unfold eqosCheckTxDescriptor
  split_ifs with h <;> simp [h, efiNotReady, efiDeviceError, efiSuccess, encodeError]

/-- The state with the oldest buffer taken from the ring. -/
def EqosState.recycled (e : EqosState) : EqosState :=
  { e with
    txBuffersMap := Function.update e.txBuffersMap e.txCurrent none
    txCurrent := eqosTxNext e.txCurrent
    txQueued := e.txQueued - 1 }

/-- Recycling a buffer: none, or the oldest one, which the DMA engine is through with. -/
theorem eqosRecycleTxBuffer_yields
    (hmap : 0 < e.txQueued → e.txBuffersMap e.txCurrent ≠ none) :
    Yields (fun _ => False)
      (fun r =>
        ((e.txQueued = 0 ∨ txOwned (e.txDescs e.txCurrent).tdes3 = true) ∧ r = (0, e)) ∨
        0 < e.txQueued ∧ r = (e.txBuffers e.txCurrent, e.recycled))
      (eqosRecycleTxBuffer e) := by
  unfold eqosRecycleTxBuffer
  refine Yields.ite (fun hqueued => ?_) fun hqueued => .inl ⟨.inl (by omega), rfl⟩
  refine Yields.ite (fun _ => ?_) fun howned => ?_
  · refine Yields.ite (fun hnone => absurd hnone (hmap hqueued)) fun _ => ?_
    rw [eqosDmaUnmapTxDescriptor_eq]
    exact .inr ⟨hqueued, rfl⟩
  · exact .inl ⟨.inr (eqosCheckTxDescriptor_eq_notReady.1 (not_not.1 howned)), rfl⟩

theorem recycled_queue (hcurrent : e.txCurrent < eqosTxDescCount) (hqueued : 0 < e.txQueued) :
    e.txQueue = e.txBuffers e.txCurrent :: e.recycled.txQueue := txQueue_cons hcurrent hqueued

theorem recycled_window (hcurrent : e.txCurrent < eqosTxDescCount) (hqueued : 0 < e.txQueued)
    (hlt : e.txQueued < eqosTxDescCount) : e.recycled.txWindow = e.txWindow \ {e.txCurrent} := by
  obtain ⟨n, hn⟩ := Nat.exists_eq_succ_of_ne_zero hqueued.ne'
  rw [EqosState.txWindow, EqosState.txWindow, hn, Nat.succ_eq_add_one,
    ← ringRange_rest hcurrent (by omega), EqosState.recycled, hn]
  rfl

theorem TxRing.recycled (h : TxRing t) (hinit : t.eqos.snpMode.state = .initialized)
    (hqueued : 0 < t.eqos.txQueued) :
    TxRing { t with
      eqos := t.eqos.recycled
      returned := t.returned ++ [t.eqos.txBuffers t.eqos.txCurrent] } where
  queued_lt := by
    have := h.queued_lt
    change t.eqos.txQueued - 1 < eqosTxDescCount
    omega
  current_lt := Nat.mod_lt _ (by decide)
  next_eq := by
    change t.eqos.txNext =
      ((t.eqos.txCurrent + 1) % eqosTxDescCount + (t.eqos.txQueued - 1)) % eqosTxDescCount
    rw [Nat.mod_add_mod, h.next_eq,
      show t.eqos.txCurrent + 1 + (t.eqos.txQueued - 1) = t.eqos.txCurrent + t.eqos.txQueued by
        omega]
  inUse _ := by
    have huse := h.inUse hinit
    have hqueue := recycled_queue h.current_lt hqueued
    refine ⟨fun i hi => ?_, fun b hb => ?_, ?_⟩
    · rw [recycled_window h.current_lt hqueued h.queued_lt, Set.mem_sdiff, Set.mem_singleton_iff,
        ← huse.mapped i hi]
      by_cases hcurrent : i = t.eqos.txCurrent
      · simp [EqosState.recycled, hcurrent]
      · simp [EqosState.recycled, hcurrent]
    · exact huse.buffers b (hqueue ▸ List.mem_cons_of_mem _ hb)
    · change t.accepted = t.returned ++ [_] ++ t.eqos.recycled.txQueue
      rw [huse.accounted, hqueue, List.append_assoc, List.singleton_append]
  idle hne := absurd hinit hne

theorem eqosUpdateLink_yields {phyIfStatus : UInt32} :
    Yields (fun halt => ¬ halt.OfTx) (fun e' => SameTx e e' ∧ e'.txDescs = e.txDescs)
      (eqosUpdateLink phyIfStatus e) :=
  Yields.ite (fun _ => id) fun _ => ⟨⟨rfl, rfl, rfl, rfl, rfl, rfl⟩, rfl⟩

theorem TxRing.map_current (h : TxRing t) (hinit : t.eqos.snpMode.state = .initialized)
    (hqueued : 0 < t.eqos.txQueued) : t.eqos.txBuffersMap t.eqos.txCurrent ≠ none := by
  refine ((h.inUse hinit).mapped _ h.current_lt).2 ⟨0, hqueued, ?_⟩
  rw [Nat.add_zero, Nat.mod_eq_of_lt h.current_lt]

/-- A `GetStatus` returns no buffer, since none is asked for or finished, or the oldest one. -/
inductive StatusGot (c : GetStatusCall) (e : EqosState) (r : GetStatusOut × EqosState) : Prop
  | none (hsame : SameTx e r.2) (htxBuf : r.1.txBuf.getD 0 = 0)
      (hnone : c.txBuf = true → e.txQueued = 0 ∨ txOwned (e.txDescs e.txCurrent).tdes3 = true)
  | some (e' : EqosState) (hsame : SameTx e e') (hqueued : 0 < e.txQueued)
      (hrecycled : r.2 = e'.recycled) (htxBuf : r.1.txBuf = .some (e.txBuffers e.txCurrent))

theorem eqosSnpGetStatus_yields {c : GetStatusCall} (hinit : e.snpMode.state = .initialized)
    (hmap : 0 < e.txQueued → e.txBuffersMap e.txCurrent ≠ none) :
    Yields (fun halt => ¬ halt.OfTx) (StatusGot c e) (eqosSnpGetStatus c e) := by
  have hstate : eqosStateError .initialized e = none := by simp [eqosStateError, hinit]
  rw [eqosSnpGetStatus, hstate]
  refine eqosUpdateLink_yields.bind ?_
  rintro e' ⟨hsame, hdescs⟩
  refine Yields.ite (fun _ => ?_) fun htxBuf => .none hsame rfl fun h => absurd h htxBuf
  have hrecycle := eqosRecycleTxBuffer_yields (e := e')
    (by rwa [hsame.queued, hsame.map, hsame.current])
  refine (hrecycle.imp (fun _ hhalt => hhalt.elim) fun _ hr => hr).bind ?_
  rintro r (⟨hnone, rfl⟩ | ⟨hqueued, rfl⟩)
  · rw [hsame.queued, hdescs, hsame.current] at hnone
    exact .none hsame rfl fun _ => hnone
  · refine .some e' hsame (hsame.queued ▸ hqueued) rfl ?_
    rw [hsame.buffers, hsame.current]

/-- `GetStatus` keeps the ring, and returns the oldest buffer when the DMA engine is through with
it. -/
theorem TxRing.snpGetStatus (h : TxRing t) {c : GetStatusCall} :
    Yields (fun halt => ¬ halt.OfTx)
      (fun t' => TxRing t' ∧ (t.eqos.snpMode.state = .initialized → c.txBuf = true →
        t.eqos.txQueue = b :: rest → txOwned (t.eqos.txDescs t.eqos.txCurrent).tdes3 = false →
        t'.returned = t.returned ++ [b]))
      (t.step (.snpGetStatus c)) := by
  rw [EqosTrace.step]
  cases hstate : eqosStateError .initialized t.eqos with
  | some status =>
    rw [eqosSnpGetStatus, hstate]
    refine ⟨h.congr (SameTx.refl _) rfl (by simp), fun hinit => ?_⟩
    simp [eqosStateError, hinit] at hstate
  | none =>
    have hinit := eqosStateError_eq_none hstate
    refine (eqosSnpGetStatus_yields hinit (h.map_current hinit)).bind fun r hr => ?_
    cases hr with
    | none hsame htxBuf hnone =>
      have hlog : r.1.txBuf.filter (· ≠ 0) = none := by
        cases hout : r.1.txBuf <;> simp_all
      refine ⟨h.congr hsame rfl (by rw [hlog]; exact List.append_nil _),
        fun _ hasked hqueue howned => ?_⟩
      rcases hnone hasked with hempty | hbusy
      · simp [EqosState.txQueue, hempty] at hqueue
      · rw [howned] at hbusy
        cases hbusy
    | some e' hsame hqueued hrecycled htxBuf =>
      have hcons := recycled_queue h.current_lt hqueued
      have hne : t.eqos.txBuffers t.eqos.txCurrent ≠ 0 :=
        (h.inUse hinit).buffers _ (hcons ▸ List.mem_cons_self)
      have hlog : r.1.txBuf.filter (· ≠ 0) = .some (t.eqos.txBuffers t.eqos.txCurrent) := by
        simp [htxBuf, hne]
      have h' : TxRing { t with eqos := e' } := h.congr hsame rfl rfl
      have hstep := h'.recycled (hsame.state.trans hinit) (hsame.queued.symm ▸ hqueued)
      refine ⟨?_, fun _ _ hqueue _ => ?_⟩
      · rw [hlog, hrecycled, ← hsame.buffers, ← hsame.current]
        exact hstep
      · rw [hcons, List.cons.injEq] at hqueue
        rw [hlog, hqueue.1]
        rfl

end Queue

section Adding

variable {t : EqosTrace} {e : EqosState} {b : ℕ}

/-- The state with a buffer noted past the end of the ring. -/
def EqosState.offered (b : ℕ) (e : EqosState) : EqosState :=
  { e with txBuffers := Function.update e.txBuffers e.txNext b }

/-- The state with that buffer mapped, and in the ring. -/
def EqosState.queuedFrame (b mapping : ℕ) (descs : Cells EqosDmaDescriptor) (e : EqosState) :
    EqosState :=
  { e.offered b with
    txBuffersMap := Function.update e.txBuffersMap e.txNext (some mapping)
    txDescs := descs
    txNext := eqosTxNext e.txNext
    txQueued := e.txQueued + 1 }

/-- What was noted past the end does not count. -/
theorem TxRing.offered (h : TxRing t) : TxRing { t with eqos := t.eqos.offered b } := by
  have hqueue : (t.eqos.offered b).txQueue = t.eqos.txQueue := by
    rw [EqosState.txQueue, EqosState.offered, h.next_eq]
    exact ringSlice_update_end h.queued_lt
  refine ⟨h.queued_lt, h.current_lt, h.next_eq, fun hinit => ?_, h.idle⟩
  have huse := h.inUse hinit
  refine ⟨huse.mapped, ?_, ?_⟩
  · change ∀ b' ∈ (t.eqos.offered b).txQueue, b' ≠ 0
    rw [hqueue]
    exact huse.buffers
  · change t.accepted = t.returned ++ (t.eqos.offered b).txQueue
    rw [hqueue]
    exact huse.accounted

theorem TxRing.queuedFrame (h : TxRing t) (hinit : t.eqos.snpMode.state = .initialized)
    (hb : b ≠ 0) (hfree : t.eqos.txQueued ≠ eqosTxDescCount - 1) {mapping : ℕ}
    {descs : Cells EqosDmaDescriptor} :
    TxRing { t with
      eqos := t.eqos.queuedFrame b mapping descs
      accepted := t.accepted ++ [b] } := by
  have hlt := h.queued_lt
  have huse := h.inUse hinit
  have hqueue : (t.eqos.queuedFrame b mapping descs).txQueue = t.eqos.txQueue ++ [b] := by
    rw [EqosState.txQueue, EqosState.queuedFrame, EqosState.offered, h.next_eq]
    exact ringSlice_push hlt
  have hwindow : (t.eqos.queuedFrame b mapping descs).txWindow =
      insert t.eqos.txNext t.eqos.txWindow := by
    rw [h.next_eq]
    exact ringRange_succ
  refine ⟨?_, h.current_lt, ?_, fun _ => ⟨fun i hi => ?_, ?_, ?_⟩, fun hne => absurd hinit hne⟩
  · change t.eqos.txQueued + 1 < eqosTxDescCount
    omega
  · change (t.eqos.txNext + 1) % eqosTxDescCount =
      (t.eqos.txCurrent + (t.eqos.txQueued + 1)) % eqosTxDescCount
    rw [h.next_eq, Nat.mod_add_mod, Nat.add_assoc]
  · rw [hwindow, Set.mem_insert_iff, ← huse.mapped i hi]
    by_cases hnext : i = t.eqos.txNext
    · simp [EqosState.queuedFrame, hnext]
    · simp [EqosState.queuedFrame, hnext]
  · change ∀ b' ∈ (t.eqos.queuedFrame b mapping descs).txQueue, b' ≠ 0
    rw [hqueue]
    intro b' hb'
    rcases List.mem_append.1 hb' with hmem | hmem
    · exact huse.buffers b' hmem
    · rwa [List.mem_singleton.1 hmem]
  · change t.accepted ++ [b] = t.returned ++ (t.eqos.queuedFrame b mapping descs).txQueue
    rw [hqueue, huse.accounted, List.append_assoc]

theorem TxRing.map_next (h : TxRing t) (hinit : t.eqos.snpMode.state = .initialized) :
    t.eqos.txBuffersMap t.eqos.txNext = none := by
  have hnext : t.eqos.txNext < eqosTxDescCount := h.next_eq ▸ Nat.mod_lt _ (by decide)
  refine not_not.1 (((h.inUse hinit).mapped _ hnext).not.2 ?_)
  rw [h.next_eq]
  exact ring_end_notMem h.queued_lt

/-- Under the lock, `Transmit` finds the ring full, fails to map the buffer, or queues it. -/
inductive FrameQueued (c : TransmitCall) (e : EqosState) (r : EfiStatus × Cells UInt8 × EqosState) :
    Prop
  | full (herr : efiError r.1 = true) (heq : r.2.2 = e)
  | unmapped (herr : efiError r.1 = true) (heq : r.2.2 = e.offered c.buffer)
  | queued (hok : r.1 = efiSuccess) (hfree : e.txQueued ≠ eqosTxDescCount - 1)
      (heq : ∃ mapping descs, r.2.2 = e.queuedFrame c.buffer mapping descs)

theorem eqosQueueFrame_yields {c : TransmitCall} (hb : c.buffer ≠ 0)
    (hmap : e.txBuffersMap e.txNext = none) :
    Yields (fun _ => False) (FrameQueued c e) (eqosQueueFrame c e) := by
  unfold eqosQueueFrame
  refine Yields.ite (fun _ => .full (efiError_encodeError 6) rfl) fun hfree => ?_
  refine Yields.bind (P := fun r => (efiError r.1 = true ∧ r.2 = e.offered c.buffer) ∨
    r.1 = efiSuccess ∧ ∃ mapping descs, r.2 = { e.offered c.buffer with
      txBuffersMap := Function.update e.txBuffersMap e.txNext (some mapping)
      txDescs := descs }) ?_ ?_
  · unfold eqosDmaMapTxDescriptor
    refine Yields.ite (fun hset => absurd hmap hset) fun _ => Yields.ite (fun hnull => ?_) fun _ => ?_
    · exact absurd ((Function.update_self e.txNext c.buffer e.txBuffers).symm.trans hnull) hb
    · exact Yields.ite (fun herr => .inl ⟨herr, rfl⟩) fun _ => .inr ⟨rfl, _, _, rfl⟩
  · rintro ⟨status, e'⟩ (⟨herr, heq⟩ | ⟨hok, mapping, descs, heq⟩)
    · exact Yields.ite (fun _ => .unmapped herr heq) fun hne => absurd herr hne
    · obtain rfl : status = efiSuccess := hok
      refine Yields.ite (fun hne => by simp at hne) fun _ => .queued rfl hfree ⟨mapping, descs, ?_⟩
      rw [heq]
      rfl

theorem TxRing.snpTransmit (h : TxRing t) {c : TransmitCall} :
    Yields (fun halt => ¬ halt.OfTx) TxRing (t.step (.snpTransmit c)) := by
  have hrefused : ∀ r : EfiStatus × Cells UInt8 × EqosState, efiError r.1 = true → r.2.2 = t.eqos →
      TxRing { t with
        eqos := r.2.2
        accepted := if efiError r.1 then t.accepted else t.accepted ++ [c.buffer] } := by
    intro r herr heq
    rw [if_pos herr, heq]
    exact h
  rw [EqosTrace.step]
  refine Yields.bind (P := fun r : EfiStatus × Cells UInt8 × EqosState => TxRing { t with
    eqos := r.2.2
    accepted := if efiError r.1 then t.accepted else t.accepted ++ [c.buffer] }) ?_ fun r hr => hr
  unfold eqosSnpTransmit
  refine Yields.ite (fun _ => hrefused _ efiError_invalidParameter rfl) fun hb => ?_
  split
  · rename_i hstate
    exact hrefused _ (eqosStateError_isError hstate) rfl
  · rename_i hstate
    have hinit := eqosStateError_eq_none hstate
    refine Yields.ite (fun _ => hrefused _ efiError_invalidParameter rfl) fun _ => ?_
    refine Yields.ite (fun _ => hrefused _ (efiError_encodeError 5) rfl) fun _ => ?_
    refine Yields.ite (fun _ => hrefused _ efiError_accessDenied rfl) fun _ => ?_
    refine (eqosQueueFrame_yields hb (h.map_next hinit)).imp (fun _ hhalt => hhalt.elim) ?_
    intro r hr
    cases hr with
    | full herr heq => exact hrefused r herr heq
    | unmapped herr heq =>
      rw [if_pos herr, heq]
      exact h.offered
    | queued hok hfree heq =>
      obtain ⟨mapping, descs, heq⟩ := heq
      rw [hok, if_neg (by simp), heq]
      exact h.queuedFrame hinit hb hfree

end Adding

section Runs

variable {t : EqosTrace} {event : EqosEvent}

/-- Each event keeps the ring, a `Reset` on its condition. -/
theorem TxRing.step (h : TxRing t) (hok : TxAllowed t event) :
    Yields (fun halt => ¬ halt.OfTx) TxRing (t.step event) := by
  cases event with
  | snpStart => exact h.snpStart
  | snpStop => exact h.snpStop
  | snpInitialize answer => exact h.snpInitialize
  | snpReset answer => exact h.snpReset hok
  | snpShutdown => exact h.snpShutdown
  | snpReceiveFilters c =>
    exact eqosSnpReceiveFilters_sameTx.bind fun r hr => h.congr hr rfl rfl
  | snpGetStatus c => exact (@TxRing.snpGetStatus t 0 [] h c).mono fun t' ht' => ht'.1
  | snpTransmit c => exact h.snpTransmit
  | snpReceive c => exact eqosSnpReceive_sameTx.bind fun r hr => h.congr hr rfl rfl
  | txDone w => exact h.congr dmaTransmits_sameTx rfl rfl
  | rxDone c =>
    rw [EqosTrace.step]
    split_ifs
    · exact h.congr ⟨rfl, rfl, rfl, rfl, rfl, rfl⟩ rfl rfl
    · exact h

/-- In whatever it is asked to do next. -/
theorem TxRing.noAssert (h : TxRing t) :
    Yields (fun halt => ¬ halt.OfTx) (fun _ => True) (t.step event) := by
  by_cases hok : TxAllowed t event
  · exact (h.step hok).mono fun _ _ => trivial
  · cases event with
    | snpReset answer =>
      exact (eqosSnpReset_yields.imp (fun _ => reset_halts_notOfTx) fun _ hr => hr).bind
        fun _ _ => trivial
    | _ => exact absurd trivial hok

theorem TxRing.law (h : TxRing t) (hinit : t.eqos.snpMode.state = .initialized) : TxRingLaw t where
  queued_le := Nat.le_sub_one_of_lt h.queued_lt
  next_eq := h.next_eq
  mapped := (h.inUse hinit).mapped
  noAssert _ := h.noAssert
  accounted := (h.inUse hinit).accounted
  returns c t' b rest hasked haccepted howned hstep := by
    have hqueue : t.eqos.txQueue = b :: rest :=
      List.append_cancel_left ((h.inUse hinit).accounted.symm.trans haccepted)
    have hpost := @TxRing.snpGetStatus t b rest h c
    rw [hstep] at hpost
    exact hpost.2 hinit hasked hqueue howned

/-- The driver comes up with an empty ring. -/
theorem TxRing.boot {rxBuffersAddr : ℕ} {rxBuffers : Cells UInt8} {hashTable : Cells UInt32}
    {packetFilter : UInt32} :
    TxRing (.init (eqosDriverBindingStart rxBuffersAddr rxBuffers hashTable packetFilter)) :=
  .init rfl rfl rfl fun _ _ => rfl

end Runs

section Law

/-- Runs whose restarts fail on an empty ring only keep the law wherever the interface is
initialized. -/
theorem eqosTxRing_lawful (rxBuffersAddr : ℕ) (rxBuffers : Cells UInt8) (hashTable : Cells UInt32)
    (packetFilter : UInt32) (t : EqosTrace)
    (h : EqosTrace.Reaches TxAllowed
      (eqosDriverBindingStart rxBuffersAddr rxBuffers hashTable packetFilter) t)
    (hinit : t.eqos.snpMode.state = .initialized) : TxRingLaw t :=
  TxRing.law (ReachedOk.invariant h TxRing.boot fun _ _ => TxRing.step) hinit

/-- A frame to transmit, its header filled in. -/
def transmitAt (buffer : ℕ) : TransmitCall where
  headerSize := 0
  bufferSize := 60
  buffer := buffer
  frame := fun _ => 0
  srcAddr := ⟨true, fun _ => 0⟩
  destAddr := ⟨true, fun _ => 0⟩
  protocol := ⟨true, 0⟩
  lock := true
  dmaMap := dmaMapDone

/-- A run that queues a frame. -/
def transmitRun : List EqosEvent :=
  [.snpStart, .snpInitialize (startMapping 2), .snpTransmit (transmitAt 0x5000)]

theorem transmitRun_reaches {allowed : EqosTrace → EqosEvent → Prop}
    (h : ∀ t, ∀ event ∈ transmitRun, allowed t event) :
    ∃ t, EqosTrace.Reaches allowed (boundAt 0x2000) t ∧ t.eqos.snpMode.state = .initialized ∧
      t.accepted = [0x5000] :=
  ⟨_, ReachedOk.start.of_run h rfl, rfl, rfl⟩

theorem eqosTxRing_lawful_queued : ∃ t, t.accepted = [0x5000] ∧ TxRingLaw t := by
  obtain ⟨t, ht, hinit, haccepted⟩ := @transmitRun_reaches TxAllowed (by simp [transmitRun, TxAllowed])
  exact ⟨t, haccepted, eqosTxRing_lawful _ _ _ _ t ht hinit⟩

/-- A `Reset` that cannot map its receive buffers leaves a frame queued whose mapping it has let
go. -/
theorem eqosSnpReset_strands_frame :
    ¬ ∀ t, EqosTrace.Reaches (fun _ _ => True) (boundAt 0x2000) t →
      t.eqos.snpMode.state = .initialized → TxRingLaw t := by
  intro h
  have hrun : ∃ t, EqosTrace.Reaches (fun _ _ => True) (boundAt 0x2000) t ∧
      t.eqos.snpMode.state = .initialized ∧ t.eqos.txCurrent = 0 ∧ t.eqos.txQueued = 1 ∧
      t.eqos.txBuffersMap 0 = none :=
    ⟨_, (ReachedOk.start.of_run (fun _ _ _ => trivial) (rfl :
        runOk EqosTrace.step (transmitRun ++ [.snpReset (startMapping 0)]) _ = .ok _)),
      rfl, rfl, rfl, rfl⟩
  obtain ⟨t, ht, hinit, hcurrent, hqueued, hmap⟩ := hrun
  refine ((h t ht hinit).mapped 0 (by decide)).2 ?_ hmap
  exact ⟨0, by rw [hqueued]; decide, by rw [hcurrent]; rfl⟩

end Law

end Edk2Rk3576
