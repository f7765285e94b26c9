import Edk2Rk3576.Eqos.Calls
import Edk2Rk3576.Lib.Yields

/-!
# What a start and a stop do

Each routine below the calls changes a few fields of the driver's state. What it makes of them, and
where it halts, is said once here.
-/

namespace Edk2Rk3576

open Cells

variable {e : EqosState} {answer : StartAnswer} {dmaMap : DmaMapAnswer} {i n : ℕ}

/-- The assertions of the transmit ring. -/
def EqosHalt.OfTx : EqosHalt → Prop
  | .txBuffersMapSet | .txBuffersNull | .txBuffersMapNull => True
  | _ => False

/-- The assertions of the receive ring. -/
def EqosHalt.OfRx : EqosHalt → Prop
  | .rxBuffersMapSet | .rxBuffersAddrNull | .rxBuffersMapNull => True
  | _ => False

section Unmapping

theorem eqosDmaUnmapTxDescriptor_eq :
    eqosDmaUnmapTxDescriptor i e =
      { e with txBuffersMap := Function.update e.txBuffersMap i none } := by
  unfold eqosDmaUnmapTxDescriptor
  split_ifs with h
  · rfl
  · rw [← not_not.1 h, Function.update_eq_self]

theorem eqosDmaUnmapRxDescriptor_eq :
    eqosDmaUnmapRxDescriptor i e =
      { e with rxBuffersMap := Function.update e.rxBuffersMap i none } := by
  unfold eqosDmaUnmapRxDescriptor
  split_ifs with h
  · rfl
  · rw [← not_not.1 h, Function.update_eq_self]

/-- The first `n` cells of a table of mappings are let go. -/
def unmapped (n : ℕ) (map : Cells (Option ℕ)) : Cells (Option ℕ) :=
  fun i => if i < n then none else map i

theorem unmapped_of_lt {map : Cells (Option ℕ)} (h : i < n) : unmapped n map i = none := if_pos h

theorem unmapped_succ {map : Cells (Option ℕ)} :
    Function.update (unmapped n map) n none = unmapped (n + 1) map := by
  funext i
  rcases lt_trichotomy i n with h | rfl | h
  · rw [Function.update_of_ne (by omega), unmapped_of_lt h, unmapped_of_lt (by omega)]
  · rw [Function.update_self, unmapped_of_lt (by omega)]
  · rw [Function.update_of_ne (by omega), unmapped, unmapped, if_neg (by omega), if_neg (by omega)]

theorem unmapped_zero {map : Cells (Option ℕ)} : unmapped 0 map = map := by
  funext i
  simp [unmapped]

theorem eqosDmaUnmapAllTxDescriptors_eq :
    eqosDmaUnmapAllTxDescriptors e =
      { e with txBuffersMap := unmapped eqosTxDescCount e.txBuffersMap } := by
  refine countUp_invariant
    (fun n s => s = { e with txBuffersMap := unmapped n e.txBuffersMap }) ?_ ?_
  · simp only [unmapped_zero]
  · rintro n - s rfl
    rw [eqosDmaUnmapTxDescriptor_eq, ← unmapped_succ]

theorem eqosDmaUnmapAllRxDescriptors_eq :
    eqosDmaUnmapAllRxDescriptors e =
      { e with rxBuffersMap := unmapped eqosRxDescCount e.rxBuffersMap } := by
  refine countUp_invariant
    (fun n s => s = { e with rxBuffersMap := unmapped n e.rxBuffersMap }) ?_ ?_
  · simp only [unmapped_zero]
  · rintro n - s rfl
    rw [eqosDmaUnmapRxDescriptor_eq, ← unmapped_succ]

/-- The state with both rings unmapped. -/
def EqosState.stopped (e : EqosState) : EqosState :=
  { e with
    txBuffersMap := unmapped eqosTxDescCount e.txBuffersMap
    rxBuffersMap := unmapped eqosRxDescCount e.rxBuffersMap }

theorem eqosStop_eq : eqosStop e = (efiSuccess, e.stopped) := by
  rw [EqosState.stopped, eqosStop, eqosDmaUnmapAllTxDescriptors_eq, eqosDmaUnmapAllRxDescriptors_eq]

end Unmapping

section Mapping

/-- Why mapping the receive descriptors from number `n` on can halt. -/
def MapRxHalts (e : EqosState) (n : ℕ) : EqosHalt → Prop
  | .rxBuffersMapSet => ∃ i, n ≤ i ∧ i < eqosRxDescCount ∧ e.rxBuffersMap i ≠ none
  | .rxBuffersAddrNull => e.rxBuffersAddr = 0
  | _ => False

/-- The state with descriptor `i` mapped, and the DMA engine's. -/
def mappedRx (i : ℕ) (dmaMap : DmaMapAnswer) (e : EqosState) : EqosState :=
  { e with
    rxBuffersMap := Function.update e.rxBuffersMap i (some dmaMap.mapping)
    rxDescs := Function.update e.rxDescs i
      { tdes0 := dmaMap.deviceAddress.toUInt32
        tdes1 := (dmaMap.deviceAddress >>> 32).toUInt32
        tdes2 := 0
        tdes3 := eqosTdes3RxOwn ||| eqosTdes3RxIoc ||| eqosTdes3RxBuf1v } }

theorem mappedRx_owned : rxOwned ((mappedRx i dmaMap e).rxDescs i).tdes3 = true := by
  simp only [mappedRx, Function.update_self]
  decide

theorem mappedRx_desc_of_ne {j : ℕ} (h : j ≠ i) :
    (mappedRx i dmaMap e).rxDescs j = e.rxDescs j := Function.update_of_ne h _ _

theorem mappedRx_map : (mappedRx i dmaMap e).rxBuffersMap i ≠ none := by
  simp [mappedRx]

theorem mappedRx_map_of_ne {j : ℕ} (h : j ≠ i) :
    (mappedRx i dmaMap e).rxBuffersMap j = e.rxBuffersMap j := Function.update_of_ne h _ _

theorem MapRxHalts.of_mappedRx {halt : EqosHalt}
    (h : MapRxHalts (mappedRx n dmaMap e) (n + 1) halt) : MapRxHalts e n halt := by
  cases halt with
  | rxBuffersMapSet =>
    obtain ⟨i, h1, h2, hmap⟩ := h
    exact ⟨i, by omega, h2, by rwa [mappedRx_map_of_ne (by omega)] at hmap⟩
  | rxBuffersAddrNull => exact h
  | _ => exact h.elim

/-- Mapping a receive descriptor halts, fails and leaves the state, or goes through. -/
theorem eqosDmaMapRxDescriptor_yields (hi : i < eqosRxDescCount) :
    Yields (MapRxHalts e i)
      (fun r => (efiError dmaMap.status = true ∧ r = (dmaMap.status, e)) ∨
        efiError dmaMap.status = false ∧ r = (efiSuccess, mappedRx i dmaMap e))
      (eqosDmaMapRxDescriptor i dmaMap e) := by
  unfold eqosDmaMapRxDescriptor
  refine Yields.ite (fun h => ⟨i, le_rfl, hi, h⟩) fun _ => Yields.ite (fun h => h) fun _ => ?_
  exact Yields.ite (fun h => .inl ⟨h, rfl⟩) fun h => .inr ⟨by simpa using h, rfl⟩

/-- The descriptors from number `n` on are mapped and the DMA engine's, the others as they were. -/
structure RxMapped (e : EqosState) (n : ℕ) (e' : EqosState) : Prop where
  eq : e' = { e with rxDescs := e'.rxDescs, rxBuffersMap := e'.rxBuffersMap }
  mapped : ∀ i, n ≤ i → i < eqosRxDescCount → e'.rxBuffersMap i ≠ none
  owned : ∀ i, n ≤ i → i < eqosRxDescCount → rxOwned (e'.rxDescs i).tdes3 = true
  before : ∀ i < n, e'.rxBuffersMap i = e.rxBuffersMap i ∧ e'.rxDescs i = e.rxDescs i

/-- None of the first descriptors is mapped. -/
structure RxUnmapped (e e' : EqosState) : Prop where
  eq : e' = { e with rxDescs := e'.rxDescs, rxBuffersMap := e'.rxBuffersMap }
  unmapped : ∀ i < eqosRxDescCount, e'.rxBuffersMap i = none

theorem RxMapped.step {e' : EqosState}
    (h : RxMapped (mappedRx n dmaMap e) (n + 1) e') : RxMapped e n e' where
  eq := h.eq
  mapped i h1 h2 := by
    rcases Nat.eq_or_lt_of_le h1 with rfl | h1
    · rw [(h.before n (by omega)).1]
      exact mappedRx_map
    · exact h.mapped i h1 h2
  owned i h1 h2 := by
    rcases Nat.eq_or_lt_of_le h1 with rfl | h1
    · rw [(h.before n (by omega)).2]
      exact mappedRx_owned
    · exact h.owned i h1 h2
  before i hi :=
    ⟨(h.before i (by omega)).1.trans (mappedRx_map_of_ne (by omega)),
      (h.before i (by omega)).2.trans (mappedRx_desc_of_ne (by omega))⟩

/-- The loop maps the descriptors left, or none stays mapped. The induction is on how many are
left. -/
theorem eqosDmaMapRxDescriptors_yields {rxMap : ℕ → DmaMapAnswer} {left : ℕ}
    (hleft : left ≤ eqosRxDescCount) :
    Yields (MapRxHalts e (eqosRxDescCount - left))
      (fun r =>
        (efiError r.1 = true ∧ (∃ i < eqosRxDescCount, efiError (rxMap i).status = true) ∧
          RxUnmapped e r.2) ∨
        r.1 = efiSuccess ∧
          (∀ i, eqosRxDescCount - left ≤ i → i < eqosRxDescCount →
            efiError (rxMap i).status = false) ∧
          RxMapped e (eqosRxDescCount - left) r.2)
      (eqosDmaMapRxDescriptors rxMap left e) := by
  induction left generalizing e with
  | zero =>
    refine .inr ⟨rfl, fun i h1 h2 => by omega, rfl, fun i h1 h2 => by omega,
      fun i h1 h2 => by omega, fun i _ => ⟨rfl, rfl⟩⟩
  | succ left ih =>
    have hn : eqosRxDescCount - (left + 1) < eqosRxDescCount := by omega
    rw [eqosDmaMapRxDescriptors]
    refine Yields.bind (eqosDmaMapRxDescriptor_yields hn) ?_
    rintro r (⟨herr, rfl⟩ | ⟨herr, rfl⟩)
    · refine Yields.ite (fun _ => .inl ⟨herr, ⟨_, hn, herr⟩, ?_⟩) fun h => absurd herr h
      rw [eqosDmaUnmapAllRxDescriptors_eq]
      exact ⟨rfl, fun i hi => unmapped_of_lt hi⟩
    · refine Yields.ite (fun h => by simp at h) fun _ => ?_
      have hsucc : eqosRxDescCount - left = eqosRxDescCount - (left + 1) + 1 := by omega
      generalize eqosRxDescCount - (left + 1) = n at hn herr hsucc
      have hrest := ih (e := mappedRx n (rxMap n) e) (by omega)
      rw [hsucc] at hrest
      refine hrest.imp ?_ ?_
      · exact fun halt h => h.of_mappedRx
      · rintro r (⟨hr, hfail, hun⟩ | ⟨hr, hok, hmap⟩)
        · exact .inl ⟨hr, hfail, hun.eq, hun.unmapped⟩
        · refine .inr ⟨hr, fun i h1 h2 => ?_, hmap.step⟩
          rcases Nat.eq_or_lt_of_le h1 with rfl | h1
          · exact herr
          · exact hok i h1 h2

theorem eqosDmaMapAllRxDescriptors_yields {rxMap : ℕ → DmaMapAnswer} :
    Yields (MapRxHalts e 0)
      (fun r =>
        (efiError r.1 = true ∧ (∃ i < eqosRxDescCount, efiError (rxMap i).status = true) ∧
          RxUnmapped e r.2) ∨
        r.1 = efiSuccess ∧ (∀ i < eqosRxDescCount, efiError (rxMap i).status = false) ∧
          RxMapped e 0 r.2)
      (eqosDmaMapAllRxDescriptors rxMap e) := by
  refine (eqosDmaMapRxDescriptors_yields le_rfl).imp (fun _ h => h) fun r h => ?_
  rcases h with h | ⟨hr, hok, hmap⟩
  · exact .inl h
  · exact .inr ⟨hr, fun i hi => hok i (by omega) hi, hmap⟩

end Mapping

section Starting

/-- The software reset comes to its end in time, and every receive buffer can be mapped. -/
structure StartAnswer.Succeeds (answer : StartAnswer) : Prop where
  reset : ∃ t < 2000, answer.swr t = false
  mapped : ∀ i < eqosRxDescCount, efiError (answer.rxMap i).status = false

/-- A start that failed has reset the receive filters, and maps nothing. -/
structure StartFailed (e : EqosState) (answer : StartAnswer) (e' : EqosState) : Prop where
  eq : e' = { e with
    hashTable := answer.hashTable
    packetFilter := answer.packetFilter
    rxDescs := e'.rxDescs
    rxBuffersMap := e'.rxBuffersMap }
  unmapped : (∀ i < eqosRxDescCount, e.rxBuffersMap i = none) →
    ∀ i < eqosRxDescCount, e'.rxBuffersMap i = none

/-- One that succeeded has emptied the rings, and given the DMA engine each receive buffer. -/
structure StartSucceeded (e : EqosState) (answer : StartAnswer) (e' : EqosState) : Prop where
  eq : e' = { eqosDmaInitDescriptorRings e with
    hashTable := answer.hashTable
    packetFilter := answer.packetFilter
    rxDescs := e'.rxDescs
    rxBuffersMap := e'.rxBuffersMap }
  mapped : ∀ i < eqosRxDescCount, e'.rxBuffersMap i ≠ none
  owned : ∀ i < eqosRxDescCount, rxOwned (e'.rxDescs i).tdes3 = true

theorem StartSucceeded.mode {e' : EqosState} (h : StartSucceeded e answer e') :
    e'.snpMode = e.snpMode := by
  rw [h.eq]
  rfl

/-- The state with the receive filters as the software reset leaves them. -/
def filtersReset (answer : StartAnswer) (e : EqosState) : EqosState :=
  { e with hashTable := answer.hashTable, packetFilter := answer.packetFilter }

theorem eqosInitialize_cases :
    (eqosInitialize answer e = (efiTimeout, filtersReset answer e) ∧
      ¬ ∃ t < 2000, answer.swr t = false) ∨
    eqosInitialize answer e = (efiSuccess, filtersReset answer e) ∧
      ∃ t < 2000, answer.swr t = false := by
  have hpoll : (pollFor (fun t => if answer.swr t then none else some ()) 2000 0).isSome ↔ _ :=
    pollFor_isSome
  have hswr : ∀ t, (if answer.swr (0 + t) then none else some ()).isSome = true ↔
      answer.swr t = false := fun t => by
    rw [Nat.zero_add]
    cases answer.swr t <;> simp
  simp only [hswr] at hpoll
  rw [← hpoll, eqosInitialize, eqosReset]
  cases pollFor (fun t => if answer.swr t then none else some ()) 2000 0 with
  | none => exact .inl ⟨rfl, by simp⟩
  | some r => exact .inr ⟨rfl, rfl⟩

/-- A start halts where it finds a receive buffer mapped, or fails, or succeeds. -/
theorem eqosStart_yields :
    Yields (MapRxHalts e 0)
      (fun r =>
        (efiError r.1 = true ∧ ¬ answer.Succeeds ∧ StartFailed e answer r.2) ∨
        r.1 = efiSuccess ∧ answer.Succeeds ∧ StartSucceeded e answer r.2)
      (eqosStart answer e) := by
  unfold eqosStart
  rcases @eqosInitialize_cases e answer with ⟨hinit, hswr⟩ | ⟨hinit, hswr⟩
  · rw [hinit]
    exact .inl ⟨rfl, fun h => hswr h.reset, rfl, fun h => h⟩
  · rw [hinit]
    refine Yields.bind (eqosDmaMapAllRxDescriptors_yields (e := filtersReset answer e)) ?_
    rintro ⟨status, e'⟩ (⟨herr, ⟨i, hi, hfail⟩, hun⟩ | ⟨hr, hok, hmap⟩)
    · refine Yields.ite (fun _ => .inl ⟨herr, fun h => ?_, hun.eq, fun _ => hun.unmapped⟩)
        fun h => absurd herr h
      rw [h.mapped i hi] at hfail
      cases hfail
    · obtain rfl : status = efiSuccess := hr
      refine Yields.ite (fun h => by simp at h) fun _ => .inr ⟨rfl, ⟨hswr, hok⟩, ?_, ?_, ?_⟩
      · exact congrArg eqosDmaInitDescriptorRings hmap.eq
      · exact fun i hi => hmap.mapped i (by omega) hi
      · exact fun i hi => hmap.owned i (by omega) hi

end Starting

section Filters

/-- Setting the receive filters touches their registers, and nothing else. -/
theorem eqosSetRxFilters_yields {setting : UInt32} {reset : Bool} {list : Cells EfiMacAddress} :
    Yields (fun halt => halt = .endless ∧ 2 ^ 32 ≤ n)
      (fun r => r.1 = efiSuccess ∧
        r.2 = { e with hashTable := r.2.hashTable, packetFilter := r.2.packetFilter })
      (eqosSetRxFilters setting reset n list e) := by
  unfold eqosSetRxFilters
  refine Yields.ite (fun _ => ⟨rfl, rfl⟩) fun _ => Yields.ite (fun _ => ⟨rfl, rfl⟩) fun _ => ?_
  refine Yields.ite (fun _ => ?_) fun _ => ⟨rfl, rfl⟩
  exact Yields.ite (fun hmany => ⟨rfl, hmany⟩) fun _ => ⟨rfl, rfl⟩

end Filters

section Calls

theorem eqosStateError_eq_none {state : EfiSimpleNetworkState}
    (h : eqosStateError state e = none) : e.snpMode.state = state := by
  unfold eqosStateError at h
  split_ifs at h with h1 h2
  exact not_not.1 h2

/-- A call that needs a state is refused with an error. -/
theorem eqosStateError_isError {state : EfiSimpleNetworkState} {status : EfiStatus}
    (h : eqosStateError state e = some status) : efiError status = true := by
  unfold eqosStateError at h
  split_ifs at h
  · obtain rfl : efiNotStarted = status := by simpa using h
    exact efiError_encodeError 19
  · obtain rfl : efiDeviceError = status := by simpa using h
    exact efiError_deviceError

/-- What an `Initialize` comes to. -/
inductive InitializeOutcome (e : EqosState) (answer : StartAnswer) (r : EfiStatus × EqosState) :
    Prop
  | refused (herr : efiError r.1 = true) (heq : r.2 = e)
  | failed (hstate : e.snpMode.state = .started) (herr : efiError r.1 = true)
      (hfailed : StartFailed e answer r.2)
  | done (hstate : e.snpMode.state = .started) (hok : r.1 = efiSuccess) (e' : EqosState)
      (hstarted : StartSucceeded e answer e') (heq : r.2 = e'.setState .initialized)

theorem eqosSnpInitialize_yields :
    Yields (fun halt => e.snpMode.state = .started ∧ MapRxHalts e 0 halt)
      (InitializeOutcome e answer) (eqosSnpInitialize answer e) := by
  unfold eqosSnpInitialize
  split
  · rename_i hrefused
    exact .refused (eqosStateError_isError hrefused) rfl
  · rename_i hnone
    have hstate := eqosStateError_eq_none hnone
    refine (eqosStart_yields.imp (fun _ hhalt => ⟨hstate, hhalt⟩) fun _ hr => hr).bind ?_
    rintro ⟨status, e'⟩ (⟨herr, -, hfailed⟩ | ⟨hok, -, hstarted⟩)
    · exact Yields.ite (fun _ => .failed hstate herr hfailed) fun hno => absurd herr hno
    · obtain rfl : status = efiSuccess := hok
      exact Yields.ite (fun hno => by simp at hno) fun _ => .done hstate rfl e' hstarted rfl

/-- What a `Reset` comes to. A restart that fails leaves the interface initialized, and stopped. -/
inductive ResetOutcome (e : EqosState) (answer : StartAnswer) (r : EfiStatus × EqosState) : Prop
  | refused (hstate : e.snpMode.state ≠ .initialized) (herr : efiError r.1 = true) (heq : r.2 = e)
  | failed (hstate : e.snpMode.state = .initialized) (herr : efiError r.1 = true)
      (hanswer : ¬ answer.Succeeds) (hfailed : StartFailed e.stopped answer r.2)
  | done (hstate : e.snpMode.state = .initialized) (hok : r.1 = efiSuccess)
      (hanswer : answer.Succeeds) (e' : EqosState) (hstarted : StartSucceeded e.stopped answer e')
      (heq : r.2 = { e' with hashTable := r.2.hashTable, packetFilter := r.2.packetFilter })
      (hset : eqosSetRxFilters e'.snpMode.receiveFilterSetting (e'.snpMode.mCastFilterCount == 0)
        e'.snpMode.mCastFilterCount e'.snpMode.mCastFilter e' = .ok r)

theorem eqosSnpReset_yields :
    Yields (fun halt => (halt = .endless ∧ 2 ^ 32 ≤ e.snpMode.mCastFilterCount) ∨
        MapRxHalts e.stopped 0 halt)
      (ResetOutcome e answer) (eqosSnpReset answer e) := by
  unfold eqosSnpReset
  cases hnone : eqosStateError .initialized e with
  | some status =>
    refine .refused (fun hstate => ?_) (eqosStateError_isError hnone) rfl
    simp [eqosStateError, hstate] at hnone
  | none =>
    have hstate := eqosStateError_eq_none hnone
    simp only [eqosStop_eq]
    refine (eqosStart_yields.imp (fun _ => .inr) fun _ hr => hr).bind ?_
    rintro ⟨status, e'⟩ (⟨herr, hanswer, hfailed⟩ | ⟨hok, hanswer, hstarted⟩)
    · exact Yields.ite (fun _ => .failed hstate herr hanswer hfailed) fun hno => absurd herr hno
    · obtain rfl : status = efiSuccess := hok
      refine Yields.ite (fun hno => by simp at hno) fun _ => ?_
      have hmode : e'.snpMode = e.snpMode := hstarted.mode
      refine eqosSetRxFilters_yields.eq_ok.imp (fun halt hhalt => .inl ?_) fun r hr =>
        .done hstate hr.1.1 hanswer e' hstarted hr.1.2 hr.2
      rw [← hmode]
      exact hhalt

theorem MapRxHalts.not_stopped {halt : EqosHalt} (h : MapRxHalts e.stopped 0 halt) :
    halt = .rxBuffersAddrNull ∧ e.rxBuffersAddr = 0 := by
  cases halt with
  | rxBuffersMapSet =>
    obtain ⟨i, -, hi, hset⟩ := h
    exact absurd (unmapped_of_lt hi) hset
  | rxBuffersAddrNull => exact ⟨rfl, h⟩
  | _ => exact h.elim

/-- What a `GetStatus` can touch. -/
theorem eqosSnpGetStatus_touches {c : GetStatusCall} :
    Yields (fun halt => ¬ halt.OfRx ∧ halt ≠ .endless)
      (fun r => r.2 = { e with
        snpMode := { e.snpMode with mediaPresent := r.2.snpMode.mediaPresent }
        txBuffersMap := r.2.txBuffersMap
        txCurrent := r.2.txCurrent
        txQueued := r.2.txQueued })
      (eqosSnpGetStatus c e) := by
  have hrecycle : ∀ e', Yields (fun halt => ¬ halt.OfRx ∧ halt ≠ .endless)
      (fun r : ℕ × EqosState => r.2 = { e' with
        txBuffersMap := r.2.txBuffersMap, txCurrent := r.2.txCurrent, txQueued := r.2.txQueued })
      (eqosRecycleTxBuffer e') := by
    intro e'
    unfold eqosRecycleTxBuffer
    refine Yields.ite (fun _ => ?_) fun _ => rfl
    refine Yields.ite (fun _ => ?_) fun _ => rfl
    refine Yields.ite (fun _ => ⟨id, by decide⟩) fun _ => ?_
    rw [eqosDmaUnmapTxDescriptor_eq]
    rfl
  unfold eqosSnpGetStatus
  split
  · rfl
  · unfold eqosUpdateLink
    refine Yields.bind (P := fun e' => ∃ mediaPresent, e' = { e with
      snpMode := { e.snpMode with mediaPresent := mediaPresent } }) ?_ ?_
    · exact Yields.ite (fun _ => ⟨id, by decide⟩) fun _ => ⟨_, rfl⟩
    · rintro e' ⟨mediaPresent, rfl⟩
      refine Yields.ite (fun _ => (hrecycle _).bind fun r hr => ?_) fun _ => rfl
      change r.2 = _
      rw [hr]

/-- What a `Transmit` can touch. -/
theorem eqosSnpTransmit_touches {c : TransmitCall} :
    Yields (fun halt => ¬ halt.OfRx ∧ halt ≠ .endless)
      (fun r => r.2.2 = { e with
        txBuffers := r.2.2.txBuffers
        txBuffersMap := r.2.2.txBuffersMap
        txDescs := r.2.2.txDescs
        txNext := r.2.2.txNext
        txQueued := r.2.2.txQueued })
      (eqosSnpTransmit c e) := by
  unfold eqosSnpTransmit
  refine Yields.ite (fun _ => rfl) fun _ => ?_
  split
  · rfl
  · refine Yields.ite (fun _ => rfl) fun _ => Yields.ite (fun _ => rfl) fun _ => ?_
    refine Yields.ite (fun _ => rfl) fun _ => ?_
    unfold eqosQueueFrame
    refine Yields.ite (fun _ => rfl) fun _ => ?_
    refine Yields.bind (P := fun r : EfiStatus × EqosState => r.2 = { e with
      txBuffers := r.2.txBuffers
      txBuffersMap := r.2.txBuffersMap
      txDescs := r.2.txDescs }) ?_ fun r hr => ?_
    · unfold eqosDmaMapTxDescriptor
      refine Yields.ite (fun _ => ⟨id, by decide⟩) fun _ => ?_
      refine Yields.ite (fun _ => ⟨id, by decide⟩) fun _ => ?_
      exact Yields.ite (fun _ => rfl) fun _ => rfl
    · refine Yields.ite (fun _ => ?_) fun _ => ?_
      · rw [hr]
        rfl
      · rw [hr]
        rfl

/-- What a `Receive` can touch. -/
theorem eqosSnpReceive_touches {c : ReceiveCall} :
    Yields (fun halt => ¬ halt.OfTx ∧ halt ≠ .endless)
      (fun r => r.2 = { e with
        rxDescs := r.2.rxDescs
        rxBuffersMap := r.2.rxBuffersMap
        rxCurrent := r.2.rxCurrent })
      (eqosSnpReceive c e) := by
  have hrelease : ∀ out, Yields (fun halt => ¬ halt.OfTx ∧ halt ≠ .endless)
      (fun r : ReceiveOut × EqosState => r.2 = { e with
        rxDescs := r.2.rxDescs, rxBuffersMap := r.2.rxBuffersMap, rxCurrent := r.2.rxCurrent })
      (eqosReleaseDesc c.dmaMap out (eqosDmaUnmapRxDescriptor e.rxCurrent e)) := by
    intro out
    rw [eqosDmaUnmapRxDescriptor_eq]
    unfold eqosReleaseDesc eqosDmaMapRxDescriptor
    refine Yields.bind (P := fun r : EfiStatus × EqosState => r.2 = { e with
      rxDescs := r.2.rxDescs, rxBuffersMap := r.2.rxBuffersMap }) ?_ fun r hr => ?_
    · refine Yields.ite (fun _ => ⟨id, by decide⟩) fun _ => ?_
      refine Yields.ite (fun _ => ⟨id, by decide⟩) fun _ => ?_
      exact Yields.ite (fun _ => rfl) fun _ => rfl
    · refine Yields.ite (fun _ => ?_) fun _ => ?_
      · rw [hr]
        rfl
      · rw [hr]
        rfl
  unfold eqosSnpReceive
  refine Yields.ite (fun _ => rfl) fun _ => ?_
  split
  · rfl
  · refine Yields.ite (fun _ => rfl) fun _ => ?_
    unfold eqosTakeFrame
    refine Yields.ite (fun _ => rfl) fun _ => Yields.ite (fun _ => ?_) fun _ => ?_
    · exact Yields.ite (fun _ => ⟨id, by decide⟩) fun _ => hrelease _
    · refine Yields.ite (fun _ => rfl) fun _ => ?_
      exact Yields.ite (fun _ => ⟨id, by decide⟩) fun _ => hrelease _

/-- What a `ReceiveFilters` that does not halt can touch: the mode, less its state, and the
registers. -/
theorem eqosSnpReceiveFilters_yields {c : ReceiveFiltersCall} :
    Yields (fun halt => halt = .endless)
      (fun r => r.2.snpMode.state = e.snpMode.state ∧ r.2 = { e with
        snpMode := r.2.snpMode, hashTable := r.2.hashTable, packetFilter := r.2.packetFilter })
      (eqosSnpReceiveFilters c e) := by
  have hset : ∀ mode : EfiSimpleNetworkMode, mode.state = e.snpMode.state →
      Yields (fun halt => halt = .endless)
        (fun r => r.2.snpMode.state = e.snpMode.state ∧ r.2 = { e with
          snpMode := r.2.snpMode, hashTable := r.2.hashTable, packetFilter := r.2.packetFilter })
        (eqosSetRxFilters (c.setting e.snpMode) c.resetMCastFilter c.mCastFilterCnt
          c.mCastFilter.target
          { e with snpMode := { mode with receiveFilterSetting := c.setting e.snpMode } }) := by
    intro mode hmode
    refine eqosSetRxFilters_yields.imp (fun _ hhalt => hhalt.1) fun r hr => ?_
    rw [hr.2]
    exact ⟨hmode, rfl⟩
  unfold eqosSnpReceiveFilters
  split
  · exact ⟨rfl, rfl⟩
  · refine Yields.ite (fun _ => ⟨rfl, rfl⟩) fun _ => Yields.ite (fun _ => hset _ rfl) fun _ => ?_
    refine Yields.ite (fun _ => ?_) fun _ => hset _ rfl
    exact Yields.ite (fun _ => ⟨rfl, rfl⟩) fun _ => hset _ rfl

end Calls

end Edk2Rk3576
