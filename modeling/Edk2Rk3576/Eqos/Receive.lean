import Edk2Rk3576.Eqos.Machine
import Edk2Rk3576.Lib.RingQueue

/-!
# The receive ring

All receive descriptors are the DMA engine's at a start. It completes them in their order, and
`Receive` takes the completions in that order and gives each descriptor back, unless the buffer of
the caller is too small for the frame.
-/

namespace Edk2Rk3576

open Cells

/-- The frame of a completion, if it is a good one. -/
def RxCompletion.frame (c : RxCompletion) : Option (ℕ × List UInt8) :=
  let check := eqosCheckRxDescriptor c.tdes3
  if efiError check.1 then none else some (frameIn check.2 c.data)

/-- The descriptor, and its buffer, hold a completion. -/
structure RxHolds (e : EqosState) (i : ℕ) (c : RxCompletion) : Prop where
  tdes3 : (e.rxDescs i).tdes3 = c.tdes3
  data : ∀ k < eqosRxBufferSize, e.rxBuffers (eqosRxBuffer i + k) = c.data k

/-- The descriptor `k` places on from `RxCurrent`. -/
def EqosState.rxPlace (e : EqosState) (k : ℕ) : ℕ := (e.rxCurrent + k) % eqosRxDescCount

/-- The place holds a completion, if there is one for it, and is else the DMA engine's. -/
def RxPlaceHolds (e : EqosState) (undelivered : List RxCompletion) (k : ℕ) : Prop :=
  match undelivered[k]? with
  | some c => RxHolds e (e.rxPlace k) c
  | none => rxOwned (e.rxDescs (e.rxPlace k)).tdes3 = true

/-- The completions not delivered yet, the oldest one first. -/
structure RxAccount (t : EqosTrace) (undelivered : List RxCompletion) : Prop where
  length_le : undelivered.length ≤ eqosRxDescCount
  places : ∀ k < eqosRxDescCount, RxPlaceHolds t.eqos undelivered k
  /-- What was completed before is delivered: each good frame once, in order. -/
  accounted : ∃ done, t.completed = done ++ undelivered ∧
    t.delivered = done.filterMap RxCompletion.frame

/-- The call gets to give the descriptor at `RxCurrent` back. -/
structure Releases (c : ReceiveCall) (e : EqosState) : Prop where
  buffer : c.buffer.isNull = false
  state : e.snpMode.state = .initialized
  lock : c.lock = true
  completed : rxOwned (e.rxDescs e.rxCurrent).tdes3 = false
  fits : (eqosCheckRxDescriptor (e.rxDescs e.rxCurrent).tdes3).1 = efiSuccess →
    (eqosCheckRxDescriptor (e.rxDescs e.rxCurrent).tdes3).2 ≤ c.bufferSize

/-- Each restart of a `Reset` succeeds, and so does the mapping of a descriptor given back. -/
def RxAllowed (t : EqosTrace) : EqosEvent → Prop
  | .snpReset answer => t.eqos.snpMode.state = .initialized → answer.Succeeds
  | .snpReceive c => Releases c t.eqos → efiError c.dmaMap.status = false
  | _ => True

/-- What is to hold of an initialized interface. -/
structure RxRingLaw (t : EqosTrace) : Prop where
  mapped : ∀ i < eqosRxDescCount, t.eqos.rxBuffersMap i ≠ none
  noAssert : ∀ event, Yields (fun halt => ¬ halt.OfRx) (fun _ => True) (t.step event)
  account : ∃ undelivered, RxAccount t undelivered
  /-- The oldest frame is delivered to a buffer it fits. -/
  delivers : ∀ c c₀ rest f t', RxAccount t (c₀ :: rest) → c₀.frame = some f →
    Releases c t.eqos → efiError c.dmaMap.status = false → t.step (.snpReceive c) = .ok t' →
    t'.delivered = t.delivered ++ [f] ∧ RxAccount t' rest
  /-- A buffer that is too small leaves it where it is. -/
  keeps : ∀ c r, RxAllowed t (.snpReceive c) → eqosSnpReceive c t.eqos = .ok r →
    r.1.status = efiBufferTooSmall → r.2 = t.eqos

section Invariant

/-- Of the initialized interface. -/
structure RxInUse (t : EqosTrace) (undelivered : List RxCompletion) : Prop
    extends RxAccount t undelivered where
  current_lt : t.eqos.rxCurrent < eqosRxDescCount
  dma_eq : t.eqos.rxDma = t.eqos.rxPlace undelivered.length
  mapped : ∀ i < eqosRxDescCount, t.eqos.rxBuffersMap i ≠ none

/-- What holds in each state of a run. -/
structure RxRing (t : EqosTrace) : Prop where
  addr_ne : t.eqos.rxBuffersAddr ≠ 0
  inUse : t.eqos.snpMode.state = .initialized → ∃ undelivered, RxInUse t undelivered
  idle : t.eqos.snpMode.state ≠ .initialized → ∀ i < eqosRxDescCount, t.eqos.rxBuffersMap i = none

/-- What the ring is made of is the same. -/
structure SameRx (e e' : EqosState) : Prop where
  state : e'.snpMode.state = e.snpMode.state
  descs : e'.rxDescs = e.rxDescs
  addr : e'.rxBuffersAddr = e.rxBuffersAddr
  buffers : e'.rxBuffers = e.rxBuffers
  map : e'.rxBuffersMap = e.rxBuffersMap
  current : e'.rxCurrent = e.rxCurrent
  dma : e'.rxDma = e.rxDma

variable {t t' : EqosTrace} {e e' : EqosState} {undelivered : List RxCompletion} {k i : ℕ}

theorem SameRx.refl (e : EqosState) : SameRx e e := ⟨rfl, rfl, rfl, rfl, rfl, rfl, rfl⟩

theorem SameRx.place_eq (h : SameRx e e') : e'.rxPlace k = e.rxPlace k := by
  rw [EqosState.rxPlace, EqosState.rxPlace, h.current]

theorem RxHolds.congr {c : RxCompletion} (h : RxHolds e i c) (hs : SameRx e e') :
    RxHolds e' i c where
  tdes3 := by rw [hs.descs, h.tdes3]
  data k hk := by rw [hs.buffers, h.data k hk]

theorem rxPlaceHolds_none (h : undelivered.length ≤ k) :
    RxPlaceHolds e undelivered k ↔ rxOwned (e.rxDescs (e.rxPlace k)).tdes3 = true := by
  rw [RxPlaceHolds, List.getElem?_eq_none h]

theorem rxPlaceHolds_some {c : RxCompletion} (h : undelivered[k]? = some c) :
    RxPlaceHolds e undelivered k ↔ RxHolds e (e.rxPlace k) c := by
  rw [RxPlaceHolds, h]

theorem RxPlaceHolds.congr (h : RxPlaceHolds e undelivered k) (hs : SameRx e e') :
    RxPlaceHolds e' undelivered k := by
  cases hk : undelivered[k]? with
  | some c =>
    rw [rxPlaceHolds_some hk] at h ⊢
    rw [hs.place_eq]
    exact h.congr hs
  | none =>
    rw [rxPlaceHolds_none (List.getElem?_eq_none_iff.1 hk)] at h ⊢
    rw [hs.place_eq, hs.descs]
    exact h

theorem RxRing.congr (h : RxRing t) (hs : SameRx t.eqos t'.eqos)
    (hcompleted : t'.completed = t.completed) (hdelivered : t'.delivered = t.delivered) :
    RxRing t' where
  addr_ne := by
    rw [hs.addr]
    exact h.addr_ne
  inUse hinit := by
    obtain ⟨undelivered, huse⟩ := h.inUse (hs.state ▸ hinit)
    refine ⟨undelivered, ⟨huse.length_le, fun k hk => (huse.places k hk).congr hs, ?_⟩, ?_, ?_, ?_⟩
    · rw [hcompleted, hdelivered]
      exact huse.accounted
    · rw [hs.current]
      exact huse.current_lt
    · rw [hs.dma, hs.place_eq]
      exact huse.dma_eq
    · rw [hs.map]
      exact huse.mapped
  idle hne := by
    rw [hs.map]
    exact h.idle (hs.state ▸ hne)

/-- An interface that is not initialized, with nothing mapped. -/
theorem RxRing.of_idle (haddr : t.eqos.rxBuffersAddr ≠ 0)
    (hmap : ∀ i < eqosRxDescCount, t.eqos.rxBuffersMap i = none)
    (hstate : t.eqos.snpMode.state ≠ .initialized) : RxRing t :=
  ⟨haddr, fun hinit => absurd hinit hstate, fun _ => hmap⟩

/-- A ring just started. -/
theorem RxRing.of_started (haddr : e.rxBuffersAddr ≠ 0) (hstate : e.snpMode.state = .initialized)
    (hcurrent : e.rxCurrent = 0) (hdma : e.rxDma = 0)
    (hmap : ∀ i < eqosRxDescCount, e.rxBuffersMap i ≠ none)
    (howned : ∀ i < eqosRxDescCount, rxOwned (e.rxDescs i).tdes3 = true) : RxRing (.init e) where
  addr_ne := haddr
  inUse _ := by
    refine ⟨[], ⟨Nat.zero_le _, fun k hk => ?_, [], rfl, rfl⟩, ?_, ?_, hmap⟩
    · exact (rxPlaceHolds_none (Nat.zero_le k)).2 (howned _ (Nat.mod_lt _ (by decide)))
    · change e.rxCurrent < eqosRxDescCount
      rw [hcurrent]
      decide
    · change e.rxDma = (e.rxCurrent + 0) % eqosRxDescCount
      rw [hcurrent, hdma]
      rfl
  idle hne := absurd hstate hne

end Invariant

section Starting

variable {t : EqosTrace} {answer : StartAnswer}

theorem reset_halts_notOfRx {e : EqosState} (haddr : e.rxBuffersAddr ≠ 0) {halt : EqosHalt}
    (h : (halt = .endless ∧ 2 ^ 32 ≤ e.snpMode.mCastFilterCount) ∨ MapRxHalts e.stopped 0 halt) :
    ¬ halt.OfRx := by
  rcases h with ⟨rfl, -⟩ | h
  · exact id
  · exact absurd h.not_stopped.2 haddr

theorem RxRing.snpStart (h : RxRing t) : RxRing { t with eqos := (eqosSnpStart t.eqos).2 } := by
  unfold eqosSnpStart
  split_ifs with h1 h2
  · exact h
  · exact h
  · exact .of_idle h.addr_ne (h.idle (by rw [not_not.1 h2]; decide))
      (EfiSimpleNetworkState.noConfusion : EfiSimpleNetworkState.started ≠ .initialized)

theorem RxRing.snpStop (h : RxRing t) : RxRing { t with eqos := (eqosSnpStop t.eqos).2 } := by
  unfold eqosSnpStop
  split
  · exact h
  · rename_i hstate
    exact .of_idle h.addr_ne (h.idle (by rw [eqosStateError_eq_none hstate]; decide))
      (EfiSimpleNetworkState.noConfusion : EfiSimpleNetworkState.stopped ≠ .initialized)

theorem RxRing.snpShutdown (h : RxRing t) :
    RxRing { t with eqos := (eqosSnpShutdown t.eqos).2 } := by
  unfold eqosSnpShutdown
  split
  · exact h
  · rw [eqosStop_eq]
    exact .of_idle h.addr_ne (fun i hi => unmapped_of_lt hi)
      (EfiSimpleNetworkState.noConfusion : EfiSimpleNetworkState.started ≠ .initialized)

theorem RxRing.snpInitialize (h : RxRing t) :
    Yields (fun halt => ¬ halt.OfRx) RxRing (t.step (.snpInitialize answer)) := by
  have hidle : t.eqos.snpMode.state = .started → t.eqos.snpMode.state ≠ .initialized := by
    intro hstate
    rw [hstate]
    decide
  refine (eqosSnpInitialize_yields.imp (fun halt hhalt => ?_) fun _ hr => hr).bind ?_
  · have hmap := h.idle (hidle hhalt.1)
    cases halt with
    | rxBuffersMapSet =>
      obtain ⟨i, -, hi, hset⟩ := hhalt.2
      exact absurd (hmap i hi) hset
    | rxBuffersAddrNull => exact absurd hhalt.2 h.addr_ne
    | _ => exact hhalt.2.elim
  · rintro r (⟨herr, heq⟩ | ⟨hstate, herr, hfailed⟩ | ⟨-, hok, e', hstarted, heq⟩)
    · rw [Yields, EqosTrace.restarted, if_pos herr, heq]
      exact h
    · rw [Yields, EqosTrace.restarted, if_pos herr]
      have hmap := h.idle (hidle hstate)
      refine .of_idle ?_ (hfailed.unmapped hmap) ?_
      · rw [hfailed.eq]
        exact h.addr_ne
      · rw [hfailed.eq]
        exact hidle hstate
    · rw [Yields, EqosTrace.restarted, hok, if_neg (by simp), heq]
      refine .of_started ?_ rfl ?_ ?_ hstarted.mapped hstarted.owned
      · rw [hstarted.eq]
        exact h.addr_ne
      · rw [hstarted.eq]
        rfl
      · rw [hstarted.eq]
        rfl

theorem RxRing.snpReset (h : RxRing t) (hok : RxAllowed t (.snpReset answer)) :
    Yields (fun halt => ¬ halt.OfRx) RxRing (t.step (.snpReset answer)) := by
  refine (eqosSnpReset_yields.imp (fun _ => reset_halts_notOfRx h.addr_ne) fun _ hr => hr).bind ?_
  rintro r (⟨-, herr, heq⟩ | ⟨hinit, -, hanswer, -⟩ | ⟨hinit, hsucc, -, e', hstarted, heq, -⟩)
  · rw [Yields, EqosTrace.restarted, if_pos herr, heq]
    exact h
  · exact absurd (hok hinit) hanswer
  · rw [Yields, EqosTrace.restarted, hsucc, if_neg (by simp), heq]
    refine .of_started ?_ ?_ ?_ ?_ hstarted.mapped hstarted.owned
    · rw [hstarted.eq]
      exact h.addr_ne
    · rw [hstarted.eq]
      exact hinit
    · rw [hstarted.eq]
      rfl
    · rw [hstarted.eq]
      rfl

end Starting

section Frame

variable {e : EqosState}

theorem eqosSnpReceiveFilters_sameRx {c : ReceiveFiltersCall} :
    Yields (fun halt => ¬ halt.OfRx) (fun r => SameRx e r.2) (eqosSnpReceiveFilters c e) := by
  refine eqosSnpReceiveFilters_yields.imp (fun halt hhalt => ?_) fun r ⟨hstate, heq⟩ => ?_
  · rw [hhalt]
    exact id
  · rw [heq]
    exact ⟨hstate, rfl, rfl, rfl, rfl, rfl, rfl⟩

theorem eqosSnpGetStatus_sameRx {c : GetStatusCall} :
    Yields (fun halt => ¬ halt.OfRx) (fun r => SameRx e r.2) (eqosSnpGetStatus c e) := by
  refine eqosSnpGetStatus_touches.imp (fun _ hhalt => hhalt.1) fun r hr => ?_
  rw [hr]
  exact ⟨rfl, rfl, rfl, rfl, rfl, rfl, rfl⟩

theorem eqosSnpTransmit_sameRx {c : TransmitCall} :
    Yields (fun halt => ¬ halt.OfRx) (fun r => SameRx e r.2.2) (eqosSnpTransmit c e) := by
  refine eqosSnpTransmit_touches.imp (fun _ hhalt => hhalt.1) fun r hr => ?_
  rw [hr]
  exact ⟨rfl, rfl, rfl, rfl, rfl, rfl, rfl⟩

theorem dmaTransmits_sameRx {w : TxWriteBack} : SameRx e (e.dmaTransmits w) := by
  unfold EqosState.dmaTransmits
  split_ifs
  · exact ⟨rfl, rfl, rfl, rfl, rfl, rfl, rfl⟩
  · exact SameRx.refl e

end Frame

section Filling

variable {t : EqosTrace} {e : EqosState} {undelivered : List RxCompletion} {i k : ℕ}

theorem RxAccount.not_owned (h : RxAccount t undelivered) (hk : k < undelivered.length) :
    rxOwned (t.eqos.rxDescs (t.eqos.rxPlace k)).tdes3 = false := by
  have hlen := h.length_le
  have hplace := h.places k (by omega)
  rw [rxPlaceHolds_some (List.getElem?_eq_getElem hk)] at hplace
  rw [hplace.tdes3]
  exact undelivered[k].released

theorem rxPlace_count (h : e.rxCurrent < eqosRxDescCount) :
    e.rxPlace eqosRxDescCount = e.rxCurrent := ring_around h

theorem rxPlace_zero (h : e.rxCurrent < eqosRxDescCount) : e.rxPlace 0 = e.rxCurrent := by
  rw [EqosState.rxPlace, Nat.add_zero, Nat.mod_eq_of_lt h]

/-- While the DMA engine has a descriptor left, one completion more can be held. -/
theorem RxInUse.length_lt (h : RxInUse t undelivered)
    (howned : rxOwned (t.eqos.rxDescs t.eqos.rxDma).tdes3 = true) :
    undelivered.length < eqosRxDescCount := by
  refine lt_of_le_of_ne h.length_le fun hfull => ?_
  have hfirst := h.not_owned (hfull ▸ (by decide : 0 < eqosRxDescCount))
  rw [rxPlace_zero h.current_lt] at hfirst
  rw [h.dma_eq, hfull, rxPlace_count h.current_lt, hfirst] at howned
  cases howned

theorem RxHolds.filled {c₀ c : RxCompletion} (h : RxHolds e i c₀) (hi : i ≠ e.rxDma) :
    RxHolds (e.filled c) i c₀ where
  tdes3 := by
    rw [EqosState.filled, ← h.tdes3]
    exact congrArg _ (Function.update_of_ne hi _ _)
  data k hk := by
    rw [← h.data k hk]
    refine write_of_notMem ?_
    simp only [eqosRxBuffer, eqosRxBufferSize] at hk ⊢
    omega

theorem RxHolds.of_filled {c : RxCompletion} : RxHolds (e.filled c) e.rxDma c where
  tdes3 := by simp [EqosState.filled]
  data _ hk := write_add hk

/-- The DMA engine adds its completion to those not delivered. -/
theorem RxInUse.filled (h : RxInUse t undelivered) {c : RxCompletion}
    (howned : rxOwned (t.eqos.rxDescs t.eqos.rxDma).tdes3 = true) :
    RxInUse { t with eqos := t.eqos.filled c, completed := t.completed ++ [c] }
      (undelivered ++ [c]) := by
  have hlt := h.length_lt howned
  have hne : ∀ k < eqosRxDescCount, k ≠ undelivered.length → t.eqos.rxPlace k ≠ t.eqos.rxDma := by
    intro k hk hkne heq
    exact hkne (ring_inj hk hlt (heq.trans h.dma_eq))
  refine ⟨⟨?_, fun k hk => ?_, ?_⟩, h.current_lt, ?_, h.mapped⟩
  · rw [List.length_append]
    exact hlt
  · have hplace := h.places k hk
    rcases lt_trichotomy k undelivered.length with hk' | rfl | hk'
    · rw [rxPlaceHolds_some (List.getElem?_eq_getElem hk')] at hplace
      rw [rxPlaceHolds_some
        ((List.getElem?_append_left hk').trans (List.getElem?_eq_getElem hk'))]
      exact hplace.filled (hne k hk hk'.ne)
    · rw [rxPlaceHolds_some List.getElem?_concat_length]
      change RxHolds _ (t.eqos.rxPlace undelivered.length) c
      rw [← h.dma_eq]
      exact .of_filled
    · rw [rxPlaceHolds_none hk'.le] at hplace
      rw [rxPlaceHolds_none (by rw [List.length_append]; exact hk')]
      refine (congrArg (fun d : EqosDmaDescriptor => rxOwned d.tdes3) ?_).trans hplace
      exact Function.update_of_ne (hne k hk hk'.ne') _ _
  · obtain ⟨done, hcompleted, hdelivered⟩ := h.accounted
    exact ⟨done, by rw [hcompleted, List.append_assoc], hdelivered⟩
  · rw [List.length_append]
    change eqosRxNext t.eqos.rxDma = (t.eqos.rxCurrent + (undelivered.length + 1)) % eqosRxDescCount
    rw [h.dma_eq, EqosState.rxPlace, eqosRxNext, Nat.mod_add_mod, Nat.add_assoc]

end Filling

section Releasing

variable {t : EqosTrace} {e : EqosState} {c₀ : RxCompletion} {rest : List RxCompletion}
  {dmaMap : DmaMapAnswer} {i k : ℕ}

/-- The state with the descriptor at `RxCurrent` given back. -/
def EqosState.released (dmaMap : DmaMapAnswer) (e : EqosState) : EqosState :=
  { mappedRx e.rxCurrent dmaMap
      { e with rxBuffersMap := Function.update e.rxBuffersMap e.rxCurrent none } with
    rxCurrent := eqosRxNext e.rxCurrent }

theorem released_place : (e.released dmaMap).rxPlace k = e.rxPlace (k + 1) := ring_next

theorem released_desc_of_ne (h : i ≠ e.rxCurrent) :
    (e.released dmaMap).rxDescs i = e.rxDescs i := mappedRx_desc_of_ne h

theorem released_owned : rxOwned ((e.released dmaMap).rxDescs e.rxCurrent).tdes3 = true :=
  mappedRx_owned

theorem released_map (h : ∀ i < eqosRxDescCount, e.rxBuffersMap i ≠ none)
    (hi : i < eqosRxDescCount) : (e.released dmaMap).rxBuffersMap i ≠ none := by
  by_cases hcurrent : i = e.rxCurrent
  · rw [hcurrent]
    exact mappedRx_map
  · refine fun hnone => h i hi ?_
    rw [← hnone]
    exact ((mappedRx_map_of_ne hcurrent).trans (Function.update_of_ne hcurrent _ _)).symm

/-- Giving the descriptor back takes the oldest completion off. -/
theorem RxInUse.released (h : RxInUse t (c₀ :: rest)) :
    RxInUse { t with
      eqos := t.eqos.released dmaMap
      delivered := t.delivered ++ c₀.frame.toList } rest := by
  have hlen := h.length_le
  rw [List.length_cons] at hlen
  refine ⟨⟨by omega, fun k hk => ?_, ?_⟩, Nat.mod_lt _ (by decide), ?_,
    fun i hi => released_map h.mapped hi⟩
  · rcases Nat.lt_or_eq_of_le (Nat.succ_le_of_lt hk) with hnext | hnext
    · have hplace := h.places (k + 1) hnext
      have hne : t.eqos.rxPlace (k + 1) ≠ t.eqos.rxCurrent := by
        rw [← rxPlace_zero h.current_lt]
        exact fun heq => Nat.succ_ne_zero k (ring_inj hnext (by decide) heq)
      cases hget : rest[k]? with
      | some c =>
        rw [rxPlaceHolds_some (List.getElem?_cons_succ.trans hget)] at hplace
        rw [rxPlaceHolds_some hget]
        refine ⟨?_, ?_⟩
        · rw [released_place, released_desc_of_ne hne]
          exact hplace.tdes3
        · rw [released_place]
          exact hplace.data
      | none =>
        have hpast := List.getElem?_eq_none_iff.1 hget
        rw [rxPlaceHolds_none (by rw [List.length_cons]; omega)] at hplace
        rw [rxPlaceHolds_none hpast, released_place, released_desc_of_ne hne]
        exact hplace
    · rw [rxPlaceHolds_none (by omega), released_place, ← Nat.succ_eq_add_one, hnext,
        rxPlace_count h.current_lt]
      exact released_owned
  · obtain ⟨done, hcompleted, hdelivered⟩ := h.accounted
    refine ⟨done ++ [c₀], by rw [hcompleted, List.append_assoc, List.singleton_append], ?_⟩
    rw [List.filterMap_append, ← hdelivered]
    cases hframe : c₀.frame <;> simp [hframe]
  · rw [released_place]
    exact h.dma_eq

end Releasing

section Receiving

variable {t : EqosTrace} {e : EqosState} {c : ReceiveCall} {dmaMap : DmaMapAnswer}
  {out : ReceiveOut}

/-- What `Receive` finds at `RxCurrent`. -/
def EqosState.rxCheck (e : EqosState) : EfiStatus × ℕ :=
  eqosCheckRxDescriptor (e.rxDescs e.rxCurrent).tdes3

theorem eqosCheckRxDescriptor_cases (tdes3 : UInt32) :
    (rxOwned tdes3 = true ∧ (eqosCheckRxDescriptor tdes3).1 = efiNotReady) ∨
    rxOwned tdes3 = false ∧ ((eqosCheckRxDescriptor tdes3).1 = efiDeviceError ∨
      (eqosCheckRxDescriptor tdes3).1 = efiSuccess) := by
  unfold eqosCheckRxDescriptor
  split_ifs with h1 h2 h3
  · exact .inl ⟨h1, rfl⟩
  · exact .inr ⟨by simpa using h1, .inl rfl⟩
  · exact .inr ⟨by simpa using h1, .inl rfl⟩
  · exact .inr ⟨by simpa using h1, .inr rfl⟩

/-- What a `Receive` comes to: nothing changes, or the descriptor at `RxCurrent` is given back, its
frame dropped or delivered, or it cannot be. -/
inductive Received (c : ReceiveCall) (e : EqosState) (r : ReceiveOut × EqosState) : Prop
  | kept (hkept : ¬ Releases c e) (herr : efiError r.1.status = true) (heq : r.2 = e)
  | unmapped (hreleases : Releases c e) (hfail : efiError c.dmaMap.status = true)
  | dropped (hreleases : Releases c e) (hbad : e.rxCheck.1 = efiDeviceError)
      (hstatus : r.1.status = efiDeviceError) (heq : r.2 = e.released c.dmaMap)
  | delivered (hreleases : Releases c e) (hgood : e.rxCheck.1 = efiSuccess)
      (hout : r.1 = c.copied e.snpMode e.rxBuffers (eqosRxBuffer e.rxCurrent) e.rxCheck.2)
      (heq : r.2 = e.released c.dmaMap)

theorem eqosReleaseDesc_yields (haddr : e.rxBuffersAddr ≠ 0) :
    Yields (fun _ => False)
      (fun r => efiError dmaMap.status = true ∨ r = (out, e.released dmaMap))
      (eqosReleaseDesc dmaMap out (eqosDmaUnmapRxDescriptor e.rxCurrent e)) := by
  rw [eqosDmaUnmapRxDescriptor_eq, eqosReleaseDesc, eqosDmaMapRxDescriptor]
  refine Yields.bind (P := fun r : EfiStatus × EqosState => efiError dmaMap.status = true ∨
    r = (efiSuccess, mappedRx e.rxCurrent dmaMap
      { e with rxBuffersMap := Function.update e.rxBuffersMap e.rxCurrent none })) ?_ ?_
  · refine Yields.ite (fun hset => hset (Function.update_self _ _ _)) fun _ => ?_
    exact Yields.ite (fun hzero => haddr hzero) fun _ => Yields.ite .inl fun _ => .inr rfl
  · rintro r (hfail | rfl)
    · exact Yields.ite (fun _ => .inl hfail) fun _ => .inl hfail
    · exact Yields.ite (fun hno => by simp at hno) fun _ => .inr rfl

theorem eqosTakeFrame_yields (hbuffer : c.buffer.isNull = false)
    (hstate : e.snpMode.state = .initialized) (hlock : c.lock = true)
    (haddr : e.rxBuffersAddr ≠ 0) (hmap : e.rxBuffersMap e.rxCurrent ≠ none) :
    Yields (fun _ => False) (Received c e) (eqosTakeFrame c e) := by
  unfold eqosTakeFrame
  rcases eqosCheckRxDescriptor_cases (e.rxDescs e.rxCurrent).tdes3 with
    ⟨howned, hcheck⟩ | ⟨howned, hcheck | hcheck⟩
  · rw [if_pos hcheck]
    refine .kept (fun h => ?_) (efiError_encodeError 6) rfl
    rw [h.completed] at howned
    cases howned
  · have hreleases : Releases c e :=
      ⟨hbuffer, hstate, hlock, howned,
        fun hgood => absurd (hcheck.symm.trans hgood) (encodeError_ne_success 7)⟩
    rw [if_neg (by rw [hcheck]; decide), if_pos (by rw [hcheck]; decide), if_neg hmap]
    refine (eqosReleaseDesc_yields haddr).mono fun r hr => ?_
    rcases hr with hfail | rfl
    · exact .unmapped hreleases hfail
    · exact .dropped hreleases hcheck hcheck rfl
  · rw [if_neg (by rw [hcheck]; decide), if_neg (by rw [hcheck]; decide)]
    refine Yields.ite (fun hsmall => ?_) fun hfits => ?_
    · exact .kept (fun h => absurd (h.fits hcheck) (by omega)) (efiError_encodeError 5) rfl
    · have hreleases : Releases c e :=
        ⟨hbuffer, hstate, hlock, howned, fun _ => not_lt.1 hfits⟩
      rw [if_neg hmap]
      refine (eqosReleaseDesc_yields haddr).mono fun r hr => ?_
      rcases hr with hfail | rfl
      · exact .unmapped hreleases hfail
      · exact .delivered hreleases hcheck rfl rfl

theorem eqosSnpReceive_yields (haddr : e.rxBuffersAddr ≠ 0)
    (hmap : e.snpMode.state = .initialized → e.rxBuffersMap e.rxCurrent ≠ none) :
    Yields (fun _ => False) (Received c e) (eqosSnpReceive c e) := by
  unfold eqosSnpReceive
  refine Yields.ite (fun hnull => ?_) fun hbuffer => ?_
  · exact .kept (fun h => by simp [h.buffer] at hnull) efiError_invalidParameter rfl
  · cases hnone : eqosStateError .initialized e with
    | some status =>
      refine .kept (fun h => ?_) (eqosStateError_isError hnone) rfl
      simp [eqosStateError, h.state] at hnone
    | none =>
      have hstate := eqosStateError_eq_none hnone
      refine Yields.ite (fun hlock => ?_) fun hlock => ?_
      · exact .kept (fun h => by simp [h.lock] at hlock) efiError_accessDenied rfl
      · exact eqosTakeFrame_yields (by simpa using hbuffer) hstate (by simpa using hlock) haddr
          (hmap hstate)

end Receiving

section Delivering

variable {t : EqosTrace} {c : ReceiveCall} {c₀ : RxCompletion} {rest : List RxCompletion}
  {undelivered : List RxCompletion} {r : ReceiveOut × EqosState}

/-- The trace after a `Receive`. -/
def EqosTrace.received (t : EqosTrace) (r : ReceiveOut × EqosState) : EqosTrace :=
  { t with
    eqos := r.2
    delivered :=
      if efiError r.1.status then t.delivered
      else t.delivered ++ [frameIn r.1.bufferSize r.1.buffer] }

/-- A call that gives the descriptor back takes the oldest completion. -/
theorem RxInUse.exists_cons (h : RxInUse t undelivered) (hreleases : Releases c t.eqos) :
    ∃ c₀ rest, undelivered = c₀ :: rest ∧ RxHolds t.eqos t.eqos.rxCurrent c₀ := by
  have hplace := h.places 0 (by decide)
  rw [RxPlaceHolds, rxPlace_zero h.current_lt] at hplace
  cases undelivered with
  | nil =>
    have howned : rxOwned (t.eqos.rxDescs t.eqos.rxCurrent).tdes3 = true := hplace
    rw [hreleases.completed] at howned
    cases howned
  | cons c₀ rest => exact ⟨c₀, rest, rfl, hplace⟩

theorem copied_buffer {mode : EfiSimpleNetworkMode} {rxBuffers : Cells UInt8} {frame n : ℕ} :
    (c.copied mode rxBuffers frame n).buffer =
      c.buffer.target.write 0 n fun k => rxBuffers (frame + k) := rfl

/-- The frame copied out is the one of the completion. -/
theorem RxHolds.frame_copied {e : EqosState} (h : RxHolds e e.rxCurrent c₀)
    (hgood : e.rxCheck.1 = efiSuccess) :
    c₀.frame = some (frameIn
      (c.copied e.snpMode e.rxBuffers (eqosRxBuffer e.rxCurrent) e.rxCheck.2).bufferSize
      (c.copied e.snpMode e.rxBuffers (eqosRxBuffer e.rxCurrent) e.rxCheck.2).buffer) := by
  have hcheck : eqosCheckRxDescriptor c₀.tdes3 = e.rxCheck := by rw [EqosState.rxCheck, h.tdes3]
  have hdata : ∀ k < min e.rxCheck.2 eqosRxBufferSize, c₀.data (0 + k) =
      (c.copied e.snpMode e.rxBuffers (eqosRxBuffer e.rxCurrent) e.rxCheck.2).buffer (0 + k) := by
    intro k hk
    rw [copied_buffer, write_add (lt_of_lt_of_le hk (min_le_left _ _)), Nat.zero_add,
      h.data k (lt_of_lt_of_le hk (min_le_right _ _))]
  simp only [RxCompletion.frame, hcheck, hgood]
  rw [if_neg (by simp), frameIn, slice_congr hdata]
  rfl

theorem RxHolds.frame_dropped {e : EqosState} (h : RxHolds e e.rxCurrent c₀)
    (hbad : e.rxCheck.1 = efiDeviceError) : c₀.frame = none := by
  have hcheck : eqosCheckRxDescriptor c₀.tdes3 = e.rxCheck := by rw [EqosState.rxCheck, h.tdes3]
  simp only [RxCompletion.frame, hcheck, hbad]
  rw [if_pos (by simp)]

/-- A `Receive` leaves the completions, or takes the oldest one and delivers its frame. -/
theorem RxInUse.received (h : RxInUse t undelivered)
    (hr : Received c t.eqos r) (hok : RxAllowed t (.snpReceive c)) :
    (¬ Releases c t.eqos ∧ r.2 = t.eqos ∧ RxInUse (t.received r) undelivered) ∨
    Releases c t.eqos ∧ r.1.status ≠ efiBufferTooSmall ∧ ∃ c₀ rest, undelivered = c₀ :: rest ∧
      (t.received r).delivered = t.delivered ++ c₀.frame.toList ∧ RxInUse (t.received r) rest := by
  cases hr with
  | kept hkept herr heq =>
    refine .inl ⟨hkept, heq, ?_⟩
    rw [EqosTrace.received, if_pos herr, heq]
    exact h
  | unmapped hreleases hfail =>
    rw [hok hreleases] at hfail
    cases hfail
  | dropped hreleases hbad hstatus heq =>
    obtain ⟨c₀, rest, rfl, hholds⟩ := h.exists_cons hreleases
    have hlog : (t.received r).delivered = t.delivered ++ c₀.frame.toList := by
      rw [EqosTrace.received, hstatus, if_pos efiError_deviceError, hholds.frame_dropped hbad]
      exact (List.append_nil _).symm
    have hrel := @RxInUse.released t c₀ rest c.dmaMap h
    rw [← heq, ← hlog] at hrel
    exact .inr ⟨hreleases, by rw [hstatus]; decide, c₀, rest, rfl, hlog, hrel⟩
  | delivered hreleases hgood hout heq =>
    obtain ⟨c₀, rest, rfl, hholds⟩ := h.exists_cons hreleases
    have hstatus : r.1.status = efiSuccess := by
      rw [hout]
      rfl
    have hlog : (t.received r).delivered = t.delivered ++ c₀.frame.toList := by
      rw [EqosTrace.received, hstatus, if_neg (by simp), hholds.frame_copied (c := c) hgood, hout]
      rfl
    have hrel := @RxInUse.released t c₀ rest c.dmaMap h
    rw [← heq, ← hlog] at hrel
    exact .inr ⟨hreleases, by rw [hstatus]; decide, c₀, rest, rfl, hlog, hrel⟩

end Delivering

section Runs

variable {t : EqosTrace} {event : EqosEvent} {undelivered : List RxCompletion}

theorem RxRing.map_current (h : RxRing t) (hinit : t.eqos.snpMode.state = .initialized) :
    t.eqos.rxBuffersMap t.eqos.rxCurrent ≠ none := by
  obtain ⟨_, huse⟩ := h.inUse hinit
  exact huse.mapped _ huse.current_lt

theorem RxRing.snpReceive (h : RxRing t) {c : ReceiveCall} (hok : RxAllowed t (.snpReceive c)) :
    Yields (fun halt => ¬ halt.OfRx) RxRing (t.step (.snpReceive c)) := by
  refine ((eqosSnpReceive_yields h.addr_ne h.map_current).imp (fun _ hhalt => hhalt.elim)
    fun _ hr => hr).bind fun r hr => ?_
  change RxRing (t.received r)
  have hstate : r.2.snpMode.state = t.eqos.snpMode.state ∧
      r.2.rxBuffersAddr = t.eqos.rxBuffersAddr := by
    cases hr with
    | kept hkept herr heq => rw [heq]; exact ⟨rfl, rfl⟩
    | unmapped hreleases hfail =>
      rw [hok hreleases] at hfail
      cases hfail
    | dropped hreleases hbad hstatus heq => rw [heq]; exact ⟨rfl, rfl⟩
    | delivered hreleases hgood hout heq => rw [heq]; exact ⟨rfl, rfl⟩
  refine ⟨hstate.2.symm ▸ h.addr_ne, fun hinit => ?_, fun hne => ?_⟩
  · obtain ⟨undelivered, huse⟩ := h.inUse (hstate.1.symm.trans hinit)
    rcases huse.received hr hok with ⟨-, -, huse'⟩ | ⟨-, -, -, rest, -, -, huse'⟩
    · exact ⟨undelivered, huse'⟩
    · exact ⟨rest, huse'⟩
  · have hne' : t.eqos.snpMode.state ≠ .initialized := fun hinit => hne (hstate.1.trans hinit)
    cases hr with
    | kept hkept herr heq =>
      change ∀ i < eqosRxDescCount, r.2.rxBuffersMap i = none
      rw [heq]
      exact h.idle hne'
    | unmapped hreleases _ => exact absurd hreleases.state hne'
    | dropped hreleases _ _ _ => exact absurd hreleases.state hne'
    | delivered hreleases _ _ _ => exact absurd hreleases.state hne'

theorem RxRing.rxDone (h : RxRing t) {c : RxCompletion} :
    Yields (fun halt => ¬ halt.OfRx) RxRing (t.step (.rxDone c)) := by
  rw [EqosTrace.step]
  split_ifs with howned
  · refine ⟨h.addr_ne, fun hinit => ?_, h.idle⟩
    obtain ⟨undelivered, huse⟩ := h.inUse hinit
    exact ⟨undelivered ++ [c], huse.filled howned⟩
  · exact h

/-- Each event keeps the ring, a `Reset` and a `Receive` on their conditions. -/
theorem RxRing.step (h : RxRing t) (hok : RxAllowed t event) :
    Yields (fun halt => ¬ halt.OfRx) RxRing (t.step event) := by
  cases event with
  | snpStart => exact h.snpStart
  | snpStop => exact h.snpStop
  | snpInitialize answer => exact h.snpInitialize
  | snpReset answer => exact h.snpReset hok
  | snpShutdown => exact h.snpShutdown
  | snpReceiveFilters c =>
    exact eqosSnpReceiveFilters_sameRx.bind fun r hr => h.congr hr rfl rfl
  | snpGetStatus c => exact eqosSnpGetStatus_sameRx.bind fun r hr => h.congr hr rfl rfl
  | snpTransmit c => exact eqosSnpTransmit_sameRx.bind fun r hr => h.congr hr rfl rfl
  | snpReceive c => exact h.snpReceive hok
  | txDone w => exact h.congr dmaTransmits_sameRx rfl rfl
  | rxDone c => exact h.rxDone

/-- Also where the mappings it asks for fail. -/
theorem RxRing.noAssert (h : RxRing t) :
    Yields (fun halt => ¬ halt.OfRx) (fun _ => True) (t.step event) := by
  by_cases hok : RxAllowed t event
  · exact (h.step hok).mono fun _ _ => trivial
  · cases event with
    | snpReset answer =>
      exact (eqosSnpReset_yields.imp (fun _ => reset_halts_notOfRx h.addr_ne) fun _ hr => hr).bind
        fun _ _ => trivial
    | snpReceive c =>
      exact ((eqosSnpReceive_yields h.addr_ne h.map_current).imp (fun _ hhalt => hhalt.elim)
        fun _ hr => hr).bind fun _ _ => trivial
    | _ => exact absurd trivial hok

/-- The places of the ring tell how many completions are held. -/
theorem RxAccount.length_le_of {other : List RxCompletion} (h : RxAccount t undelivered)
    (h' : RxAccount t other) : undelivered.length ≤ other.length := by
  by_contra hlt
  have hother : other.length < undelivered.length := not_le.1 hlt
  have hbound := h.length_le
  have howned := h'.places other.length (by omega)
  rw [rxPlaceHolds_none le_rfl, h.not_owned hother] at howned
  cases howned

theorem RxAccount.unique {other : List RxCompletion} (h : RxAccount t undelivered)
    (h' : RxAccount t other) : undelivered = other := by
  obtain ⟨done, hcompleted, -⟩ := h.accounted
  obtain ⟨done', hcompleted', -⟩ := h'.accounted
  exact (List.append_inj' (hcompleted.symm.trans hcompleted')
    (le_antisymm (h.length_le_of h') (h'.length_le_of h))).2

theorem RxRing.law (h : RxRing t) (hinit : t.eqos.snpMode.state = .initialized) :
    RxRingLaw t where
  mapped := by
    obtain ⟨_, huse⟩ := h.inUse hinit
    exact huse.mapped
  noAssert _ := h.noAssert
  account := by
    obtain ⟨undelivered, huse⟩ := h.inUse hinit
    exact ⟨undelivered, huse.toRxAccount⟩
  delivers c c₀ rest f t' haccount hframe hreleases hmap hstep := by
    obtain ⟨undelivered, huse⟩ := h.inUse hinit
    obtain rfl := huse.toRxAccount.unique haccount
    have hr := eqosSnpReceive_yields (c := c) h.addr_ne h.map_current
    rw [EqosTrace.step] at hstep
    cases hreceive : eqosSnpReceive c t.eqos with
    | error halt =>
      rw [hreceive] at hstep
      cases hstep
    | ok r =>
      rw [hreceive] at hr hstep
      obtain rfl : t.received r = t' := Except.ok.inj hstep
      rcases huse.received hr fun _ => hmap with
        ⟨hno, -⟩ | ⟨-, -, c₁, rest₁, hcons, hlog, huse'⟩
      · exact absurd hreleases hno
      · obtain ⟨rfl, rfl⟩ := List.cons.inj hcons
        exact ⟨by rw [hlog, hframe]; rfl, huse'.toRxAccount⟩
  keeps c r hok hreceive hsmall := by
    obtain ⟨undelivered, huse⟩ := h.inUse hinit
    have hr := eqosSnpReceive_yields (c := c) h.addr_ne h.map_current
    rw [hreceive] at hr
    rcases huse.received hr hok with ⟨-, heq, -⟩ | ⟨-, hne, -⟩
    · exact heq
    · exact absurd hsmall hne

/-- The driver comes up with nothing mapped. -/
theorem RxRing.boot {rxBuffersAddr : ℕ} (haddr : rxBuffersAddr ≠ 0) {rxBuffers : Cells UInt8}
    {hashTable : Cells UInt32} {packetFilter : UInt32} :
    RxRing (.init (eqosDriverBindingStart rxBuffersAddr rxBuffers hashTable packetFilter)) :=
  .of_idle haddr (fun _ _ => rfl)
    (EfiSimpleNetworkState.noConfusion : EfiSimpleNetworkState.stopped ≠ .initialized)

end Runs

section Law

/-- Runs whose receive buffers can be mapped, when a `Reset` or a `Receive` asks for it, keep the
law wherever the interface is initialized. The buffers are allocated memory, not at zero. -/
theorem eqosRxRing_lawful (rxBuffersAddr : ℕ) (haddr : rxBuffersAddr ≠ 0) (rxBuffers : Cells UInt8)
    (hashTable : Cells UInt32) (packetFilter : UInt32) (t : EqosTrace)
    (h : EqosTrace.Reaches RxAllowed
      (eqosDriverBindingStart rxBuffersAddr rxBuffers hashTable packetFilter) t)
    (hinit : t.eqos.snpMode.state = .initialized) : RxRingLaw t :=
  RxRing.law (ReachedOk.invariant h (RxRing.boot haddr) fun _ _ => RxRing.step) hinit

/-- A frame of 60 bytes that came in. -/
def frameIn60 : RxCompletion := ⟨0, 60, fun k => UInt8.ofNat k, by decide⟩

/-- A call with room for any frame. -/
def receiveInto (dmaMap : DmaMapAnswer) : ReceiveCall where
  headerSize := false
  bufferSize := 2048
  buffer := ⟨false, fun _ => 0⟩
  srcAddr := false
  destAddr := false
  protocol := false
  lock := true
  dmaMap := dmaMap

/-- A run that receives a frame. -/
def receiveRun (dmaMap : DmaMapAnswer) : List EqosEvent :=
  [.snpStart, .snpInitialize (startMapping 2), .rxDone frameIn60,
    .snpReceive (receiveInto dmaMap)]

theorem eqosRxRing_lawful_received : ∃ t, t.delivered.length = 1 ∧ RxRingLaw t := by
  have hrun : ∃ t, EqosTrace.Reaches RxAllowed (boundAt 0x2000) t ∧
      t.eqos.snpMode.state = .initialized ∧ t.delivered.length = 1 :=
    ⟨_, ReachedOk.start.of_run (by simp [receiveRun, RxAllowed, receiveInto, dmaMapDone]) (rfl :
      runOk EqosTrace.step (receiveRun dmaMapDone) _ = .ok _), rfl, rfl⟩
  obtain ⟨t, ht, hinit, hlog⟩ := hrun
  exact ⟨t, hlog, eqosRxRing_lawful 0x2000 (by decide) _ _ _ t ht hinit⟩

/-- A frame is copied out, and its receive buffer cannot be mapped again: it stays at `RxCurrent`,
unmapped. -/
theorem eqosSnpReceive_strands_descriptor :
    ¬ ∀ t, EqosTrace.Reaches (fun _ _ => True) (boundAt 0x2000) t →
      t.eqos.snpMode.state = .initialized → RxRingLaw t := by
  intro h
  have hrun : ∃ t, EqosTrace.Reaches (fun _ _ => True) (boundAt 0x2000) t ∧
      t.eqos.snpMode.state = .initialized ∧ t.eqos.rxBuffersMap 0 = none :=
    ⟨_, ReachedOk.start.of_run (fun _ _ _ => trivial) (rfl :
      runOk EqosTrace.step (receiveRun dmaMapFails) _ = .ok _), rfl, rfl⟩
  obtain ⟨t, ht, hinit, hmap⟩ := hrun
  exact (h t ht hinit).mapped 0 (by decide) hmap

end Law

end Edk2Rk3576
