import Edk2Rk3576.Vop2.PowerDomains

/-!
# The display power domains, one after another

The bring-up of a domain leaves the others to the PMU. A domain whose clocks are ungated for a
handshake that is given up keeps them so, unless the handshake of a later domain gates them.
-/

namespace Edk2Rk3576.Vop2

section Beside

variable {sched : ℕ → Answer} {pd pd' : PowerDomain} {o : PmuReg} {s t : Pmu} {n : ℕ}
  {asked asked' m v : BitVec 32}

/-- The PMUs have the same of the domain, apart from its clocks. -/
structure SameAt (pd : PowerDomain) (s t : Pmu) : Prop where
  time : s.time = t.time
  regs : ∀ o, o ≠ .clkUngate → s.regs o &&& pd.mask o = t.regs o &&& pd.mask o

theorem SameAt.isOn (h : SameAt pd s t) : IsOn pd s ↔ IsOn pd t := by
  have hrepair : s.regs .repairStatus &&& pd.pwrMask = t.regs .repairStatus &&& pd.pwrMask :=
    h.regs .repairStatus (by decide)
  have hidle : s.regs .idle &&& pd.reqMask = t.regs .idle &&& pd.reqMask := h.regs .idle (by decide)
  constructor
  · exact fun hs => ⟨hrepair ▸ hs.powered, hidle ▸ hs.active⟩
  · exact fun ht => ⟨hrepair.symm ▸ ht.powered, hidle.symm ▸ ht.active⟩

theorem SameAt.tick (h : SameAt pd s t) : SameAt pd (s.tick sched) (t.tick sched) where
  time := congrArg (· + 1) h.time
  regs o ho := by
    have hsched := congrArg sched h.time
    cases o
    · exact h.regs .req ho
    · simp only [Pmu.tick]
      rw [hsched]
      exact follow_and_congr (h.regs .req (by decide)) (h.regs .ack ho)
    · simp only [Pmu.tick]
      rw [hsched]
      exact follow_and_congr (h.regs .req (by decide)) (h.regs .idle ho)
    · exact absurd rfl ho
    · exact h.regs .pwr ho
    · simp only [Pmu.tick]
      rw [hsched]
      exact follow_and_congr (BitMask.not_and_congr (h.regs .pwr (by decide))) (h.regs .repairStatus ho)

/-- The masks of the domains have no bit in common, but for the clocks. -/
def PowerApart (pd' pd : PowerDomain) : Prop := ∀ o, o ≠ .clkUngate → pd'.mask o &&& pd.mask o = 0

theorem SameAt.write (h : SameAt pd s t) (hapart : PowerApart pd' pd) :
    SameAt pd (pmuHiwordWrite sched o (pd'.mask o) v s) (t.tick sched) where
  time := h.tick.time
  regs r hr := by
    have hsame : (pmuHiwordWrite sched o (pd'.mask o) v s).regs r &&& pd.mask r =
        (s.tick sched).regs r &&& pd.mask r := by
      refine hiwordWrite_and fun heq => ?_
      subst heq
      exact hapart r hr
    exact hsame.trans (h.tick.regs r hr)

/-- The bring-up of the one leaves the other to itself. -/
theorem powerDomainOn_sameAt (h : SameAt pd s ((Pmu.tick sched)^[n] t)) (hapart : PowerApart pd' pd) :
    ∃ n, SameAt pd (rk3576PowerDomainOn sched pd' s).2 ((Pmu.tick sched)^[n] t) := by
  refine powerDomainOn_invariant (I := fun s => ∃ n, SameAt pd s ((Pmu.tick sched)^[n] t))
    ⟨n, h⟩ ?_ ?_
  · rintro s ⟨n, hn⟩
    refine ⟨n + 1, ?_⟩
    rw [Function.iterate_succ_apply']
    exact hn.tick
  · rintro s o v - ⟨n, hn⟩
    refine ⟨n + 1, ?_⟩
    rw [Function.iterate_succ_apply']
    exact hn.write hapart

/-- The bring-up changes only what the domain's masks have. -/
theorem powerDomainOn_and (ho : o.writable) (h : pd.mask o &&& m = 0#32) :
    (rk3576PowerDomainOn sched pd s).2.regs o &&& m = s.regs o &&& m := by
  refine powerDomainOn_invariant (I := fun t => t.regs o &&& m = s.regs o &&& m) rfl ?_ ?_
  · intro t ht
    rw [tick_regs ho]
    exact ht
  · rintro t r v - ht
    rw [hiwordWrite_and fun heq => heq ▸ h, tick_regs ho]
    exact ht

theorem iterate_tick_time : ((Pmu.tick sched)^[n] s).time = s.time + n := by
  induction n with
  | zero => rfl
  | succ n ih =>
    rw [Function.iterate_succ_apply']
    exact congrArg (· + 1) ih

end Beside

/-! ### All the domains -/

def Message.timedOut : Message → Bool
  | .alreadyOn | .on => false
  | .powerTimeout | .idleAckTimeout | .idleTimeout => true

/-- Whether the clocks that the bring-up of the last domain ungated are left so. -/
def Message.ungates (before : Bool) : Message → Bool
  | .alreadyOn => before
  | .powerTimeout | .on => false
  | .idleAckTimeout | .idleTimeout => true

def leftUngated (outcomes : List Outcome) : Bool :=
  outcomes.foldl (fun before e => e.message.ungates before) false

/-- Each later domain is apart from the domain, and has its clocks among its own. -/
def Before (pd' pd : PowerDomain) : Prop :=
  PowerApart pd pd' ∧ pd'.clkUngateMask &&& pd.clkUngateMask = pd'.clkUngateMask

section Run

variable {sched : ℕ → Answer} {pd : PowerDomain} {pds rest : List PowerDomain} {b : BringUp}
  {s₀ : Pmu} {m : Message}

theorem error_status : efiError m.status = m.timedOut := by
  cases m <;> decide

theorem Message.eq_alreadyOn (hin : m.timedOut = false) (hran : m ≠ .on) : m = .alreadyOn := by
  cases m
  · rfl
  · cases hin
  · cases hin
  · cases hin
  · exact absurd rfl hran

/-- What has been done for the domains so far. -/
structure BringUp.Inv (sched : ℕ → Answer) (s₀ : Pmu) (pds : List PowerDomain) (b : BringUp) :
    Prop where
  domains : b.outcomes.map Outcome.pd = pds
  first : b.first = if b.outcomes.any (·.message.timedOut) then efiTimeout else efiSuccess
  alone : ∀ e ∈ b.outcomes, ∃ n, SameAt e.pd b.pmu ((Pmu.tick sched)^[n] e.left)
  held : ∀ e ∈ b.outcomes, e.message = .on → Held e.pd e.left
  gated : leftUngated b.outcomes = false →
    ∀ e ∈ b.outcomes, e.message ≠ .alreadyOn → Gated e.pd b.pmu
  ungated : leftUngated b.outcomes = true →
    ∃ e ∈ b.outcomes, e.message ≠ .alreadyOn ∧ Ungated e.pd b.pmu
  others : ∀ o, o.writable → ∀ m, (∀ pd ∈ pds, pd.mask o &&& m = 0#32) →
    b.pmu.regs o &&& m = s₀.regs o &&& m

theorem inv_start : BringUp.Inv sched s₀ [] ⟨efiSuccess, [], s₀⟩ where
  domains := rfl
  first := rfl
  alone _ he := absurd he List.not_mem_nil
  held _ he := absurd he List.not_mem_nil
  gated _ _ he := absurd he List.not_mem_nil
  ungated h := by cases h
  others _ _ _ _ := rfl

theorem Gated.of_mask {pd' : PowerDomain} {s : Pmu} (h : Gated pd s)
    (hmask : pd'.clkUngateMask &&& pd.clkUngateMask = pd'.clkUngateMask) : Gated pd' s := by
  rw [Gated, ← hmask, BitVec.and_comm pd'.clkUngateMask, ← BitVec.and_assoc, h]
  exact BitVec.zero_and

theorem leftUngated_concat {outcomes : List Outcome} {e : Outcome} :
    leftUngated (outcomes ++ [e]) = e.message.ungates (leftUngated outcomes) := by
  rw [leftUngated, List.foldl_append]
  rfl

theorem BringUp.Inv.next (h : b.Inv sched s₀ pds) (hbefore : ∀ pd' ∈ pds, Before pd' pd) :
    (b.next sched pd).Inv sched s₀ (pds ++ [pd]) where
  domains := by
    rw [← h.domains, BringUp.next, List.map_append]
    rfl
  first := by
    simp only [BringUp.next, List.any_append, List.any_cons, List.any_nil, Bool.or_false]
    rw [h.first, error_status]
    rcases hm : (rk3576PowerDomainOn sched pd b.pmu).1 <;>
      cases b.outcomes.any (·.message.timedOut) <;> rfl
  alone e he := by
    rcases List.mem_append.1 he with he | he
    · obtain ⟨n, hn⟩ := h.alone e he
      have hmem : e.pd ∈ pds := h.domains ▸ List.mem_map_of_mem he
      exact powerDomainOn_sameAt hn (hbefore e.pd hmem).1
    · obtain rfl := List.mem_singleton.1 he
      exact ⟨0, rfl, fun _ _ => rfl⟩
  held e he hon := by
    rcases List.mem_append.1 he with he | he
    · exact h.held e he hon
    · obtain rfl := List.mem_singleton.1 he
      have hleft := @powerDomainOn_left sched pd b.pmu
      rw [show (rk3576PowerDomainOn sched pd b.pmu).1 = .on from hon] at hleft
      exact hleft.2
  gated hgated e he hran := by
    have hleft := @powerDomainOn_left sched pd b.pmu
    rw [BringUp.next, leftUngated_concat] at hgated
    simp only at hgated
    have hcover : Gated pd (rk3576PowerDomainOn sched pd b.pmu).2 →
        Gated e.pd (rk3576PowerDomainOn sched pd b.pmu).2 := by
      intro hpd
      rcases List.mem_append.1 he with he | he
      · have hmem : e.pd ∈ pds := h.domains ▸ List.mem_map_of_mem he
        exact hpd.of_mask (hbefore e.pd hmem).2
      · obtain rfl := List.mem_singleton.1 he
        exact hpd
    rcases hm : (rk3576PowerDomainOn sched pd b.pmu).1 <;> rw [hm] at hleft hgated
    · rcases List.mem_append.1 he with he | he
      · have hsame : (rk3576PowerDomainOn sched pd b.pmu).2 = b.pmu.tick sched := hleft
        rw [BringUp.next, hsame]
        exact h.gated hgated e he hran
      · obtain rfl := List.mem_singleton.1 he
        exact absurd hm hran
    · exact hcover hleft
    · cases hgated
    · cases hgated
    · exact hcover hleft.1
  ungated hungated := by
    have hleft := @powerDomainOn_left sched pd b.pmu
    rw [BringUp.next, leftUngated_concat] at hungated
    simp only at hungated
    rcases hm : (rk3576PowerDomainOn sched pd b.pmu).1 <;> rw [hm] at hleft hungated
    · have hsame : (rk3576PowerDomainOn sched pd b.pmu).2 = b.pmu.tick sched := hleft
      obtain ⟨e, he, hran, hclk⟩ := h.ungated hungated
      refine ⟨e, List.mem_append_left _ he, hran, ?_⟩
      rw [BringUp.next, hsame]
      exact hclk
    · cases hungated
    · have hran : (rk3576PowerDomainOn sched pd b.pmu).1 ≠ .alreadyOn := by
        rw [hm]
        decide
      exact ⟨_, List.mem_append_right _ List.mem_cons_self, hran, hleft⟩
    · have hran : (rk3576PowerDomainOn sched pd b.pmu).1 ≠ .alreadyOn := by
        rw [hm]
        decide
      exact ⟨_, List.mem_append_right _ List.mem_cons_self, hran, hleft⟩
    · cases hungated
  others o ho m hm := by
    obtain ⟨hpds, hpd⟩ := List.forall_mem_append.1 hm
    rw [← h.others o ho m hpds]
    exact powerDomainOn_and ho (hpd pd List.mem_cons_self)

theorem BringUp.Inv.run (h : b.Inv sched s₀ pds) (hbefore : (pds ++ rest).Pairwise Before) :
    (rest.foldl (BringUp.next sched) b).Inv sched s₀ (pds ++ rest) := by
  induction rest generalizing pds b with
  | nil => simpa using h
  | cons pd rest ih =>
    obtain ⟨-, -, hpds⟩ := List.pairwise_append.1 hbefore
    have hnext := h.next fun pd' hpd' => hpds pd' hpd' pd List.mem_cons_self
    have hrest := ih hnext (by simpa using hbefore)
    rwa [List.append_assoc, List.singleton_append] at hrest

/-- What the PMU has of a domain is its own doing since the end of the bring-up of that domain. -/
theorem BringUp.Inv.isOn {e : Outcome} (h : b.Inv sched s₀ pds) (he : e ∈ b.outcomes) :
    IsOn e.pd b.pmu ↔ IsOn e.pd ((Pmu.tick sched)^[b.pmu.time - e.left.time] e.left) := by
  obtain ⟨n, hn⟩ := h.alone e he
  have htime := hn.time
  rw [iterate_tick_time] at htime
  rw [htime, Nat.add_sub_cancel_left]
  exact hn.isOn

theorem Held.iterate {s : Pmu} (h : Held pd s) (n : ℕ) : Held pd ((Pmu.tick sched)^[n] s) := by
  induction n with
  | zero => exact h
  | succ n ih =>
    rw [Function.iterate_succ_apply']
    exact ih.tick

end Run

/-! ### The result -/

section Result

variable (sched : ℕ → Answer) (s : Pmu)

/-- The bits of a register that are a display domain's. -/
def displayMask (o : PmuReg) : BitVec 32 :=
  mRk3576DisplayDomains.foldl (fun m pd => m ||| pd.mask o) 0

/-- What a bring-up that has the status and the PMU right does. -/
structure BringUpOk : Prop where
  status : (rk3576DisplayPowerDomainsOn sched s).first = efiSuccess ↔
    ∀ pd ∈ mRk3576DisplayDomains, IsOn pd (rk3576DisplayPowerDomainsOn sched s).pmu
  gated : ∀ e ∈ (rk3576DisplayPowerDomainsOn sched s).outcomes, e.message ≠ .alreadyOn →
    Gated e.pd (rk3576DisplayPowerDomainsOn sched s).pmu
  others : ∀ o, o.writable →
    (rk3576DisplayPowerDomainsOn sched s).pmu.regs o &&& ~~~displayMask o =
      s.regs o &&& ~~~displayMask o

/-- The domain is on at a time, if the PMU is left to itself from the end of its bring-up on. -/
def Outcome.OnAt (e : Outcome) (time : ℕ) : Prop :=
  IsOn e.pd ((Pmu.tick sched)^[time - e.left.time] e.left)

/-- No wait ran out, but the PMU does not have a domain on that was taken to be. -/
def MissedIdle (b : BringUp) : Prop :=
  (∀ e ∈ b.outcomes, e.message.timedOut = false) ∧
  ∃ e ∈ b.outcomes, e.message = .alreadyOn ∧ ¬ e.OnAt sched b.pmu.time

/-- A wait ran out, but the PMU has all the domains on after all. -/
def LateAnswer (b : BringUp) : Prop :=
  (∃ e ∈ b.outcomes, e.message.timedOut = true) ∧
  ∀ e ∈ b.outcomes, e.message ≠ .on → e.OnAt sched b.pmu.time

variable {sched s}

theorem displayPowerDomainsOn_inv :
    (rk3576DisplayPowerDomainsOn sched s).Inv sched s mRk3576DisplayDomains := by
  have hbefore : Before pdVop pdVo0 := by
    refine ⟨fun o ho => ?_, by decide⟩
    cases o <;> first | exact absurd rfl ho | decide
  exact inv_start.run (List.pairwise_pair.2 hbefore)

theorem first_eq_success : (rk3576DisplayPowerDomainsOn sched s).first = efiSuccess ↔
    ∀ e ∈ (rk3576DisplayPowerDomainsOn sched s).outcomes, e.message.timedOut = false := by
  rw [displayPowerDomainsOn_inv.first]
  constructor
  · intro hfirst e he
    rw [← Bool.not_eq_true]
    intro htimedOut
    rw [if_pos (List.any_eq_true.2 ⟨e, he, htimedOut⟩)] at hfirst
    exact encodeError_ne_success 18 hfirst
  · intro hnone
    refine if_neg fun hany => ?_
    obtain ⟨e, he, htimedOut⟩ := List.any_eq_true.1 hany
    rw [hnone e he] at htimedOut
    cases htimedOut

theorem all_isOn : (∀ pd ∈ mRk3576DisplayDomains,
      IsOn pd (rk3576DisplayPowerDomainsOn sched s).pmu) ↔
    ∀ e ∈ (rk3576DisplayPowerDomainsOn sched s).outcomes, e.message ≠ .on →
      e.OnAt sched (rk3576DisplayPowerDomainsOn sched s).pmu.time := by
  have hinv := @displayPowerDomainsOn_inv sched s
  constructor
  · intro hall e he _
    exact (hinv.isOn he).1 (hall e.pd (hinv.domains ▸ List.mem_map_of_mem he))
  · intro hall pd hpd
    rw [← hinv.domains] at hpd
    obtain ⟨e, he, rfl⟩ := List.mem_map.1 hpd
    rw [hinv.isOn he]
    by_cases hon : e.message = .on
    · exact ((hinv.held e he hon).iterate _).isOn
    · exact hall e he hon

/-- The status is right unless an early exit takes a domain to be on that is not, or the PMU answers
after all. -/
theorem status_iff : ((rk3576DisplayPowerDomainsOn sched s).first = efiSuccess ↔
      ∀ pd ∈ mRk3576DisplayDomains, IsOn pd (rk3576DisplayPowerDomainsOn sched s).pmu) ↔
    ¬ MissedIdle sched (rk3576DisplayPowerDomainsOn sched s) ∧
      ¬ LateAnswer sched (rk3576DisplayPowerDomainsOn sched s) := by
  rw [first_eq_success, all_isOn]
  constructor
  · intro hiff
    refine ⟨fun ⟨hnone, e, he, halready, hoff⟩ => hoff ?_, fun ⟨⟨e, he, htimedOut⟩, hall⟩ => ?_⟩
    · exact hiff.1 hnone e he (by rw [halready]; decide)
    · rw [hiff.2 hall e he] at htimedOut
      cases htimedOut
  · rintro ⟨hmissed, hlate⟩
    constructor
    · intro hnone e he hran
      by_contra hoff
      exact hmissed ⟨hnone, e, he, Message.eq_alreadyOn (hnone e he) hran, hoff⟩
    · intro hall e he
      rw [← Bool.not_eq_true]
      exact fun htimedOut => hlate ⟨⟨e, he, htimedOut⟩, hall⟩

theorem gated_iff : (∀ e ∈ (rk3576DisplayPowerDomainsOn sched s).outcomes,
      e.message ≠ .alreadyOn → Gated e.pd (rk3576DisplayPowerDomainsOn sched s).pmu) ↔
    leftUngated (rk3576DisplayPowerDomainsOn sched s).outcomes = false := by
  have hinv := @displayPowerDomainsOn_inv sched s
  constructor
  · intro hgated
    rw [← Bool.not_eq_true]
    intro hleft
    obtain ⟨e, he, hran, hungated⟩ := hinv.ungated hleft
    have hnone : e.pd.clkUngateMask = 0 := hungated.symm.trans (hgated e he hran)
    have hsome : ∀ pd ∈ mRk3576DisplayDomains, pd.clkUngateMask ≠ 0 := by decide
    exact hsome e.pd (hinv.domains ▸ List.mem_map_of_mem he) hnone
  · exact hinv.gated

/-- No other domain is touched. -/
theorem displayPowerDomainsOn_others (o : PmuReg) (ho : o.writable) :
    (rk3576DisplayPowerDomainsOn sched s).pmu.regs o &&& ~~~displayMask o =
      s.regs o &&& ~~~displayMask o := by
  refine displayPowerDomainsOn_inv.others o ho _ ?_
  cases o <;> decide

/-- A PMU that powers a domain at once, but never acknowledges that it has left idle. -/
def noAck : ℕ → Answer := fun _ => ⟨0, 0, BitVec.allOnes 32⟩

/-- The one domain is on, the other is off and idle. -/
def vo0Off : Pmu where
  time := 0
  regs
    | .req | .ack | .idle => 0x800
    | .clkUngate => 0
    | .pwr => 0x8000
    | .repairStatus => 0x800

theorem noAck_tick (s : Pmu) : (s.tick noAck).regs .ack = s.regs .ack := follow_zero

theorem vo0Off_message :
    (rk3576PowerDomainOn noAck pdVo0 (vo0Off.tick noAck)).1 = .idleAckTimeout := by
  have hnever : ∀ s, s.regs .ack = 0x800 →
      (pmuPollMasked noAck .ack pdVo0.reqMask 0 s).1 = false := by
    intro s hs
    refine pmuPollMasked_eq_false (I := fun s => s.regs .ack = 0x800) hs ?_ ?_
    · exact fun t ht => (noAck_tick t).trans ht
    · intro t ht
      rw [ht]
      decide
  simp only [rk3576PowerDomainOn]
  rw [if_neg (by decide), if_neg (by decide), hnever _ (by decide)]
  rfl

end Result

end Edk2Rk3576.Vop2
