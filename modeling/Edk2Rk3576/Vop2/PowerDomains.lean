import Edk2Rk3576.Efi
import Edk2Rk3576.Lib.Retry
import Edk2Rk3576.Lib.WriteEnable

/-!
# Display power domains

`Rk3576DisplayPowerDomainsOn` has the PMU power the display domains and take their network interface
units out of idle. The PMU answers when it likes, or not at all.
-/

namespace Edk2Rk3576.Vop2

/-- The registers of the PMU that the bring-up uses. -/
inductive PmuReg
  | req
  | ack
  | idle
  | clkUngate
  | pwr
  | repairStatus
  deriving DecidableEq

def PmuReg.writable : PmuReg → Bool
  | .req | .clkUngate | .pwr => true
  | .ack | .idle | .repairStatus => false

/-- The bits of each status that are brought to what is asked for. -/
structure Answer where
  ack : BitVec 32
  idle : BitVec 32
  repair : BitVec 32

/-- The registers, and how often the PMU has had the time to answer. -/
structure Pmu where
  time : ℕ
  regs : PmuReg → BitVec 32

def follow (answered asked status : BitVec 32) : BitVec 32 :=
  status &&& ~~~answered ||| asked &&& answered

/-- A domain whose power switch is released is asked to report that it is powered. -/
def Pmu.tick (sched : ℕ → Answer) (s : Pmu) : Pmu where
  time := s.time + 1
  regs
    | .ack => follow (sched s.time).ack (s.regs .req) (s.regs .ack)
    | .idle => follow (sched s.time).idle (s.regs .req) (s.regs .idle)
    | .repairStatus =>
      follow (sched s.time).repair (~~~s.regs .pwr) (s.regs .repairStatus)
    | o => s.regs o

/-- The masks of a domain are in the lower half of the registers. -/
structure PowerDomain where
  pwrMask : BitVec 32
  reqMask : BitVec 32
  clkUngateMask : BitVec 32
  pwr_lt : pwrMask.toNat < 2 ^ 16 := by decide
  req_lt : reqMask.toNat < 2 ^ 16 := by decide
  clkUngate_lt : clkUngateMask.toNat < 2 ^ 16 := by decide
  deriving DecidableEq

def pdVop : PowerDomain where
  pwrMask := 0x800
  reqMask := 0x6000
  clkUngateMask := 0x6000

def pdVo0 : PowerDomain where
  pwrMask := 0x8000
  reqMask := 0x800
  clkUngateMask := 0x6800

def mRk3576DisplayDomains : List PowerDomain := [pdVop, pdVo0]

def rk3576PmuPollUs : ℕ := 10000
def rk3576PmuStepUs : ℕ := 10

/-- What the bring-up of a domain prints when it ends. -/
inductive Message
  | alreadyOn
  | powerTimeout
  | idleAckTimeout
  | idleTimeout
  | on
  deriving DecidableEq

def Message.status : Message → EfiStatus
  | .alreadyOn | .on => efiSuccess
  | .powerTimeout | .idleAckTimeout | .idleTimeout => efiTimeout

section Driver

variable (sched : ℕ → Answer)

def pmuRead (o : PmuReg) (s : Pmu) : BitVec 32 × Pmu := ((s.tick sched).regs o, s.tick sched)

def pmuHiwordWrite (o : PmuReg) (mask value : BitVec 32) (s : Pmu) : Pmu where
  time := (s.tick sched).time
  regs := Function.update (s.tick sched).regs o
    (writeEnabled ((s.tick sched).regs o) (mask <<< 16 ||| value &&& mask))

/-- A pass of `PmuPollMasked`; the PMU has time to answer during the delay as well. -/
def pmuPoll (o : PmuReg) (mask expected : BitVec 32) (s : Pmu) : Bool × Pmu :=
  let r := pmuRead sched o s
  if r.1 &&& mask = expected then (true, r.2) else (false, r.2.tick sched)

def pmuPollMasked (o : PmuReg) (mask expected : BitVec 32) (s : Pmu) : Bool × Pmu :=
  retry (pmuPoll sched o mask expected) (rk3576PmuPollUs / rk3576PmuStepUs) s

/-- The messages of timeouts read the status once more. -/
def rk3576PowerDomainOn (pd : PowerDomain) (s : Pmu) : Message × Pmu :=
  let check := pmuRead sched .repairStatus s
  if check.1 &&& pd.pwrMask ≠ 0 then (.alreadyOn, check.2)
  else
    let ungated := pmuHiwordWrite sched .clkUngate pd.clkUngateMask pd.clkUngateMask check.2
    let released := pmuHiwordWrite sched .pwr pd.pwrMask 0 ungated
    let power := pmuPollMasked sched .repairStatus pd.pwrMask pd.pwrMask released
    if !power.1 then
      let printed := (pmuRead sched .repairStatus power.2).2
      (.powerTimeout, pmuHiwordWrite sched .clkUngate pd.clkUngateMask 0 printed)
    else
      let requested := pmuHiwordWrite sched .req pd.reqMask 0 power.2
      let ack := pmuPollMasked sched .ack pd.reqMask 0 requested
      if !ack.1 then (.idleAckTimeout, (pmuRead sched .ack ack.2).2)
      else
        let idle := pmuPollMasked sched .idle pd.reqMask 0 ack.2
        if !idle.1 then (.idleTimeout, (pmuRead sched .idle idle.2).2)
        else (.on, pmuHiwordWrite sched .clkUngate pd.clkUngateMask 0 idle.2)

/-- How the bring-up of a domain ended, and the PMU as it was then. -/
structure Outcome where
  pd : PowerDomain
  message : Message
  left : Pmu

/-- The variable `First`, what has been printed, and the PMU. -/
structure BringUp where
  first : EfiStatus
  outcomes : List Outcome
  pmu : Pmu

/-- The body of the loop over the domains. -/
def BringUp.next (b : BringUp) (pd : PowerDomain) : BringUp :=
  let r := rk3576PowerDomainOn sched pd b.pmu
  { first := if efiError r.1.status && !efiError b.first then r.1.status else b.first
    outcomes := b.outcomes ++ [⟨pd, r.1, r.2⟩]
    pmu := r.2 }

def rk3576DisplayPowerDomainsOn (s : Pmu) : BringUp :=
  mRk3576DisplayDomains.foldl (BringUp.next sched) ⟨efiSuccess, [], s⟩

end Driver

/-! ### A domain -/

/-- The bits of a register that are the domain's. -/
def PowerDomain.mask (pd : PowerDomain) : PmuReg → BitVec 32
  | .req | .ack | .idle => pd.reqMask
  | .clkUngate => pd.clkUngateMask
  | .pwr | .repairStatus => pd.pwrMask

/-- The domain is powered and its network interface unit is out of idle. -/
structure IsOn (pd : PowerDomain) (s : Pmu) : Prop where
  powered : s.regs .repairStatus &&& pd.pwrMask = pd.pwrMask
  active : s.regs .idle &&& pd.reqMask = 0

/-- The power switch is released, so that the domain stays powered. -/
structure Powered (pd : PowerDomain) (s : Pmu) : Prop where
  powered : s.regs .repairStatus &&& pd.pwrMask = pd.pwrMask
  released : s.regs .pwr &&& pd.pwrMask = 0

/-- Nothing else is asked for, so that it stays on. -/
structure Held (pd : PowerDomain) (s : Pmu) : Prop extends Powered pd s where
  active : s.regs .idle &&& pd.reqMask = 0
  requested : s.regs .req &&& pd.reqMask = 0

theorem Held.isOn {pd : PowerDomain} {s : Pmu} (h : Held pd s) : IsOn pd s := ⟨h.powered, h.active⟩

def Gated (pd : PowerDomain) (s : Pmu) : Prop := s.regs .clkUngate &&& pd.clkUngateMask = 0

def Ungated (pd : PowerDomain) (s : Pmu) : Prop :=
  s.regs .clkUngate &&& pd.clkUngateMask = pd.clkUngateMask

section Steps

variable {sched : ℕ → Answer} {pd pd' : PowerDomain} {o r : PmuReg} {s t : Pmu} {n : ℕ}
  {a asked asked' status status' m v mask expected : BitVec 32} {I : Pmu → Prop}

theorem follow_and_congr (hasked : asked &&& m = asked' &&& m)
    (hstatus : status &&& m = status' &&& m) :
    follow a asked status &&& m = follow a asked' status' &&& m := by
  ext i hi
  have hasked := congrArg (fun b => b[i]) hasked
  have hstatus := congrArg (fun b => b[i]) hstatus
  simp only [BitVec.getElem_and] at hasked hstatus
  simp only [follow, BitVec.getElem_and, BitVec.getElem_or, BitVec.getElem_not]
  cases hm : m[i]
  · simp
  · rw [hm, Bool.and_true, Bool.and_true] at hasked hstatus
    rw [hasked, hstatus]

/-- A status that is what is asked for stays so. -/
theorem follow_and (h : status &&& m = asked &&& m) : follow a asked status &&& m = asked &&& m := by
  rw [follow_and_congr rfl h]
  ext i hi
  simp only [follow, BitVec.getElem_and, BitVec.getElem_or, BitVec.getElem_not]
  cases a[i] <;> simp

theorem follow_zero : follow 0#32 asked status = status := by
  rw [follow, BitVec.and_zero, BitVec.or_zero, BitVec.not_zero, BitVec.and_allOnes]

theorem PowerDomain.mask_lt (pd : PowerDomain) (o : PmuReg) : (pd.mask o).toNat < 2 ^ 16 := by
  cases o
  · exact pd.req_lt
  · exact pd.req_lt
  · exact pd.req_lt
  · exact pd.clkUngate_lt
  · exact pd.pwr_lt
  · exact pd.pwr_lt

theorem tick_regs (h : o.writable) : (s.tick sched).regs o = s.regs o := by
  cases o
  · rfl
  · cases h
  · cases h
  · rfl
  · rfl
  · cases h

theorem Powered.tick (h : Powered pd s) : Powered pd (s.tick sched) where
  powered := by
    have hasked : ~~~s.regs .pwr &&& pd.pwrMask = pd.pwrMask := BitMask.not_and_of_apart h.released
    exact (follow_and (h.powered.trans hasked.symm)).trans hasked
  released := h.released

theorem Held.tick (h : Held pd s) : Held pd (s.tick sched) where
  toPowered := h.toPowered.tick
  active := (follow_and (h.active.trans h.requested.symm)).trans h.requested
  requested := h.requested

theorem hiwordWrite_regs : (pmuHiwordWrite sched o mask v s).regs = Function.update
    (s.tick sched).regs o (writeEnabled ((s.tick sched).regs o) (mask <<< 16 ||| v &&& mask)) := rfl

/-- What is written, in the bits of the mask. -/
theorem hiwordWrite_and_mask :
    (pmuHiwordWrite sched o (pd.mask o) v s).regs o &&& pd.mask o = v &&& pd.mask o := by
  rw [hiwordWrite_regs, Function.update_self, writeEnabled_and_mask (pd.mask_lt o)]

theorem hiwordWrite_and (h : r = o → pd.mask o &&& m = 0#32) :
    (pmuHiwordWrite sched o (pd.mask o) v s).regs r &&& m = (s.tick sched).regs r &&& m := by
  rw [hiwordWrite_regs]
  by_cases hr : r = o
  · subst hr
    rw [Function.update_self, writeEnabled_and (pd.mask_lt r) (h rfl)]
  · rw [Function.update_of_ne hr]

theorem pmuPoll_cases : ((s.tick sched).regs o &&& mask = expected ∧
      pmuPoll sched o mask expected s = (true, s.tick sched)) ∨
    pmuPoll sched o mask expected s = (false, (s.tick sched).tick sched) := by
  by_cases h : (s.tick sched).regs o &&& mask = expected
  · exact .inl ⟨h, if_pos h⟩
  · exact .inr (if_neg h)

theorem pmuPollMasked_invariant (h : I s) (htick : ∀ s, I s → I (s.tick sched)) :
    I (pmuPollMasked sched o mask expected s).2 := by
  refine retry_invariant (I := I) h fun s hs => ?_
  rcases pmuPoll_cases (s := s) with ⟨_, heq⟩ | heq
  · rw [heq]
    exact htick s hs
  · rw [heq]
    exact htick _ (htick s hs)

/-- What a poll that ended in time has seen. -/
theorem pmuPollMasked_seen (h : (pmuPollMasked sched o mask expected s).1) :
    (pmuPollMasked sched o mask expected s).2.regs o &&& mask = expected := by
  obtain ⟨s', hs'⟩ := retry_eq_attempt h
  rw [pmuPollMasked] at h ⊢
  rw [hs'] at h ⊢
  rcases pmuPoll_cases (s := s') with ⟨hseen, heq⟩ | heq
  · rw [heq]
    exact hseen
  · rw [heq] at h
    cases h

theorem pmuPollMasked_eq_false (h : I s) (htick : ∀ s, I s → I (s.tick sched))
    (hne : ∀ s, I s → s.regs o &&& mask ≠ expected) :
    (pmuPollMasked sched o mask expected s).1 = false := by
  rw [← Bool.not_eq_true]
  exact fun hseen => hne _ (pmuPollMasked_invariant h htick) (pmuPollMasked_seen hseen)

/-- What the PMU keeps of itself, and each write of the bring-up keeps, is kept. -/
theorem powerDomainOn_invariant (h : I s) (htick : ∀ s, I s → I (s.tick sched))
    (hwrite : ∀ s o v, o.writable → I s → I (pmuHiwordWrite sched o (pd.mask o) v s)) :
    I (rk3576PowerDomainOn sched pd s).2 := by
  have hpoll : ∀ s o mask expected, I s → I (pmuPollMasked sched o mask expected s).2 :=
    fun s o mask expected hs => pmuPollMasked_invariant hs htick
  have hpower := hpoll _ .repairStatus pd.pwrMask pd.pwrMask
    (hwrite _ .pwr 0 rfl (hwrite _ .clkUngate pd.clkUngateMask rfl (htick s h)))
  have hack := hpoll _ .ack pd.reqMask 0 (hwrite _ .req 0 rfl hpower)
  have hidle := hpoll _ .idle pd.reqMask 0 hack
  simp only [rk3576PowerDomainOn]
  split_ifs
  · exact htick s h
  · exact hwrite _ .clkUngate 0 rfl (htick _ hpower)
  · exact htick _ hack
  · exact htick _ hidle
  · exact hwrite _ .clkUngate 0 rfl hidle

theorem hiwordWrite_of_ne (h : r ≠ o) :
    (pmuHiwordWrite sched o mask v s).regs r = (s.tick sched).regs r := Function.update_of_ne h _ _

theorem Powered.write (h : Powered pd s) (ho : .pwr ≠ o) (hr : .repairStatus ≠ o) :
    Powered pd (pmuHiwordWrite sched o mask v s) where
  powered := by
    rw [hiwordWrite_of_ne hr]
    exact h.tick.powered
  released := by
    rw [hiwordWrite_of_ne ho]
    exact h.released

theorem Held.write_clkUngate (h : Held pd s) :
    Held pd (pmuHiwordWrite sched .clkUngate mask v s) where
  toPowered := h.toPowered.write (by decide) (by decide)
  active := h.tick.active
  requested := h.requested

theorem Ungated.write (h : Ungated pd s) (ho : .clkUngate ≠ o) :
    Ungated pd (pmuHiwordWrite sched o mask v s) := by
  rw [Ungated, hiwordWrite_of_ne ho]
  exact h

theorem gated_write : Gated pd (pmuHiwordWrite sched .clkUngate pd.clkUngateMask 0 s) :=
  (hiwordWrite_and_mask (o := .clkUngate)).trans BitVec.zero_and

/-- How a message leaves the domain, and its clocks. -/
def Message.Left (sched : ℕ → Answer) (pd : PowerDomain) (s s' : Pmu) : Message → Prop
  | .alreadyOn => s' = s.tick sched
  | .powerTimeout => Gated pd s'
  | .idleAckTimeout | .idleTimeout => Ungated pd s'
  | .on => Gated pd s' ∧ Held pd s'

theorem released_ungated : Ungated pd (pmuHiwordWrite sched .pwr pd.pwrMask 0
    (pmuHiwordWrite sched .clkUngate pd.clkUngateMask pd.clkUngateMask s)) :=
  Ungated.write ((hiwordWrite_and_mask (o := .clkUngate)).trans BitVec.and_self) (by decide)

theorem released_pwr : (pmuHiwordWrite sched .pwr pd.pwrMask 0 s).regs .pwr &&& pd.pwrMask = 0 :=
  (hiwordWrite_and_mask (o := .pwr)).trans BitVec.zero_and

/-- The domain is powered, and its network interface unit asked to leave idle. -/
structure Requested (pd : PowerDomain) (s : Pmu) : Prop extends Powered pd s where
  ungated : Ungated pd s
  requested : s.regs .req &&& pd.reqMask = 0

theorem Requested.tick (h : Requested pd s) : Requested pd (s.tick sched) where
  toPowered := h.toPowered.tick
  ungated := h.ungated
  requested := h.requested

theorem Powered.request (h : Powered pd s) (hungated : Ungated pd s) :
    Requested pd (pmuHiwordWrite sched .req pd.reqMask 0 s) where
  toPowered := h.write (by decide) (by decide)
  ungated := hungated.write (by decide)
  requested := (hiwordWrite_and_mask (o := .req)).trans BitVec.zero_and

theorem Requested.poll (sched : ℕ → Answer) (h : Requested pd s) (o : PmuReg) (mask expected : BitVec 32) :
    Requested pd (pmuPollMasked sched o mask expected s).2 :=
  pmuPollMasked_invariant h fun _ hs => hs.tick

theorem powerDomainOn_left : Message.Left sched pd s (rk3576PowerDomainOn sched pd s).2
    (rk3576PowerDomainOn sched pd s).1 := by
  -- what holds while the PMU is asked for power
  have hwaits : ∀ s, Ungated pd s ∧ s.regs .pwr &&& pd.pwrMask = 0 →
      Ungated pd (pmuPollMasked sched .repairStatus pd.pwrMask pd.pwrMask s).2 ∧
      (pmuPollMasked sched .repairStatus pd.pwrMask pd.pwrMask s).2.regs .pwr &&& pd.pwrMask = 0 :=
    fun s hs => pmuPollMasked_invariant
      (I := fun s => Ungated pd s ∧ s.regs .pwr &&& pd.pwrMask = 0) hs fun _ h => h
  obtain ⟨hungated, hpwr⟩ := hwaits _ ⟨@released_ungated sched pd (s.tick sched), released_pwr⟩
  simp only [rk3576PowerDomainOn]
  split_ifs with hon hpower hack hidle
  · rfl
  · exact gated_write
  all_goals
    rw [Bool.not_eq_true', Bool.not_eq_false] at hpower
    have hpowered : Powered pd _ := ⟨pmuPollMasked_seen hpower, hpwr⟩
    have hrequested : Requested pd (pmuHiwordWrite sched .req pd.reqMask 0 _) :=
      hpowered.request hungated
    have hacked := hrequested.poll sched .ack pd.reqMask 0
  · exact hacked.ungated
  · exact (hacked.poll sched .idle pd.reqMask 0).ungated
  · rw [Bool.not_eq_true', Bool.not_eq_false] at hidle
    exact ⟨gated_write, Held.write_clkUngate
      { hacked.poll sched .idle pd.reqMask 0 with active := pmuPollMasked_seen hidle }⟩

end Steps

end Edk2Rk3576.Vop2
