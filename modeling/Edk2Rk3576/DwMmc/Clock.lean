import Edk2Rk3576.DwMmc.Registers
import Edk2Rk3576.Lib.Polling
import Edk2Rk3576.Lib.Retry
import Mathlib.Algebra.Order.Field.Rat
import Mathlib.Algebra.Order.Field.Basic

/-!
# The card clock

`DwMmcHcClockSupply` looks for a divisor of the base clock and has the controller take it, after it
has stopped the clock. A controller that does not take a clock command is asked again, without end.
The wait for an idle card before that has a budget of its own, and nothing depends on what it comes
to; it is left out.
-/

namespace Edk2Rk3576.DwMmc

inductive ClockReg
  | clkDiv
  | clkSrc
  | clkEna
  | cmd

/-- What the controller shows, from the start of a clock command on, at each read of `CMD` and of
`RINTSTS`. The commands are numbered. -/
structure ClockController where
  cmd : ℕ → ℕ → BitVec 32
  rintsts : ℕ → ℕ → BitVec 32

/-- The clock commands given so far, and the writes of registers. -/
structure ClockState where
  commands : ℕ
  writes : List (ClockReg × ℕ)

def ClockState.write (s : ClockState) (reg : ClockReg) (value : ℕ) : ClockState :=
  { s with writes := s.writes ++ [(reg, value)] }

@[simp] theorem ClockState.write_commands (s : ClockState) (reg : ClockReg) (value : ℕ) :
    (s.write reg value).commands = s.commands := rfl

@[simp] theorem ClockState.write_writes (s : ClockState) (reg : ClockReg) (value : ℕ) :
    (s.write reg value).writes = s.writes ++ [(reg, value)] := rfl

/-- A pass of the loop in `DwMmcHcUpdateClock`. -/
def updatePass (c : ClockController) (command k : ℕ) : Option EfiStatus :=
  if c.cmd command k &&& cmdStartBit = 0 then some efiSuccess
  else if c.rintsts command k &&& dwMmcIntHle ≠ 0 then some efiDeviceError
  else none

/-- `BIT_CMD_WAIT_PRVDATA_COMPLETE | BIT_CMD_UPDATE_CLOCK_ONLY | BIT_CMD_START`. -/
def updateClockCmd : ℕ := 2 ^ 13 + 2 ^ 21 + 2 ^ 31

def dwMmcHcUpdateClock (c : ClockController) (s : ClockState) : EfiStatus × ClockState :=
  let status :=
    match pollFor (updatePass c s.commands) dwMmcHcGenericTimeout 0 with
    | some (status, _) => status
    | none => efiTimeout
  (status, { s.write .cmd updateClockCmd with commands := s.commands + 1 })

def dwMmcHcStopClock (c : ClockController) (s : ClockState) : EfiStatus × ClockState :=
  dwMmcHcUpdateClock c (s.write .clkEna 0)

/-- `SettingFreq` after a pass that has not found its divisor yet. -/
def settingFreq (base freq twice : ℕ) : ℕ :=
  if freq = base / twice ∧ base % twice ≠ 0 then base / twice + 1 else base / twice

/-- The search for a divisor, from the divisor and the frequency that the loop has come to. It
faults where twice the divisor is zero in 32 bits. -/
def findDivisor (base freq : ℕ) : (fuel divisor setting : ℕ) → Option ℕ
  | 0, divisor, setting => if freq < setting then none else some divisor
  | fuel + 1, divisor, setting =>
    if freq < setting then
      let divisor := toUint32 (divisor + 1)
      let twice := toUint32 (2 * divisor)
      if twice = 0 then none
      else if freq = base / twice ∧ base % twice = 0 then some divisor
      else findDivisor base freq fuel divisor (settingFreq base freq twice)
    else some divisor

/-- The divisor for a requested clock, which is cut to the base clock first. -/
def clockDivisor (base : UInt32) (clockFreq : UInt64) (fuel : ℕ) : Option ℕ :=
  findDivisor base.toNat (min clockFreq.toNat base.toNat) fuel 0 base.toNat

/-- A pass of the loop that stops the clock. -/
def stopPass (c : ClockController) (s : ClockState) : Bool × ClockState :=
  let r := dwMmcHcStopClock c s
  (!efiError r.1, r.2)

/-- A pass of the loop that sets it. -/
def supplyPass (c : ClockController) (divisor : ℕ) (s : ClockState) : Bool × ClockState :=
  let r := dwMmcHcUpdateClock c (((s.write .clkSrc 0).write .clkDiv divisor).write .clkEna 1)
  (!efiError r.1, r.2)

/-- `DwMmcHcClockSupply`, as far as `fuel` passes of each of its loops go: its status if it has
returned, and what it has done. -/
def dwMmcHcClockSupply (c : ClockController) (clockFreq : UInt64) (base : UInt32) (fuel : ℕ) :
    Option EfiStatus × ClockState :=
  let s : ClockState := { commands := 0, writes := [] }
  if clockFreq = 0 then (some efiInvalidParameter, s)
  else
    match clockDivisor base clockFreq fuel with
    | none => (none, s)
    | some divisor =>
      let stopped := retry (stopPass c) fuel s
      if stopped.1 then
        let supplied := retry (supplyPass c divisor) fuel stopped.2
        (if supplied.1 then some efiSuccess else none, supplied.2)
      else (none, stopped.2)

/-! What the clock is to be. -/

def cardClock (base : UInt32) (divisor : ℕ) : ℚ :=
  if divisor = 0 then base.toNat else base.toNat / (2 * divisor)

/-- `CLKDIV` has 8 bits. -/
def clkDivBound : ℕ := 2 ^ 8

/-- The search ends with the least divisor whose clock is within the request, what is written fits
the field, and the function returns. -/
def ClockSupplied (c : ClockController) (clockFreq : UInt64) (base : UInt32) : Prop :=
  (∃ fuel divisor, clockDivisor base clockFreq fuel = some divisor ∧
    cardClock base divisor ≤ clockFreq.toNat ∧
    ∀ d < divisor, ¬ cardClock base d ≤ clockFreq.toNat) ∧
  (∀ fuel value, (.clkDiv, value) ∈ (dwMmcHcClockSupply c clockFreq base fuel).2.writes →
    value < clkDivBound) ∧
  ∃ fuel status, (dwMmcHcClockSupply c clockFreq base fuel).1 = some status

/-- The controller takes a command: it clears the start bit in time, before it shows a hardware
lock. -/
def ClockController.Takes (c : ClockController) (command : ℕ) : Prop :=
  ∃ k < dwMmcHcGenericTimeout, c.cmd command k &&& cmdStartBit = 0 ∧
    ∀ j < k, c.cmd command j &&& cmdStartBit ≠ 0 ∧ c.rintsts command j &&& dwMmcIntHle = 0

/-! The search. -/

/-- The divisor keeps the clock within the frequency. -/
def Within (base freq divisor : ℕ) : Prop := base ≤ if divisor = 0 then freq else 2 * divisor * freq

theorem within_of_pos {base freq divisor : ℕ} (h : 0 < divisor) :
    Within base freq divisor ↔ base ≤ 2 * divisor * freq := by
  rw [Within, if_neg (by omega)]

theorem within_of_exact {base freq twice : ℕ} (h : freq = base / twice ∧ base % twice = 0) :
    base ≤ twice * freq := by
  rw [h.1, Nat.mul_div_cancel' (Nat.dvd_of_mod_eq_zero h.2)]

/-- The quotient, one more if it hides a remainder at the frequency itself, compares as the exact
clock does. -/
theorem lt_setting_iff {base freq twice : ℕ} (hpos : 0 < twice)
    (h : ¬ (freq = base / twice ∧ base % twice = 0)) :
    freq < settingFreq base freq twice ↔ ¬ base ≤ twice * freq := by
  rw [settingFreq]
  have hdiv := Nat.div_add_mod base twice
  have hmod := Nat.mod_lt base hpos
  split
  · next heq =>
    have hrem := heq.2
    rw [← heq.1] at hdiv ⊢
    omega
  · next hne =>
    have hfreq : freq ≠ base / twice := fun heq => by
      by_cases hrem : base % twice = 0
      · exact h ⟨heq, hrem⟩
      · exact hne ⟨heq, hrem⟩
    rw [not_le]
    constructor
    · intro hlt
      have := Nat.mul_le_mul_left twice (show freq + 1 ≤ base / twice from hlt)
      rw [Nat.mul_succ] at this
      omega
    · intro hlt
      by_contra hge
      have := Nat.mul_le_mul_left twice (show base / twice + 1 ≤ freq by omega)
      rw [Nat.mul_succ] at this
      omega

theorem twice_eq_zero_iff {d : ℕ} (hd : d < 2 ^ 31) :
    toUint32 (2 * toUint32 (d + 1)) = 0 ↔ d + 1 = 2 ^ 31 := by
  rw [toUint32_of_lt (show d + 1 < 2 ^ 32 by omega), toUint32]
  omega

theorem twice_eq {d : ℕ} (hd : d < 2 ^ 31) (h : toUint32 (2 * toUint32 (d + 1)) ≠ 0) :
    d + 1 < 2 ^ 31 ∧ toUint32 (d + 1) = d + 1 ∧ toUint32 (2 * toUint32 (d + 1)) = 2 * (d + 1) := by
  rw [Ne, twice_eq_zero_iff hd] at h
  have hone := toUint32_of_lt (show d + 1 < 2 ^ 32 by omega)
  exact ⟨by omega, hone, by rw [hone, toUint32_of_lt (by omega)]⟩

/-- What the search returns is the first divisor, from where it stands, that keeps within. -/
theorem findDivisor_eq_some {base freq fuel d e setting : ℕ} (hd : d < 2 ^ 31)
    (hset : freq < setting ↔ ¬ Within base freq d)
    (h : findDivisor base freq fuel d setting = some e) :
    Within base freq e ∧ ∀ k, d ≤ k → k < e → ¬ Within base freq k := by
  induction fuel generalizing d setting with
  | zero =>
    rw [findDivisor] at h
    split_ifs at h with hlt
    cases h
    exact ⟨not_not.mp (mt hset.mpr hlt), fun k hk hke => absurd hke (by omega)⟩
  | succ fuel ih =>
    simp only [findDivisor] at h
    split_ifs at h with hlt hzero hexact
    · cases h
      obtain ⟨hlt', hone, htwo⟩ := twice_eq hd hzero
      rw [htwo] at hexact
      rw [hone]
      refine ⟨(within_of_pos (by omega)).mpr (within_of_exact hexact), fun k hk hke => ?_⟩
      obtain rfl : k = d := by omega
      exact hset.mp hlt
    · obtain ⟨hlt', hone, htwo⟩ := twice_eq hd hzero
      rw [htwo] at hexact h
      rw [hone] at h
      obtain ⟨hwithin, hleast⟩ := ih hlt'
        ((lt_setting_iff (by omega) hexact).trans (not_congr (within_of_pos (by omega)).symm)) h
      refine ⟨hwithin, fun k hk hke => ?_⟩
      rcases Nat.eq_or_lt_of_le hk with rfl | hgt
      · exact hset.mp hlt
      · exact hleast k hgt hke
    · cases h
      exact ⟨not_not.mp (mt hset.mpr hlt), fun k hk hke => absurd hke (by omega)⟩

/-- It comes to an end when there is one that 31 bits hold. -/
theorem findDivisor_isSome {base freq fuel d e setting : ℕ} (hde : d ≤ e) (he : e < 2 ^ 31)
    (hset : freq < setting ↔ ¬ Within base freq d) (hwithin : Within base freq e)
    (hfuel : e ≤ d + fuel) : (findDivisor base freq fuel d setting).isSome := by
  induction fuel generalizing d setting with
  | zero =>
    obtain rfl : d = e := by omega
    rw [findDivisor, if_neg (fun hlt => hset.mp hlt hwithin)]
    rfl
  | succ fuel ih =>
    simp only [findDivisor]
    split_ifs with hlt hzero hexact
    · rw [twice_eq_zero_iff (by omega)] at hzero
      obtain rfl : d = e := by omega
      exact absurd hwithin (hset.mp hlt)
    · rfl
    · obtain ⟨-, hone, htwo⟩ := twice_eq (by omega) hzero
      have hne : d ≠ e := fun heq => hset.mp hlt (heq ▸ hwithin)
      rw [htwo] at hexact ⊢
      rw [hone]
      exact ih (by omega) ((lt_setting_iff (by omega) hexact).trans
        (not_congr (within_of_pos (by omega)).symm)) (by omega)
    · rfl

section ClockDivisor

variable {base : UInt32} {clockFreq : UInt64} {fuel d : ℕ}

theorem cardClock_le_iff : cardClock base d ≤ clockFreq.toNat ↔
    Within base.toNat (min clockFreq.toNat base.toNat) d := by
  rw [cardClock, Within]
  rcases Nat.eq_zero_or_pos d with rfl | hpos
  · rw [if_pos rfl, if_pos rfl, Nat.cast_le]
    omega
  · have hpos' : (0 : ℚ) < 2 * d := mul_pos two_pos (Nat.cast_pos.mpr hpos)
    rw [if_neg (by omega), if_neg (by omega), div_le_iff₀ hpos']
    have hcast : (clockFreq.toNat : ℚ) * (2 * d) = ((2 * d * clockFreq.toNat : ℕ) : ℚ) := by
      push_cast
      exact mul_comm _ _
    rw [hcast, Nat.cast_le, ← Nat.mul_min_mul_left, le_min_iff]
    exact ⟨fun h => ⟨h, Nat.le_mul_of_pos_left _ (by omega)⟩, fun h => h.1⟩

theorem within_zero : min clockFreq.toNat base.toNat < base.toNat ↔
    ¬ Within base.toNat (min clockFreq.toNat base.toNat) 0 := by
  rw [Within, if_pos rfl, not_le]

theorem clockDivisor_eq_some (h : clockDivisor base clockFreq fuel = some d) :
    cardClock base d ≤ clockFreq.toNat ∧ ∀ k < d, ¬ cardClock base k ≤ clockFreq.toNat := by
  obtain ⟨hwithin, hleast⟩ := findDivisor_eq_some (by decide) within_zero h
  exact ⟨cardClock_le_iff.mpr hwithin, fun k hk hle =>
    hleast k (Nat.zero_le k) hk (cardClock_le_iff.mp hle)⟩

/-- A request of a 510th of the base clock or more. -/
theorem cardClock_max_iff : cardClock base 255 ≤ clockFreq.toNat ↔
    base.toNat ≤ 510 * clockFreq.toNat := by
  rw [cardClock_le_iff, within_of_pos (by decide)]
  omega

theorem cardClock_antitone {k : ℕ} (hle : k ≤ d) (h : cardClock base k ≤ clockFreq.toNat) :
    cardClock base d ≤ clockFreq.toNat := by
  rw [cardClock_le_iff, Within] at h ⊢
  rcases Nat.eq_zero_or_pos k with rfl | hpos
  · rw [if_pos rfl] at h
    split
    · exact h
    · exact h.trans (Nat.le_mul_of_pos_left _ (by omega))
  · rw [if_neg (by omega)] at h ⊢
    exact h.trans (Nat.mul_le_mul_right _ (by omega))

theorem clockDivisor_isSome (h : base.toNat ≤ 510 * clockFreq.toNat) (hfuel : 255 ≤ fuel) :
    (clockDivisor base clockFreq fuel).isSome :=
  findDivisor_isSome (e := 255) (by decide) (by decide) within_zero
    (cardClock_le_iff.mp (cardClock_max_iff.mpr h)) (by omega)

/-- The field holds the divisor of just these requests. -/
theorem clockDivisor_lt_iff (h : clockDivisor base clockFreq fuel = some d) :
    d < clkDivBound ↔ base.toNat ≤ 510 * clockFreq.toNat := by
  obtain ⟨hle, hleast⟩ := clockDivisor_eq_some h
  rw [clkDivBound, ← cardClock_max_iff]
  constructor
  · intro hlt
    exact cardClock_antitone (by omega) hle
  · intro hmax
    by_contra hge
    exact hleast 255 (by omega) hmax

end ClockDivisor

/-! The clock commands. -/

section Commands

variable {c : ClockController} {s : ClockState} {divisor fuel : ℕ}

theorem updatePass_success {command k : ℕ} (h : c.cmd command k &&& cmdStartBit = 0) :
    updatePass c command k = some efiSuccess := if_pos h

theorem updatePass_none {command k : ℕ} : updatePass c command k = none ↔
    c.cmd command k &&& cmdStartBit ≠ 0 ∧ c.rintsts command k &&& dwMmcIntHle = 0 := by
  rw [updatePass]
  split_ifs with hstart hhle
  · exact ⟨nofun, fun h => absurd hstart h.1⟩
  · exact ⟨nofun, fun h => absurd h.2 hhle⟩
  · exact ⟨fun _ => ⟨hstart, not_not.mp hhle⟩, fun _ => rfl⟩

theorem updateClock_status :
    (!efiError (dwMmcHcUpdateClock c s).1) = true ↔ c.Takes s.commands := by
  rw [dwMmcHcUpdateClock]
  constructor
  · intro h
    rcases hpoll : pollFor (updatePass c s.commands) dwMmcHcGenericTimeout 0 with _ | ⟨status, left⟩
    · rw [hpoll] at h
      cases h
    · rw [hpoll] at h
      obtain ⟨k, hk, hpass, hfirst⟩ := pollFor_eq_some hpoll
      rw [Nat.zero_add] at hpass
      have hstart : c.cmd s.commands k &&& cmdStartBit = 0 := by
        by_contra hne
        rw [updatePass, if_neg hne] at hpass
        split_ifs at hpass
        cases hpass
        simp at h
      exact ⟨k, hk, hstart, fun j hj => updatePass_none.mp (Nat.zero_add j ▸ hfirst j hj)⟩
  · rintro ⟨k, hk, hstart, hfirst⟩
    rw [pollFor_of_first (r := efiSuccess) (n := k)
      (by rw [Nat.zero_add, updatePass_success hstart])
      (fun j hj => by rw [Nat.zero_add, updatePass_none.mpr (hfirst j hj)]) hk]
    rfl

theorem stopPass_iff (s : ClockState) : (stopPass c s).1 ↔ c.Takes s.commands :=
  updateClock_status

theorem stopPass_commands (s : ClockState) : (stopPass c s).2.commands = s.commands + 1 := rfl

theorem supplyPass_iff (s : ClockState) : (supplyPass c divisor s).1 ↔ c.Takes s.commands :=
  updateClock_status

theorem supplyPass_commands (s : ClockState) :
    (supplyPass c divisor s).2.commands = s.commands + 1 := rfl

/-- `CLKDIV` has been written with one value only. -/
def DivisorOnly (divisor : ℕ) (s : ClockState) : Prop :=
  ∀ value, (.clkDiv, value) ∈ s.writes → value = divisor

theorem divisorOnly_stopPass (h : DivisorOnly divisor s) :
    DivisorOnly divisor (stopPass c s).2 := by
  intro value hmem
  simp only [stopPass, dwMmcHcStopClock, dwMmcHcUpdateClock, ClockState.write_writes,
    List.mem_append, List.mem_singleton, Prod.mk.injEq, reduceCtorEq, false_and, or_false] at hmem
  exact h value hmem

theorem divisorOnly_supplyPass (h : DivisorOnly divisor s) :
    DivisorOnly divisor (supplyPass c divisor s).2 := by
  intro value hmem
  simp only [supplyPass, dwMmcHcUpdateClock, ClockState.write_writes, List.mem_append,
    List.mem_singleton, Prod.mk.injEq, reduceCtorEq, false_and, or_false, true_and] at hmem
  rcases hmem with hmem | rfl
  · exact h value hmem
  · rfl

theorem supplyPass_writes : (.clkDiv, divisor) ∈ (supplyPass c divisor s).2.writes := by
  simp [supplyPass, dwMmcHcUpdateClock]

end Commands

section Supply

variable {c : ClockController} {clockFreq : UInt64} {base : UInt32} {fuel divisor : ℕ}

/-- What the function does once it has a divisor. -/
theorem clockSupply_eq (hfreq : clockFreq ≠ 0)
    (h : clockDivisor base clockFreq fuel = some divisor) :
    dwMmcHcClockSupply c clockFreq base fuel =
      let stopped := retry (stopPass c) fuel { commands := 0, writes := [] }
      if stopped.1 then
        let supplied := retry (supplyPass c divisor) fuel stopped.2
        (if supplied.1 then some efiSuccess else none, supplied.2)
      else (none, stopped.2) := by
  rw [dwMmcHcClockSupply, if_neg hfreq, h]

theorem clockSupply_divisorOnly (h : clockDivisor base clockFreq fuel = some divisor) :
    DivisorOnly divisor (dwMmcHcClockSupply c clockFreq base fuel).2 := by
  have hstart : DivisorOnly divisor { commands := 0, writes := [] } := fun _ hmem => by cases hmem
  by_cases hfreq : clockFreq = 0
  · rw [dwMmcHcClockSupply, if_pos hfreq]
    exact hstart
  · rw [clockSupply_eq hfreq h]
    have hstop : DivisorOnly divisor (retry (stopPass c) fuel ⟨0, []⟩).2 :=
      retry_invariant hstart fun _ => divisorOnly_stopPass
    dsimp only
    split
    · exact retry_invariant hstop fun _ => divisorOnly_supplyPass
    · exact hstop

/-- A run that returned has had two commands taken, and has written its divisor. -/
theorem clockSupply_returned {status : EfiStatus} (hfreq : clockFreq ≠ 0)
    (h : (dwMmcHcClockSupply c clockFreq base fuel).1 = some status) :
    (∃ n m, n < m ∧ c.Takes n ∧ c.Takes m) ∧
      ∃ divisor, clockDivisor base clockFreq fuel = some divisor ∧
        (.clkDiv, divisor) ∈ (dwMmcHcClockSupply c clockFreq base fuel).2.writes := by
  rcases hdiv : clockDivisor base clockFreq fuel with _ | divisor
  · rw [dwMmcHcClockSupply, if_neg hfreq, hdiv] at h
    cases h
  rw [clockSupply_eq hfreq hdiv] at h ⊢
  dsimp only at h ⊢
  split at h
  swap
  · cases h
  next hstop =>
  split at h
  swap
  · cases h
  next hsup =>
  rw [if_pos hstop]
  obtain ⟨n, -, hn, -, hcommands⟩ := retry_first stopPass_iff stopPass_commands hstop
  obtain ⟨m, hm, htakes, -, -⟩ := retry_first supplyPass_iff supplyPass_commands hsup
  obtain ⟨s, hs⟩ := retry_eq_attempt hsup
  refine ⟨⟨n, m, by omega, hn, htakes⟩, divisor, rfl, ?_⟩
  dsimp only
  rw [hs]
  exact supplyPass_writes (c := c)

theorem clockSupply_returns {n m : ℕ} (hfreq : clockFreq ≠ 0) (hnm : n < m) (hn : c.Takes n)
    (hm : c.Takes m) (hfuel : m + 1 ≤ fuel)
    (h : clockDivisor base clockFreq fuel = some divisor) :
    (dwMmcHcClockSupply c clockFreq base fuel).1 = some efiSuccess := by
  rw [clockSupply_eq hfreq h]
  have hends := retry_ends (n := n) (s := { commands := 0, writes := [] }) stopPass_iff
    stopPass_commands (Nat.zero_le n) hn
  have hstop := retry_mono hends (show n + 1 - 0 ≤ fuel by omega)
  obtain ⟨k, -, -, hfirst, hcommands⟩ := retry_first stopPass_iff stopPass_commands hends
  rw [← hstop] at hends hcommands
  have hk : k ≤ n := by
    by_contra hlt
    exact hfirst n (Nat.zero_le n) (by omega) hn
  have hends' := retry_ends (@supplyPass_iff c divisor) supplyPass_commands
    (hcommands.trans_le (by omega)) hm
  dsimp only
  rw [if_pos hends, retry_mono hends' (by omega), if_pos hends']

end Supply

/-- The clock is supplied as it should be exactly when the request is a 510th of the base clock or
more and the controller takes two of the commands it is given. -/
theorem dwMmcHcClockSupply_supplied_iff (c : ClockController) (clockFreq : UInt64) (base : UInt32)
    (hfreq : 0 < clockFreq) :
    ClockSupplied c clockFreq base ↔ base.toNat ≤ 510 * clockFreq.toNat ∧
      ∃ n m, n < m ∧ c.Takes n ∧ c.Takes m := by
  have hne : clockFreq ≠ 0 := fun h => by subst h; exact absurd hfreq (by decide)
  constructor
  · rintro ⟨-, hwrites, fuel, status, hstatus⟩
    obtain ⟨htakes, divisor, hdiv, hmem⟩ := clockSupply_returned hne hstatus
    exact ⟨(clockDivisor_lt_iff hdiv).mp (hwrites fuel divisor hmem), htakes⟩
  · rintro ⟨hbase, n, m, hnm, hn, hm⟩
    have hsome := fun fuel => @clockDivisor_isSome base clockFreq fuel hbase
    refine ⟨?_, fun fuel value hmem => ?_, ?_⟩
    · obtain ⟨divisor, hdiv⟩ := Option.isSome_iff_exists.mp (hsome 255 (Nat.le_refl _))
      exact ⟨255, divisor, hdiv, clockDivisor_eq_some hdiv⟩
    · rcases hdiv : clockDivisor base clockFreq fuel with _ | divisor
      · rw [dwMmcHcClockSupply, if_neg hne, hdiv] at hmem
        cases hmem
      · rw [clockSupply_divisorOnly hdiv value hmem]
        exact (clockDivisor_lt_iff hdiv).mpr hbase
    · obtain ⟨divisor, hdiv⟩ := Option.isSome_iff_exists.mp (hsome (255 + (m + 1)) (by omega))
      exact ⟨_, _, clockSupply_returns hne hnm hn hm (by omega) hdiv⟩

/-- A controller that takes every command at once. -/
def readyController : ClockController where
  cmd _ _ := 0
  rintsts _ _ := 0

theorem readyController_takes (n : ℕ) : readyController.Takes n :=
  ⟨0, by decide, show (0 : BitVec 32) &&& cmdStartBit = 0 by decide,
    fun j hj => absurd hj (by omega)⟩

/-- One that never clears the start bit. -/
def stuckController : ClockController where
  cmd _ _ := cmdStartBit
  rintsts _ _ := 0

theorem dwMmcHcClockSupply_supplied_identify : ClockSupplied readyController 400 52000 :=
  (dwMmcHcClockSupply_supplied_iff readyController 400 52000 (by decide)).mpr
    ⟨by decide, 0, 1, by decide, readyController_takes 0, readyController_takes 1⟩

/-- With a controller that is stuck the function does not return, and for 400 kHz from a base clock
of 208 MHz it writes the divisor 260. -/
theorem dwMmcHcClockSupply_not_supplied :
    ¬ ClockSupplied stuckController 400 52000 ∧ ¬ ClockSupplied readyController 400 208000 := by
  constructor
  · rintro ⟨-, -, fuel, status, hstatus⟩
    obtain ⟨⟨n, -, -, ⟨k, -, hstart, -⟩, -⟩, -⟩ := clockSupply_returned (by decide) hstatus
    exact absurd hstart (show cmdStartBit &&& cmdStartBit ≠ 0 by decide)
  · rintro ⟨-, hwrites, fuel, status, hstatus⟩
    obtain ⟨-, divisor, hdiv, hmem⟩ := clockSupply_returned (by decide) hstatus
    have hbase := (clockDivisor_lt_iff hdiv).mp (hwrites fuel divisor hmem)
    exact absurd hbase (by decide)

end Edk2Rk3576.DwMmc
