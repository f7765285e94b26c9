import Mathlib.Algebra.Order.Group.Nat
import Mathlib.Tactic.Common

/-!
# Dividers that are powers of two

A clock is divided by a power of two, which a driver finds as the logarithm of a quotient of two
rates. It is the right one if there is one at all.
-/

variable {fuel n d r : ℕ}

/-- The times that the loop `while (input) input >>= 1` runs. -/
def shiftsToZero : (fuel input : ℕ) → ℕ
  | 0, _ => 0
  | fuel + 1, input => if input = 0 then 0 else shiftsToZero fuel (input >>> 1) + 1

theorem shiftsToZero_eq (hn : n ≠ 0) (hlt : n < 2 ^ fuel) :
    shiftsToZero fuel n = Nat.log2 n + 1 := by
  induction fuel generalizing n with
  | zero => omega
  | succ fuel ih =>
    rw [shiftsToZero, if_neg hn, Nat.shiftRight_one]
    rw [Nat.pow_succ] at hlt
    rw [Nat.log2_def]
    by_cases hhalf : n / 2 = 0
    · have hzero : shiftsToZero fuel 0 = 0 := by
        cases fuel <;> rfl
      rw [hhalf, hzero, if_neg (by omega)]
    · rw [ih hhalf (by omega), if_pos (by omega)]

/-- The rate is that of a divided clock. -/
def IsShifted (d r : ℕ) : Prop := ∃ n, d / 2 ^ n = r

theorem isShifted_self : IsShifted d d := ⟨0, Nat.div_one d⟩

theorem IsShifted.le (h : IsShifted d r) : r ≤ d := by
  obtain ⟨n, rfl⟩ := h
  exact Nat.div_le_self _ _

theorem isShifted_iff : IsShifted d r ↔ d = r ∨ IsShifted (d / 2) r := by
  constructor
  · rintro ⟨n, hn⟩
    cases n with
    | zero => exact .inl (by rwa [Nat.pow_zero, Nat.div_one] at hn)
    | succ n => exact .inr ⟨n, by rwa [Nat.div_div_eq_div_mul, ← Nat.pow_succ']⟩
  · rintro (rfl | ⟨n, hn⟩)
    · exact isShifted_self
    · exact ⟨n + 1, by rwa [Nat.pow_succ', ← Nat.div_div_eq_div_mul]⟩

/-- A clock of less than eight times the rate. -/
theorem isShifted_of_lt (h : d < 8 * r) : IsShifted d r ↔ d = r ∨ d / 2 = r ∨ d / 4 = r := by
  have hnot : ¬ IsShifted (d / 2 / 2 / 2) r := fun hshift => by
    have hle := hshift.le
    omega
  rw [isShifted_iff, isShifted_iff, isShifted_iff, Nat.div_div_eq_div_mul d]
  rw [Nat.div_div_eq_div_mul d] at hnot
  simp only [hnot, or_false]

/-- The logarithm of the quotient. -/
theorem div_two_pow_log2_iff (hr : 0 < r) : d / 2 ^ Nat.log2 (d / r) = r ↔ IsShifted d r := by
  refine ⟨fun h => ⟨_, h⟩, ?_⟩
  rintro ⟨n, hn⟩
  have hle : r * 2 ^ n ≤ d := hn ▸ Nat.div_mul_le_self d (2 ^ n)
  have hlt : d < (r + 1) * 2 ^ n := (Nat.div_lt_iff_lt_mul (Nat.two_pow_pos n)).1 (by omega)
  have hone : 2 ^ n ≤ r * 2 ^ n := Nat.le_mul_of_pos_left _ hr
  rw [Nat.add_mul] at hlt
  have hquot : d / r ≠ 0 := by
    have hpos := Nat.two_pow_pos n
    rw [Nat.div_ne_zero_iff]
    exact ⟨hr.ne', (Nat.le_mul_of_pos_right r hpos).trans hle⟩
  have hlog : Nat.log2 (d / r) = n := by
    rw [Nat.log2_eq_iff hquot, Nat.le_div_iff_mul_le hr, Nat.div_lt_iff_lt_mul hr, Nat.pow_succ,
      Nat.mul_right_comm, Nat.mul_comm (2 ^ n)]
    omega
  rw [hlog, hn]
