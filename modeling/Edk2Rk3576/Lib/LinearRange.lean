import Mathlib.Tactic.Linarith

/-!
# Linear ranges

A range of evenly spaced values, numbered from its least. A value that is asked for is met by the
last one not above it, and the number of that one is a quotient.
-/

structure LinearRange where
  base : ℕ
  step : ℕ

namespace LinearRange

variable {r : LinearRange} {n : ℕ} {v : ℤ}

def value (r : LinearRange) (n : ℕ) : ℕ := r.base + r.step * n

/-- The `n`th value is what is asked for, or below it by less than a step. -/
def Meets (r : LinearRange) (n : ℕ) (v : ℤ) : Prop :=
  v = r.value n ∨ r.value n ≤ v ∧ v < r.value n + r.step

theorem Meets.le (h : r.Meets n v) : r.value n ≤ v := by
  rcases h with h | h
  · exact h.ge
  · exact h.1

theorem Meets.base_le (h : r.Meets n v) : r.base ≤ v := by
  have hle := h.le
  rw [value, Nat.cast_add] at hle
  omega

theorem Meets.lt (hs : 0 < r.step) (h : r.Meets n v) : v < r.value n + r.step := by
  rcases h with h | h
  · omega
  · exact h.2

/-- Where there are steps, the number of what is met is the quotient. -/
theorem meets_iff (hs : 0 < r.step) : r.Meets n v ↔ (v - r.base) / r.step = n := by
  have hs' : (0 : ℤ) < r.step := by exact_mod_cast hs
  have hval : (r.value n : ℤ) = r.base + r.step * n := by rw [value]; push_cast; rfl
  rw [Int.ediv_eq_iff_of_pos hs']
  constructor
  · intro h
    have hle := h.le
    have hlt := h.lt hs
    rw [hval] at hle hlt
    constructor <;> linarith
  · rintro ⟨hle, hlt⟩
    refine .inr ⟨?_, ?_⟩ <;> rw [hval] <;> linarith

/-- What has no steps meets its only value. -/
theorem meets_iff_of_step_eq_zero (hs : r.step = 0) : r.Meets n v ↔ v = r.base := by
  have hval : r.value n = r.base := by rw [value, hs, Nat.zero_mul, Nat.add_zero]
  rw [Meets, hval, hs]
  omega

end LinearRange
