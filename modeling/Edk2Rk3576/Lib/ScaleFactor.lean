import Mathlib.Algebra.Group.Nat.Defs
import Mathlib.Order.Bounds.Basic
import Mathlib.Order.Nat
import Mathlib.Tactic.Basic

/-!
# Scale factors

A scaler steps through the source by a factor with a fraction of `shift` bits. The last position of
the source is `x`, that of the destination `y`; the factor is the greatest with which the last step
stays in front of the end of the source.
-/

variable {shift x y f w : ℕ}

def IsScaleFactor (shift x y f : ℕ) : Prop :=
  IsGreatest {f | f ≤ x <<< shift / y ∧ (f * y) >>> shift < x} f

theorem mul_shiftRight_lt_iff : (f * y) >>> shift < x ↔ f * y < x * 2 ^ shift := by
  rw [Nat.shiftRight_eq_div_pow, Nat.div_lt_iff_lt_mul (Nat.two_pow_pos shift)]

/-- What is in front of the end is not above the ratio either. -/
theorem isScaleFactor_iff (hx : 0 < x) (hy : 0 < y) :
    IsScaleFactor shift x y f ↔ f = (x * 2 ^ shift - 1) / y := by
  have hpos : 0 < x * 2 ^ shift := Nat.mul_pos hx (Nat.two_pow_pos shift)
  have hmem : ∀ g, (g ≤ x <<< shift / y ∧ (g * y) >>> shift < x) ↔
      g ≤ (x * 2 ^ shift - 1) / y := by
    intro g
    rw [mul_shiftRight_lt_iff, Nat.shiftLeft_eq, Nat.le_div_iff_mul_le hy,
      Nat.le_div_iff_mul_le hy]
    omega
  have hgreatest : IsGreatest {f | f ≤ x <<< shift / y ∧ (f * y) >>> shift < x}
      ((x * 2 ^ shift - 1) / y) :=
    ⟨(hmem _).2 (Nat.le_refl _), fun g hg => (hmem g).1 hg⟩
  constructor
  · exact fun h => h.unique hgreatest
  · rintro rfl
    exact hgreatest

/-- The ratio is the factor, or one above it. -/
theorem ratio_cases (hx : 0 < x) (hy : 0 < y) :
    (x * 2 ^ shift / y * y < x * 2 ^ shift ∧
      x * 2 ^ shift / y = (x * 2 ^ shift - 1) / y) ∨
    (x * 2 ^ shift / y * y = x * 2 ^ shift ∧
      x * 2 ^ shift / y = (x * 2 ^ shift - 1) / y + 1) := by
  have hpos : 0 < x * 2 ^ shift := Nat.mul_pos hx (Nat.two_pow_pos shift)
  generalize x * 2 ^ shift = z at hpos ⊢
  have hmod := Nat.div_add_mod z y
  have hmod_lt := Nat.mod_lt z hy
  rw [Nat.mul_comm] at hmod
  rcases Nat.eq_zero_or_pos (z % y) with hzero | hrest
  · have hone : 1 ≤ z / y := by
      refine Nat.one_le_iff_ne_zero.2 fun hq => ?_
      rw [hq] at hmod
      omega
    have hpred : (z - 1) / y = z / y - 1 := by
      refine Nat.div_eq_of_lt_le ?_ ?_
      · rw [Nat.sub_mul]
        omega
      · rw [show z / y - 1 + 1 = z / y by omega]
        omega
    refine .inr ⟨by omega, ?_⟩
    rw [hpred, Nat.sub_add_cancel hone]
  · refine .inl ⟨by omega, (Nat.div_eq_of_lt_le ?_ ?_).symm⟩
    · omega
    · rw [Nat.add_mul]
      omega
