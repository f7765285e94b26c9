import Mathlib.Algebra.Order.Field.Basic
import Mathlib.Data.Rat.Cast.Order
import Mathlib.Tactic.FieldSimp
import Mathlib.Tactic.Linarith
import Mathlib.Tactic.LinearCombination
import Mathlib.Tactic.Positivity
import Mathlib.Tactic.Ring

/-!
# Best fractions

Two fractions are adjacent when their cross products differ by one. What lies between them has at
least the sum of their numerators and of their denominators, so that within smaller bounds one of
the two is as close to what they enclose as any fraction.
-/

namespace BestFraction

variable {a b c d p q : ℕ}

/-- `a / b` is below `c / d` and adjacent to it. A denominator of zero stands above everything. -/
def Adjacent (a b c d : ℕ) : Prop := c * b = a * d + 1

/-- What lies between. -/
theorem Adjacent.add_le (h : Adjacent a b c d) (hlow : a * q < p * b) (hhigh : p * d < c * q) :
    a + c ≤ p ∧ b + d ≤ q := by
  have hdet : (c : ℤ) * b - a * d = 1 := by
    have : (c * b : ℤ) = a * d + 1 := by exact_mod_cast h
    linarith
  have hlow : (1 : ℤ) ≤ p * b - a * q := by
    have : (a * q : ℤ) < p * b := by exact_mod_cast hlow
    linarith
  have hhigh : (1 : ℤ) ≤ c * q - p * d := by
    have : (p * d : ℤ) < c * q := by exact_mod_cast hhigh
    linarith
  have hp : (p : ℤ) = a * (c * q - p * d) + c * (p * b - a * q) := by
    linear_combination (-p : ℤ) * hdet
  have hq : (q : ℤ) = b * (c * q - p * d) + d * (p * b - a * q) := by
    linear_combination (-q : ℤ) * hdet
  constructor
  · have h₁ : (a : ℤ) * 1 ≤ a * (c * q - p * d) := mul_le_mul_of_nonneg_left hhigh (by positivity)
    have h₂ : (c : ℤ) * 1 ≤ c * (p * b - a * q) := mul_le_mul_of_nonneg_left hlow (by positivity)
    have : (a + c : ℤ) ≤ p := by linarith
    exact_mod_cast this
  · have h₁ : (b : ℤ) * 1 ≤ b * (c * q - p * d) := mul_le_mul_of_nonneg_left hhigh (by positivity)
    have h₂ : (d : ℤ) * 1 ≤ d * (p * b - a * q) := mul_le_mul_of_nonneg_left hlow (by positivity)
    have : (b + d : ℤ) ≤ q := by linarith
    exact_mod_cast this

theorem Adjacent.low_pos (h : Adjacent a b c d) : 0 < b :=
  Nat.pos_of_ne_zero fun hb => by rw [Adjacent, hb, Nat.mul_zero] at h; omega

theorem Adjacent.high_pos (h : Adjacent a b c d) : 0 < c :=
  Nat.pos_of_ne_zero fun hc => by rw [Adjacent, hc, Nat.zero_mul] at h; omega

/-- What has a smaller numerator or denominator is not above the lower or not below the upper. -/
theorem Adjacent.outside (h : Adjacent a b c d) (hout : ¬ (a + c ≤ p ∧ b + d ≤ q)) :
    p * b ≤ a * q ∨ c * q ≤ p * d := by
  by_contra hin
  obtain ⟨hlow, hhigh⟩ := not_or.mp hin
  exact hout (h.add_le (not_le.mp hlow) (not_le.mp hhigh))

/-- Within bounds no fraction is closer to `n / m` than `p / q`. -/
structure Best (maxNum maxDen n m p q : ℕ) : Prop where
  num_le : p ≤ maxNum
  den_pos : 0 < q
  den_le : q ≤ maxDen
  closest : ∀ p' q' : ℕ, p' ≤ maxNum → 0 < q' → q' ≤ maxDen →
    |(n / m : ℚ) - p / q| ≤ |(n / m : ℚ) - p' / q'|

section Enclosed

/-! A fraction that is a sum of `α` of the lower and `β` of the upper is enclosed by them. -/

variable {n m α β : ℕ} (hn : n = α * a + β * c) (hm : m = α * b + β * d)
include hn hm

theorem Adjacent.sub_low (h : Adjacent a b c d) (hmpos : 0 < m) :
    (n / m : ℚ) - a / b = β / (m * b) := by
  have hb : (b : ℚ) ≠ 0 := by exact_mod_cast h.low_pos.ne'
  have hm' : (m : ℚ) ≠ 0 := by exact_mod_cast hmpos.ne'
  have hdet : (c * b : ℚ) = a * d + 1 := by exact_mod_cast h
  have hnum : (n * b - m * a : ℚ) = β := by
    rw [hn, hm]
    push_cast
    linear_combination (β : ℚ) * hdet
  rw [div_sub_div _ _ hm' hb, hnum]

theorem Adjacent.high_sub (h : Adjacent a b c d) (hd : 0 < d) (hmpos : 0 < m) :
    (c / d : ℚ) - n / m = α / (m * d) := by
  have hd : (d : ℚ) ≠ 0 := by exact_mod_cast hd.ne'
  have hm' : (m : ℚ) ≠ 0 := by exact_mod_cast hmpos.ne'
  have hdet : (c * b : ℚ) = a * d + 1 := by exact_mod_cast h
  have hnum : (c * m - d * n : ℚ) = α := by
    rw [hn, hm]
    push_cast
    linear_combination (α : ℚ) * hdet
  rw [div_sub_div _ _ hd hm', hnum, mul_comm (d : ℚ)]

/-- The lower is the closer one. -/
theorem Adjacent.low_le_high (h : Adjacent a b c d) (hd : 0 < d) (hmpos : 0 < m)
    (hle : β * d ≤ α * b) : |(n / m : ℚ) - a / b| ≤ |(n / m : ℚ) - c / d| := by
  have hb : (0 : ℚ) < b := by exact_mod_cast h.low_pos
  have hd' : (0 : ℚ) < d := by exact_mod_cast hd
  have hm' : (0 : ℚ) < m := by exact_mod_cast hmpos
  have hle' : (β * (m * d) : ℚ) ≤ α * (m * b) := by
    have := Nat.mul_le_mul_left m hle
    rw [Nat.mul_left_comm, Nat.mul_left_comm m α] at this
    exact_mod_cast this
  rw [abs_sub_comm (n / m : ℚ) (c / d), h.sub_low hn hm hmpos, h.high_sub hn hm hd hmpos,
    abs_of_nonneg (by positivity), abs_of_nonneg (by positivity),
    div_le_div_iff₀ (by positivity) (by positivity)]
  exact hle'

/-- The upper is the closer one. -/
theorem Adjacent.high_le_low (h : Adjacent a b c d) (hd : 0 < d) (hmpos : 0 < m)
    (hle : α * b ≤ β * d) : |(n / m : ℚ) - c / d| ≤ |(n / m : ℚ) - a / b| := by
  have hb : (0 : ℚ) < b := by exact_mod_cast h.low_pos
  have hd' : (0 : ℚ) < d := by exact_mod_cast hd
  have hm' : (0 : ℚ) < m := by exact_mod_cast hmpos
  have hle' : (α * (m * b) : ℚ) ≤ β * (m * d) := by
    have := Nat.mul_le_mul_left m hle
    rw [Nat.mul_left_comm, Nat.mul_left_comm m β] at this
    exact_mod_cast this
  rw [abs_sub_comm (n / m : ℚ) (c / d), h.sub_low hn hm hmpos, h.high_sub hn hm hd hmpos,
    abs_of_nonneg (by positivity), abs_of_nonneg (by positivity),
    div_le_div_iff₀ (by positivity) (by positivity)]
  exact hle'

/-- What is not between the two is not closer than both. -/
theorem Adjacent.closest (h : Adjacent a b c d) (hmpos : 0 < m) (hq : 0 < q)
    (hout : ¬ (a + c ≤ p ∧ b + d ≤ q)) :
    |(n / m : ℚ) - a / b| ≤ |(n / m : ℚ) - p / q| ∨
      0 < d ∧ |(n / m : ℚ) - c / d| ≤ |(n / m : ℚ) - p / q| := by
  have hb : (0 : ℚ) < b := by exact_mod_cast h.low_pos
  have hm' : (0 : ℚ) < m := by exact_mod_cast hmpos
  have hq' : (0 : ℚ) < q := by exact_mod_cast hq
  rcases h.outside hout with hle | hle
  · have hlow : (a / b : ℚ) ≤ n / m := by
      rw [← sub_nonneg, h.sub_low hn hm hmpos]
      positivity
    have hp : (p / q : ℚ) ≤ a / b := by
      rw [div_le_div_iff₀ hq' hb]
      exact_mod_cast hle
    left
    rw [abs_of_nonneg (by linarith), abs_of_nonneg (by linarith)]
    linarith
  · have hd : 0 < d := Nat.pos_of_ne_zero fun hd => by
      rw [hd, Nat.mul_zero] at hle
      exact absurd (Nat.mul_pos h.high_pos hq) (by omega)
    have hd' : (0 : ℚ) < d := by exact_mod_cast hd
    have hhigh : (n / m : ℚ) ≤ c / d := by
      rw [← sub_nonneg, h.high_sub hn hm hd hmpos]
      positivity
    have hp : (c / d : ℚ) ≤ p / q := by
      rw [div_le_div_iff₀ hd' hq']
      exact_mod_cast hle
    refine .inr ⟨hd, ?_⟩
    rw [abs_of_nonpos (by linarith), abs_of_nonpos (by linarith)]
    linarith

variable {maxNum maxDen : ℕ}

/-- The lower is best where it is the closer one, and the sum is out of the bounds. -/
theorem Adjacent.best_low (h : Adjacent a b c d) (hmpos : 0 < m) (ha : a ≤ maxNum) (hb : b ≤ maxDen)
    (hsum : ¬ (a + c ≤ maxNum ∧ b + d ≤ maxDen)) (hle : β * d ≤ α * b) :
    Best maxNum maxDen n m a b := by
  refine ⟨ha, h.low_pos, hb, fun p q hp hq hqle => ?_⟩
  have hout : ¬ (a + c ≤ p ∧ b + d ≤ q) := fun hin =>
    hsum ⟨le_trans hin.1 hp, le_trans hin.2 hqle⟩
  rcases h.closest hn hm hmpos hq hout with hlow | ⟨hd, hhigh⟩
  · exact hlow
  · exact le_trans (h.low_le_high hn hm hd hmpos hle) hhigh

/-- The upper is best where it is the closer one, and the sum is out of the bounds. -/
theorem Adjacent.best_high (h : Adjacent a b c d) (hmpos : 0 < m) (hdpos : 0 < d)
    (hc : c ≤ maxNum) (hd : d ≤ maxDen) (hsum : ¬ (a + c ≤ maxNum ∧ b + d ≤ maxDen))
    (hle : α * b ≤ β * d) : Best maxNum maxDen n m c d := by
  refine ⟨hc, hdpos, hd, fun p q hp hq hqle => ?_⟩
  have hout : ¬ (a + c ≤ p ∧ b + d ≤ q) := fun hin =>
    hsum ⟨le_trans hin.1 hp, le_trans hin.2 hqle⟩
  rcases h.closest hn hm hmpos hq hout with hlow | ⟨-, hhigh⟩
  · exact le_trans (h.high_le_low hn hm hdpos hmpos hle) hlow
  · exact hhigh

/-- Of two adjacent fractions the closer one is best, once the sum is out of the bounds. -/
theorem best_of_closer (h : Adjacent a b c d ∨ Adjacent c d a b) (hmpos : 0 < m) (hbpos : 0 < b)
    (ha : a ≤ maxNum) (hb : b ≤ maxDen) (hsum : ¬ (a + c ≤ maxNum ∧ b + d ≤ maxDen))
    (hle : β * d ≤ α * b) : Best maxNum maxDen n m a b := by
  rcases h with h | h
  · exact h.best_low hn hm hmpos ha hb hsum hle
  · rw [Nat.add_comm a, Nat.add_comm b] at hsum
    rw [Nat.add_comm] at hn hm
    exact h.best_high hn hm hmpos hbpos ha hb hsum hle

end Enclosed

/-- A fraction that is the same is best. -/
theorem best_of_eq {maxNum maxDen n m : ℕ} (hnum : a ≤ maxNum) (hpos : 0 < b) (hden : b ≤ maxDen)
    (heq : (n / m : ℚ) = a / b) : Best maxNum maxDen n m a b := by
  refine ⟨hnum, hpos, hden, fun p q _ _ _ => ?_⟩
  rw [heq, sub_self, abs_zero]
  exact abs_nonneg _

/-- What is itself in bounds is found. -/
theorem Best.eq_of_le {maxNum maxDen n m k : ℕ} (h : Best maxNum maxDen n m p q) (ha : a ≤ maxNum)
    (hb : 0 < b) (hble : b ≤ maxDen) (hk : 0 < k) (hn : n = k * a) (hm : m = k * b) :
    (p / q : ℚ) = a / b := by
  have hk' : (k : ℚ) ≠ 0 := by exact_mod_cast hk.ne'
  have hsame : (n / m : ℚ) = a / b := by
    rw [hn, hm, Nat.cast_mul, Nat.cast_mul, mul_div_mul_left _ _ hk']
  have hle := h.closest a b ha hb hble
  rw [hsame, sub_self, abs_zero] at hle
  have hzero := abs_eq_zero.mp (le_antisymm hle (abs_nonneg _))
  linarith

/-- The best is within the distance of the multiples of `1 / k`. -/
theorem Best.abs_sub_le {maxNum maxDen n m k : ℕ} (h : Best maxNum maxDen n m p q) (hm : 0 < m)
    (hk : 0 < k) (hkle : k ≤ maxDen) (hnum : n * k / m ≤ maxNum) :
    |(n / m : ℚ) - p / q| ≤ 1 / k := by
  have hm' : (0 : ℚ) < m := by exact_mod_cast hm
  have hk' : (0 : ℚ) < k := by exact_mod_cast hk
  have hdown : ((n * k / m : ℕ) : ℚ) / k ≤ n / m := by
    rw [div_le_div_iff₀ hk' hm']
    exact_mod_cast Nat.div_mul_le_self (n * k) m
  have hup : (n / m : ℚ) ≤ (n * k / m : ℕ) / k + 1 / k := by
    rw [← add_div, div_le_div_iff₀ hm' hk', add_mul, one_mul]
    have hlt := Nat.lt_div_mul_add (a := n * k) hm
    exact_mod_cast hlt.le
  refine le_trans (h.closest _ k hnum hk hkle) ?_
  rw [abs_of_nonneg (by linarith)]
  linarith

end BestFraction
