import Edk2Rk3576.Lib.BestFraction
import Edk2Rk3576.Lib.CUInt

/-!
# Approximating a fraction

`RationalBestApproximation` goes through the convergents of a fraction up to the first that is out
of bounds, and then takes the last one inside or a semi-convergent. The semi-convergent is found by
dividing by a numerator and a denominator, one of which is still zero where the fraction is out of
bounds itself or its inverse is.
-/

namespace Edk2Rk3576.Hdmi

open BestFraction

/-- What is returned where the next convergent is out of bounds. `a` is the term it would have, and
`d` what is left after it. -/
def semiConvergent (maxNumerator maxDenominator dp a d n0 d0 n1 d1 : ℕ) : Option (ℕ × ℕ) := do
  let t₁ ← CUInt.div (← CUInt.sub maxNumerator n0) n1
  let t₂ ← CUInt.div (← CUInt.sub maxDenominator d0) d1
  let t := min t₁ t₂
  let twice ← CUInt.mul 32 2 t
  let closer ←
    if a < twice then some true
    else if twice = a then do
      let left ← CUInt.mul 32 d0 dp
      let right ← CUInt.mul 32 d1 d
      some (decide (right < left))
    else some false
  if closer then
    some (← CUInt.add 32 n0 (← CUInt.mul 32 t n1), ← CUInt.add 32 d0 (← CUInt.mul 32 t d1))
  else some (n1, d1)

/-- The loop, from `n / d` and the two last convergents. -/
def convergents (maxNumerator maxDenominator n d n0 d0 n1 d1 : ℕ) : Option (ℕ × ℕ) :=
  if _h : d = 0 then some (n1, d1)
  else do
    let a := n / d
    let n2 ← CUInt.add 32 n0 (← CUInt.mul 32 a n1)
    let d2 ← CUInt.add 32 d0 (← CUInt.mul 32 a d1)
    if maxNumerator < n2 ∨ maxDenominator < d2 then
      semiConvergent maxNumerator maxDenominator d a (n % d) n0 d0 n1 d1
    else convergents maxNumerator maxDenominator d (n % d) n1 d1 n2 d2
termination_by d
decreasing_by exact Nat.mod_lt _ (Nat.pos_of_ne_zero _h)

def rationalBestApproximation (givenNumerator givenDenominator maxNumerator maxDenominator : ℕ) :
    Option (ℕ × ℕ) :=
  convergents maxNumerator maxDenominator givenNumerator givenDenominator 0 1 1 0

section Loop

variable {maxNumerator maxDenominator num den n d n0 d0 n1 d1 : ℕ}

/-- What holds of the convergents and the remainders: they make up the given fraction. -/
structure Convergents (maxNumerator maxDenominator num den n d n0 d0 n1 d1 : ℕ) : Prop where
  num_eq : num = n * n1 + d * n0
  den_eq : den = n * d1 + d * d0
  adjacent : Adjacent n1 d1 n0 d0 ∨ Adjacent n0 d0 n1 d1
  n0_le : n0 ≤ maxNumerator
  n1_le : n1 ≤ maxNumerator
  d0_le : d0 ≤ maxDenominator
  d1_le : d1 ≤ maxDenominator

theorem Convergents.start (hnum : 1 ≤ maxNumerator) (hden : 1 ≤ maxDenominator) :
    Convergents maxNumerator maxDenominator num den num den 0 1 1 0 :=
  ⟨by omega, by omega, .inr rfl, Nat.zero_le _, hnum, hden, Nat.zero_le _⟩

/-- The next convergent. -/
theorem Convergents.next (h : Convergents maxNumerator maxDenominator num den n d n0 d0 n1 d1)
    (hn : n0 + n / d * n1 ≤ maxNumerator) (hd : d0 + n / d * d1 ≤ maxDenominator) :
    Convergents maxNumerator maxDenominator num den d (n % d) n1 d1
      (n0 + n / d * n1) (d0 + n / d * d1) := by
  have hdiv : n = d * (n / d) + n % d := (Nat.div_add_mod n d).symm
  obtain ⟨a, ha⟩ : ∃ a, a = n / d := ⟨_, rfl⟩
  obtain ⟨r, hr⟩ : ∃ r, r = n % d := ⟨_, rfl⟩
  rw [← ha] at hn hd hdiv ⊢
  rw [← hr] at hdiv ⊢
  refine ⟨?_, ?_, ?_, h.n1_le, hn, h.d1_le, hd⟩
  · rw [h.num_eq, hdiv]
    ring
  · rw [h.den_eq, hdiv]
    ring
  · rcases h.adjacent with hadj | hadj
    · right
      unfold Adjacent at hadj ⊢
      linarith
    · left
      unfold Adjacent at hadj ⊢
      linarith

/-- The last of the fractions that the two convergents lead to inside of the bounds. -/
theorem sum_out_of_bounds (hn1 : 0 < n1) (hd1 : 0 < d1) (hn0 : n0 ≤ maxNumerator)
    (hd0 : d0 ≤ maxDenominator) {t : ℕ}
    (ht : t = min ((maxNumerator - n0) / n1) ((maxDenominator - d0) / d1)) :
    n0 + t * n1 ≤ maxNumerator ∧ d0 + t * d1 ≤ maxDenominator ∧
      ¬ (n1 + (n0 + t * n1) ≤ maxNumerator ∧ d1 + (d0 + t * d1) ≤ maxDenominator) := by
  have hle₁ : t ≤ (maxNumerator - n0) / n1 := by omega
  have hle₂ : t ≤ (maxDenominator - d0) / d1 := by omega
  have hmul₁ := (Nat.le_div_iff_mul_le hn1).mp hle₁
  have hmul₂ := (Nat.le_div_iff_mul_le hd1).mp hle₂
  refine ⟨by omega, by omega, ?_⟩
  rintro ⟨hsum₁, hsum₂⟩
  have hnext₁ : t + 1 ≤ (maxNumerator - n0) / n1 := by
    rw [Nat.le_div_iff_mul_le hn1, Nat.add_mul]
    omega
  have hnext₂ : t + 1 ≤ (maxDenominator - d0) / d1 := by
    rw [Nat.le_div_iff_mul_le hd1, Nat.add_mul]
    omega
  omega

/-- What the test for the semi-convergent compares: the distances, each times both
denominators. -/
theorem closer_iff {dp a d t : ℕ} (hd : d < dp) (hle : d0 ≤ d1) :
    (a < 2 * t ∨ 2 * t = a ∧ d1 * d < d0 * dp →
      (a * dp + d) * d1 ≤ dp * (d0 + t * d1) + t * dp * d1) ∧
    (¬ (a < 2 * t ∨ 2 * t = a ∧ d1 * d < d0 * dp) →
      dp * (d0 + t * d1) + t * dp * d1 ≤ (a * dp + d) * d1) := by
  have hleft : (a * dp + d) * d1 = a * (dp * d1) + d1 * d := by ring
  have hright : dp * (d0 + t * d1) + t * dp * d1 = 2 * t * (dp * d1) + d0 * dp := by ring
  have hd1 : d1 * d ≤ dp * d1 := by
    rw [Nat.mul_comm dp]
    exact Nat.mul_le_mul_left _ hd.le
  have hd0 : d0 * dp ≤ dp * d1 := by
    rw [Nat.mul_comm dp]
    exact Nat.mul_le_mul_right _ hle
  rw [hleft, hright]
  constructor
  · rintro (hlt | ⟨heq, hlt⟩)
    · have hmul := Nat.mul_le_mul_right (dp * d1) (Nat.succ_le_of_lt hlt)
      rw [Nat.succ_mul] at hmul
      omega
    · rw [heq]
      omega
  · intro hnot
    rcases lt_trichotomy (2 * t) a with hlt | heq | hlt
    · have hmul := Nat.mul_le_mul_right (dp * d1) (Nat.succ_le_of_lt hlt)
      rw [Nat.succ_mul] at hmul
      omega
    · have hge : d0 * dp ≤ d1 * d := not_lt.mp fun hlt => hnot (.inr ⟨heq, hlt⟩)
      rw [heq]
      omega
    · exact absurd (.inl hlt) hnot

/-- Without a zero among the divisors, the test is evaluated as it is written. -/
theorem semiConvergent_eq {dp a d t : ℕ} (hN : maxNumerator ≤ 255) (hD : maxDenominator ≤ 255)
    (hdp : dp ≤ 750000) (hd : d < dp) (hn1 : 0 < n1) (hd1 : 0 < d1) (hn0 : n0 ≤ maxNumerator)
    (hd0 : d0 ≤ maxDenominator) (hd1le : d1 ≤ maxDenominator)
    (ht : t = min ((maxNumerator - n0) / n1) ((maxDenominator - d0) / d1)) :
    semiConvergent maxNumerator maxDenominator dp a d n0 d0 n1 d1 =
      if a < 2 * t ∨ 2 * t = a ∧ d1 * d < d0 * dp then some (n0 + t * n1, d0 + t * d1)
      else some (n1, d1) := by
  obtain ⟨hnum, hden, -⟩ := sum_out_of_bounds hn1 hd1 hn0 hd0 ht
  have htle : t ≤ maxNumerator := le_trans (Nat.le_mul_of_pos_right t hn1) (by omega)
  have hleft : d0 * dp < 2 ^ 32 :=
    lt_of_le_of_lt (Nat.mul_le_mul (le_trans hd0 hD) hdp) (by norm_num)
  have hright : d1 * d < 2 ^ 32 :=
    lt_of_le_of_lt (Nat.mul_le_mul (le_trans hd1le hD) (hd.le.trans hdp)) (by norm_num)
  have hmulN : CUInt.mul 32 t n1 = some (t * n1) := CUInt.mul_of_lt (by omega)
  have hmulD : CUInt.mul 32 t d1 = some (t * d1) := CUInt.mul_of_lt (by omega)
  have haddN : CUInt.add 32 n0 (t * n1) = some (n0 + t * n1) := CUInt.add_of_lt (by omega)
  have haddD : CUInt.add 32 d0 (t * d1) = some (d0 + t * d1) := CUInt.add_of_lt (by omega)
  have htwice : CUInt.mul 32 2 t = some (2 * t) := CUInt.mul_of_lt (by omega)
  simp only [semiConvergent, CUInt.sub_of_le hn0, CUInt.sub_of_le hd0, CUInt.div_of_ne hn1.ne',
    CUInt.div_of_ne hd1.ne', Option.bind_eq_bind, Option.bind_some, ← ht, htwice,
    CUInt.mul_of_lt hleft, CUInt.mul_of_lt hright, hmulN, hmulD, haddN, haddD]
  by_cases h₁ : a < 2 * t
  · rw [if_pos h₁, if_pos (Or.inl h₁)]
    rfl
  · rw [if_neg h₁]
    by_cases h₂ : 2 * t = a
    · rw [if_pos h₂]
      by_cases h₃ : d1 * d < d0 * dp
      · rw [if_pos (Or.inr ⟨h₂, h₃⟩), decide_eq_true h₃]
        rfl
      · rw [if_neg (not_or.mpr ⟨h₁, fun h => h₃ h.2⟩), decide_eq_false h₃]
        rfl
    · rw [if_neg h₂, if_neg (not_or.mpr ⟨h₁, fun h => h₂ h.1⟩)]
      rfl

/-- The fraction that the semi-convergent step returns is best. -/
theorem semiConvergent_best (hN : maxNumerator ≤ 255) (hD : maxDenominator ≤ 255)
    (hden : 0 < den) (hdle : d ≤ 750000)
    (h : Convergents maxNumerator maxDenominator num den n d n0 d0 n1 d1) (hd : 0 < d)
    (hn1 : 0 < n1) (hd1 : 0 < d1) (hle : d0 ≤ d1)
    (hout : maxNumerator < n0 + n / d * n1 ∨ maxDenominator < d0 + n / d * d1) :
    ∃ p q, semiConvergent maxNumerator maxDenominator d (n / d) (n % d) n0 d0 n1 d1 = some (p, q) ∧
      Best maxNumerator maxDenominator num den p q := by
  obtain ⟨t, ht⟩ : ∃ t, t = min ((maxNumerator - n0) / n1) ((maxDenominator - d0) / d1) := ⟨_, rfl⟩
  obtain ⟨hnum, hden', hsum⟩ := sum_out_of_bounds hn1 hd1 h.n0_le h.d0_le ht
  have hmod := Nat.mod_lt n hd
  have hlt : t < n / d := by
    by_contra hge
    have h₁ := Nat.mul_le_mul_right n1 (not_lt.mp hge)
    have h₂ := Nat.mul_le_mul_right d1 (not_lt.mp hge)
    omega
  have htd : t * d ≤ n := le_trans (Nat.mul_le_mul_right d hlt.le) (Nat.div_mul_le_self n d)
  have hn : n = n / d * d + n % d := by
    rw [Nat.mul_comm]
    exact (Nat.div_add_mod n d).symm
  obtain ⟨hcloser, hfarther⟩ := closer_iff (a := n / d) (t := t) hmod hle
  rw [← hn] at hcloser hfarther
  have hα : n * d1 = (n - t * d) * d1 + t * d * d1 := by
    rw [← Nat.add_mul, Nat.sub_add_cancel htd]
  have hnumEq : num = (n - t * d) * n1 + d * (n0 + t * n1) := by
    have : n * n1 = (n - t * d) * n1 + t * d * n1 := by
      rw [← Nat.add_mul, Nat.sub_add_cancel htd]
    rw [h.num_eq, this]
    ring
  have hdenEq : den = (n - t * d) * d1 + d * (d0 + t * d1) := by
    rw [h.den_eq, hα]
    ring
  have hadj : Adjacent n1 d1 (n0 + t * n1) (d0 + t * d1) ∨
      Adjacent (n0 + t * n1) (d0 + t * d1) n1 d1 := by
    rcases h.adjacent with hadj | hadj
    · left
      unfold Adjacent at hadj ⊢
      linarith
    · right
      unfold Adjacent at hadj ⊢
      linarith
  rw [semiConvergent_eq hN hD hdle hmod hn1 hd1 h.n0_le h.d0_le h.d1_le ht]
  by_cases hc : n / d < 2 * t ∨ 2 * t = n / d ∧ d1 * (n % d) < d0 * d
  · have htpos : 0 < t * d1 := Nat.mul_pos (by omega) hd1
    refine ⟨_, _, if_pos hc, ?_⟩
    rw [Nat.add_comm n1, Nat.add_comm d1] at hsum
    rw [Nat.add_comm] at hnumEq hdenEq
    refine best_of_closer hnumEq hdenEq hadj.symm hden (by omega) hnum hden' hsum ?_
    have := hcloser hc
    rw [hα] at this
    omega
  · refine ⟨_, _, if_neg hc, ?_⟩
    refine best_of_closer hnumEq hdenEq hadj hden hd1 h.n1_le h.d1_le hsum ?_
    have := hfarther hc
    rw [hα] at this
    omega

/-- One round of the loop, whose products and sums stay below what they make up. -/
theorem convergents_step (hN : maxNumerator ≤ 255) (hD : maxDenominator ≤ 255)
    (hnum : num ≤ 750000) (hden : den ≤ 750000)
    (h : Convergents maxNumerator maxDenominator num den n d n0 d0 n1 d1) (hd : d ≠ 0) :
    convergents maxNumerator maxDenominator n d n0 d0 n1 d1 =
      if maxNumerator < n0 + n / d * n1 ∨ maxDenominator < d0 + n / d * d1 then
        semiConvergent maxNumerator maxDenominator d (n / d) (n % d) n0 d0 n1 d1
      else convergents maxNumerator maxDenominator d (n % d) n1 d1 (n0 + n / d * n1)
        (d0 + n / d * d1) := by
  have hmul₁ : n / d * n1 ≤ num := by
    rw [h.num_eq]
    exact le_trans (Nat.mul_le_mul_right n1 (Nat.div_le_self n d)) (Nat.le_add_right _ _)
  have hmul₂ : n / d * d1 ≤ den := by
    rw [h.den_eq]
    exact le_trans (Nat.mul_le_mul_right d1 (Nat.div_le_self n d)) (Nat.le_add_right _ _)
  have hn0 := h.n0_le
  have hd0 := h.d0_le
  have hmulN : CUInt.mul 32 (n / d) n1 = some (n / d * n1) := CUInt.mul_of_lt (by omega)
  have hmulD : CUInt.mul 32 (n / d) d1 = some (n / d * d1) := CUInt.mul_of_lt (by omega)
  have haddN : CUInt.add 32 n0 (n / d * n1) = some (n0 + n / d * n1) := CUInt.add_of_lt (by omega)
  have haddD : CUInt.add 32 d0 (n / d * d1) = some (d0 + n / d * d1) := CUInt.add_of_lt (by omega)
  rw [convergents, dif_neg hd]
  simp only [hmulN, hmulD, haddN, haddD, Option.bind_eq_bind, Option.bind_some]

/-- Once both terms of a convergent are there, the loop ends with the best fraction. The induction
is on the remainder. -/
theorem convergents_best (hN : maxNumerator ≤ 255) (hD : maxDenominator ≤ 255)
    (hnum : num ≤ 750000) (hden : den ≤ 750000) (hpos : 0 < den)
    (h : Convergents maxNumerator maxDenominator num den n d n0 d0 n1 d1) (hdn : d < n)
    (hn1 : 0 < n1) (hd1 : 0 < d1) (hle : d0 ≤ d1) :
    ∃ p q, convergents maxNumerator maxDenominator n d n0 d0 n1 d1 = some (p, q) ∧
      Best maxNumerator maxDenominator num den p q := by
  induction d using Nat.strong_induction_on generalizing n n0 d0 n1 d1 with
  | _ d ih =>
    have hn : n ≤ 750000 := by
      have := h.num_eq
      exact le_trans (Nat.le_mul_of_pos_right n hn1) (by omega)
    by_cases hd : d = 0
    · subst hd
      refine ⟨n1, d1, by rw [convergents, dif_pos rfl], ?_⟩
      have hnumEq : num = n * n1 := by rw [h.num_eq, Nat.zero_mul, Nat.add_zero]
      have hdenEq : den = n * d1 := by rw [h.den_eq, Nat.zero_mul, Nat.add_zero]
      refine best_of_eq h.n1_le hd1 h.d1_le ?_
      have hn' : (n : ℚ) ≠ 0 := by exact_mod_cast hdn.ne'
      rw [hnumEq, hdenEq, Nat.cast_mul, Nat.cast_mul, mul_div_mul_left _ _ hn']
    · have hdpos : 0 < d := Nat.pos_of_ne_zero hd
      rw [convergents_step hN hD hnum hden h hd]
      by_cases hout : maxNumerator < n0 + n / d * n1 ∨ maxDenominator < d0 + n / d * d1
      · rw [if_pos hout]
        exact semiConvergent_best hN hD hpos (by omega) h hdpos hn1 hd1 hle hout
      · rw [if_neg hout]
        obtain ⟨hin₁, hin₂⟩ := not_or.mp hout
        have ha : 1 ≤ n / d := (Nat.one_le_div_iff hdpos).mpr hdn.le
        have hstep₁ : n1 ≤ n / d * n1 := Nat.le_mul_of_pos_left n1 ha
        have hstep₂ : d1 ≤ n / d * d1 := Nat.le_mul_of_pos_left d1 ha
        exact ih _ (Nat.mod_lt n hdpos) (h.next (not_lt.mp hin₁) (not_lt.mp hin₂))
          (Nat.mod_lt n hdpos) (by omega) (by omega) (by omega)

end Loop

section Approximation

variable {num den maxNumerator maxDenominator : ℕ}

/-- The function returns, and what it returns is best. -/
def Approximates (num den maxNumerator maxDenominator : ℕ) : Prop :=
  ∃ p q, rationalBestApproximation num den maxNumerator maxDenominator = some (p, q) ∧
    Best maxNumerator maxDenominator num den p q

/-- Where the fraction or its inverse is out of bounds, a divisor is zero. -/
theorem semiConvergent_zero {dp a d n0 d0 n1 d1 : ℕ} (h : n1 = 0 ∨ d1 = 0) :
    semiConvergent maxNumerator maxDenominator dp a d n0 d0 n1 d1 = none := by
  unfold semiConvergent
  rcases h with rfl | rfl
  · cases CUInt.sub maxNumerator n0 <;> rfl
  · cases CUInt.sub maxNumerator n0 with
    | none => rfl
    | some x =>
      cases CUInt.div x n1 with
      | none => simp
      | some y => cases CUInt.sub maxDenominator d0 <;> simp

/-- The first round. -/
theorem rationalBestApproximation_eq (hnum : num ≤ 750000) (hden : den ≤ 750000) (hpos : 0 < den)
    (hN : 1 ≤ maxNumerator) (hN' : maxNumerator ≤ 255) (hD : 1 ≤ maxDenominator)
    (hD' : maxDenominator ≤ 255) :
    rationalBestApproximation num den maxNumerator maxDenominator =
      if maxNumerator < num / den then none
      else convergents maxNumerator maxDenominator den (num % den) 1 0 (num / den) 1 := by
  rw [rationalBestApproximation,
    convergents_step hN' hD' hnum hden (Convergents.start hN hD) hpos.ne',
    semiConvergent_zero (.inr rfl)]
  have hden' : ¬ maxDenominator < 1 := not_lt.mpr hD
  simp only [Nat.zero_add, Nat.mul_one, Nat.mul_zero, Nat.add_zero, hden', or_false]

/-- The second, of a fraction below one. -/
theorem rationalBestApproximation_proper (hlt : num < den) (hnum : 0 < num) (hden : den ≤ 750000)
    (hN : 1 ≤ maxNumerator) (hN' : maxNumerator ≤ 255) (hD : 1 ≤ maxDenominator)
    (hD' : maxDenominator ≤ 255) :
    rationalBestApproximation num den maxNumerator maxDenominator =
      if maxDenominator < den / num then none
      else convergents maxNumerator maxDenominator num (den % num) 0 1 1 (den / num) := by
  have hzero : num / den = 0 := Nat.div_eq_of_lt hlt
  have hmod : num % den = num := Nat.mod_eq_of_lt hlt
  have hnext := (@Convergents.start maxNumerator maxDenominator num den hN hD).next
    (by rw [hzero]; omega) (by rw [hzero]; omega)
  rw [hzero, hmod] at hnext
  rw [rationalBestApproximation_eq (by omega) hden (by omega) hN hN' hD hD', hzero,
    if_neg (by omega), hmod, convergents_step hN' hD' (by omega) hden hnext hnum.ne']
  have hnum' : ¬ maxNumerator < 1 := not_lt.mpr hN
  simp only [Nat.zero_add, Nat.mul_one, Nat.mul_zero, Nat.add_zero, hnum', false_or,
    semiConvergent_zero (.inl rfl)]

theorem rationalBestApproximation_none (hnum : num ≤ 750000) (hden : den ≤ 750000) (hpos : 0 < den)
    (hN : 1 ≤ maxNumerator) (hN' : maxNumerator ≤ 255) (hD : 1 ≤ maxDenominator)
    (hD' : maxDenominator ≤ 255) (hout : maxNumerator < num / den ∨ maxDenominator < den / num) :
    rationalBestApproximation num den maxNumerator maxDenominator = none := by
  by_cases hle : num / den ≤ maxNumerator
  · have hout := hout.resolve_left (not_lt.mpr hle)
    have hnum0 : 0 < num := Nat.pos_of_ne_zero fun h => by
      rw [h, Nat.div_zero] at hout
      omega
    have hlt : num < den := by
      have hone : 1 < den / num := by omega
      have := (Nat.le_div_iff_mul_le hnum0).mp hone
      omega
    rw [rationalBestApproximation_proper hlt hnum0 hden hN hN' hD hD', if_pos hout]
  · rw [rationalBestApproximation_eq hnum hden hpos hN hN' hD hD', if_pos (not_le.mp hle)]

theorem rationalBestApproximation_best (hnum : num ≤ 750000) (hden : den ≤ 750000) (hpos : 0 < den)
    (hN : 1 ≤ maxNumerator) (hN' : maxNumerator ≤ 255) (hD : 1 ≤ maxDenominator)
    (hD' : maxDenominator ≤ 255) (hle : num / den ≤ maxNumerator)
    (hle' : den / num ≤ maxDenominator) :
    Approximates num den maxNumerator maxDenominator := by
  unfold Approximates
  have hnext := (@Convergents.start maxNumerator maxDenominator num den hN hD).next
    (by omega) (by omega)
  rw [Nat.zero_add, Nat.mul_one, Nat.mul_zero, Nat.add_zero] at hnext
  by_cases hlt : num < den
  · by_cases hzero : num = 0
    · subst hzero
      refine ⟨0, 1, ?_, best_of_eq (Nat.zero_le _) Nat.one_pos hD (by simp)⟩
      rw [rationalBestApproximation_eq hnum hden hpos hN hN' hD hD', Nat.zero_div, Nat.zero_mod,
        if_neg (by omega), convergents, dif_pos rfl]
    · have hpos' : 0 < num := Nat.pos_of_ne_zero hzero
      have hone : 1 ≤ den / num := (Nat.one_le_div_iff hpos').mpr hlt.le
      rw [Nat.div_eq_of_lt hlt, Nat.mod_eq_of_lt hlt] at hnext
      have hsecond := hnext.next (by omega) (by omega)
      rw [Nat.mul_zero, Nat.add_zero, Nat.zero_add, Nat.mul_one] at hsecond
      rw [rationalBestApproximation_proper hlt hpos' hden hN hN' hD hD',
        if_neg (not_lt.mpr hle')]
      exact convergents_best hN' hD' hnum hden hpos hsecond (Nat.mod_lt _ hpos') Nat.one_pos hone
        hone
  · have hone : 1 ≤ num / den := (Nat.one_le_div_iff hpos).mpr (not_lt.mp hlt)
    rw [rationalBestApproximation_eq hnum hden hpos hN hN' hD hD', if_neg (not_lt.mpr hle)]
    exact convergents_best hN' hD' hnum hden hpos hnext (Nat.mod_lt _ hpos) hone Nat.one_pos
      (Nat.zero_le _)

/-- The approximation is the best one exactly where neither the fraction nor its inverse is out of
bounds: elsewhere the function divides by zero. -/
theorem approximates_iff (hnum : num ≤ 750000) (hden : den ≤ 750000) (hpos : 0 < den)
    (hN : 1 ≤ maxNumerator) (hN' : maxNumerator ≤ 255) (hD : 1 ≤ maxDenominator)
    (hD' : maxDenominator ≤ 255) :
    Approximates num den maxNumerator maxDenominator ↔
      num / den ≤ maxNumerator ∧ den / num ≤ maxDenominator := by
  constructor
  · rintro ⟨p, q, heq, -⟩
    by_contra hnot
    have hout : maxNumerator < num / den ∨ maxDenominator < den / num := by omega
    rw [rationalBestApproximation_none hnum hden hpos hN hN' hD hD' hout] at heq
    cases heq
  · rintro ⟨hle, hle'⟩
    exact rationalBestApproximation_best hnum hden hpos hN hN' hD hD' hle hle'

theorem approximates_proper : Approximates 7500 22500 127 255 :=
  (approximates_iff (by decide) (by decide) (by decide) (by decide) (by decide) (by decide)
    (by decide)).mpr (by decide)

/-- A gap of 5 kHz, of a spread of 22500: a divisor is zero. -/
theorem smallGap_not_approximates : rationalBestApproximation 5 22500 127 255 = none ∧
    ¬ Approximates 5 22500 127 255 := by
  have hnone : rationalBestApproximation 5 22500 127 255 = none :=
    rationalBestApproximation_none (by decide) (by decide) (by decide) (by decide) (by decide)
      (by decide) (by decide) (by decide)
  refine ⟨hnone, fun ⟨p, q, heq, _⟩ => ?_⟩
  rw [hnone] at heq
  cases heq

end Approximation

end Edk2Rk3576.Hdmi
