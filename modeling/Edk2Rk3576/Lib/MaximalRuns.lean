import Mathlib.Tactic.Common

/-!
# Maximal runs

Places with a property come in runs. A run that cannot be made longer is told from where it starts,
and any other one starts in front of it or behind the place that ends it.
-/

/-- From `p` up to `q` all places have the property, and the ones next to these have not. -/
structure MaximalRun (P : ℕ → Prop) (p q : ℕ) : Prop where
  lt : p < q
  inside : ∀ i, p ≤ i → i < q → P i
  left : ∀ i, i + 1 = p → ¬ P i
  right : ¬ P q

namespace MaximalRun

variable {P : ℕ → Prop} {p q p' q' : ℕ}

/-- A run that is made longer by a place. -/
theorem inside_succ (h : ∀ i, p ≤ i → i < q → P i) (hq : P q) : ∀ i, p ≤ i → i < q + 1 → P i := by
  intro i hp hi
  rcases Nat.eq_or_lt_of_le (Nat.le_of_lt_succ hi) with rfl | hlt
  · exact hq
  · exact h i hp hlt

/-- What is next to a place without the property starts a run. -/
theorem left_of_not (hq : ¬ P q) : ∀ i, i + 1 = q + 1 → ¬ P i := by
  intro i hi
  have heq : i = q := by omega
  rwa [heq]

theorem start (h : MaximalRun P p q) : P p := h.inside p (Nat.le_refl p) h.lt

theorem eq_of_start (h : MaximalRun P p q) (h' : MaximalRun P p q') : q = q' := by
  have hq : ¬ q < q' := fun hlt => h.right (h'.inside q (Nat.le_of_lt h.lt) hlt)
  have hq' : ¬ q' < q := fun hlt => h'.right (h.inside q' (Nat.le_of_lt h'.lt) hlt)
  omega

/-- A run that does not start in front of another is the same, or starts behind its end. -/
theorem same_or_behind (h : MaximalRun P p q) (h' : MaximalRun P p' q') (hp : p ≤ p') :
    p' = p ∧ q' = q ∨ q < p' := by
  rcases Nat.eq_or_lt_of_le hp with rfl | hlt
  · exact .inl ⟨rfl, h'.eq_of_start h⟩
  · refine .inr ?_
    by_contra hle
    rcases Nat.eq_or_lt_of_le (Nat.not_lt.1 hle) with rfl | hq
    · exact h.right h'.start
    · exact h'.left (p' - 1) (by omega) (h.inside (p' - 1) (by omega) (by omega))

end MaximalRun
