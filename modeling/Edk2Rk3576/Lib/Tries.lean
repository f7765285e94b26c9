import Mathlib.Algebra.BigOperators.Group.Finset.Basic
import Mathlib.Data.PNat.Defs

/-!
# Tries on a budget

A loop makes one try after the other until one ends it. A try that does not end it has its cost, and
once nothing is left of the budget the loop gives up.
-/

/-- What a try comes to: it ends the loop, or there is to be another one. -/
inductive TryEnd (ρ : Type*)
  | done (r : ρ)
  | again (cost : ℕ+)

def TryEnd.cost {ρ : Type*} : TryEnd ρ → ℕ
  | done _ => 0
  | again c => c

section Tries

variable {ρ σ : Type*} {attempt : ℕ → σ → TryEnd ρ × σ} {ends : ℕ → TryEnd ρ} {budget t n : ℕ}
  {s : σ} {r : ρ}

/-- The tries are numbered from `t`. -/
def tryFor (attempt : ℕ → σ → TryEnd ρ × σ) (budget t : ℕ) (s : σ) : Option ρ × σ :=
  if budget = 0 then (none, s)
  else
    match attempt t s with
    | (.done r, s) => (some r, s)
    | (.again c, s) => tryFor attempt (budget - c) (t + 1) s
termination_by budget
decreasing_by
  have := c.pos
  omega

theorem tryFor_of_done (hbudget : 0 < budget) (h : (attempt t s).1 = .done r) :
    tryFor attempt budget t s = (some r, (attempt t s).2) := by
  rw [tryFor, if_neg (by omega)]
  rcases heq : attempt t s with ⟨e, s'⟩
  rw [heq] at h
  subst h
  rfl

theorem tryFor_of_again {c : ℕ+} (hbudget : 0 < budget) (h : (attempt t s).1 = .again c) :
    tryFor attempt budget t s = tryFor attempt (budget - c) (t + 1) (attempt t s).2 := by
  rw [tryFor, if_neg (by omega)]
  rcases heq : attempt t s with ⟨e, s'⟩
  rw [heq] at h
  subst h
  rfl

@[simp] theorem tryFor_zero : tryFor attempt 0 t s = (none, s) := by
  rw [tryFor, if_pos rfl]

/-- What the start has and each try keeps. -/
theorem tryFor_invariant {I : σ → Prop} (hs : I s) (hI : ∀ t s, I s → I (attempt t s).2) :
    I (tryFor attempt budget t s).2 := by
  induction budget using Nat.strong_induction_on generalizing t s with
  | _ budget ih =>
    rcases Nat.eq_zero_or_pos budget with rfl | hpos
    · simpa using hs
    · rcases h : (attempt t s).1 with r | c
      · rw [tryFor_of_done hpos h]
        exact hI t s hs
      · have := c.pos
        rw [tryFor_of_again hpos h]
        exact ih (budget - c) (by omega) (hI t s hs)

/-- The last of the tries: either it ended the loop, or nothing was left after it. -/
theorem tryFor_last {I : σ → Prop} (hbudget : 0 < budget) (hs : I s)
    (hI : ∀ t s, I s → I (attempt t s).2) :
    ∃ n < budget, ∃ s', I s' ∧ (attempt (t + n) s').2 = (tryFor attempt budget t s).2 ∧
      ((∃ r, (attempt (t + n) s').1 = .done r ∧ (tryFor attempt budget t s).1 = some r) ∨
        ∃ c, (attempt (t + n) s').1 = .again c ∧ (tryFor attempt budget t s).1 = none) := by
  induction budget using Nat.strong_induction_on generalizing t s with
  | _ budget ih =>
    rcases h : (attempt t s).1 with r | c
    · rw [tryFor_of_done hbudget h]
      exact ⟨0, hbudget, s, hs, rfl, .inl ⟨r, h, rfl⟩⟩
    · have := c.pos
      rw [tryFor_of_again hbudget h]
      rcases Nat.eq_zero_or_pos (budget - c) with hleft | hleft
      · rw [hleft, tryFor_zero]
        exact ⟨0, hbudget, s, hs, rfl, .inr ⟨c, h, rfl⟩⟩
      · obtain ⟨n, hn, s', hs', hlast⟩ := ih (budget - c) (by omega) hleft (hI t s hs)
        rw [show t + 1 + n = t + (n + 1) by omega] at hlast
        exact ⟨n + 1, by omega, s', hs', hlast⟩

/-- Try number `n` is made: the ones before it are to be made again, and leave something of the
budget. -/
def Made (ends : ℕ → TryEnd ρ) (budget t n : ℕ) : Prop :=
  (∀ k < n, ∃ c, ends (t + k) = .again c) ∧ ∑ k ∈ Finset.range n, (ends (t + k)).cost < budget

@[simp] theorem made_zero : Made ends budget t 0 ↔ 0 < budget := by
  simp [Made]

theorem made_succ {c : ℕ+} (h : ends t = .again c) :
    Made ends budget t (n + 1) ↔ Made ends (budget - c) (t + 1) n := by
  have hshift : ∀ k, ends (t + (k + 1)) = ends (t + 1 + k) := fun k => by
    rw [show t + (k + 1) = t + 1 + k by omega]
  have hagain : (∀ k < n, ∃ c, ends (t + (k + 1)) = .again c)
      ↔ ∀ k < n, ∃ c, ends (t + 1 + k) = .again c :=
    forall₂_congr fun k _ => by rw [hshift k]
  have hcost : ∑ k ∈ Finset.range n, (ends (t + (k + 1))).cost
      = ∑ k ∈ Finset.range n, (ends (t + 1 + k)).cost :=
    Finset.sum_congr rfl fun k _ => congrArg TryEnd.cost (hshift k)
  unfold Made
  rw [Finset.sum_range_succ', Nat.forall_lt_succ_left, hagain, hcost, Nat.add_zero, h]
  change ((∃ c', TryEnd.again c = .again c') ∧ _) ∧ _ + (c : ℕ) < budget ↔ _
  constructor
  · rintro ⟨⟨-, hrest⟩, hlt⟩
    exact ⟨hrest, by omega⟩
  · rintro ⟨hrest, hlt⟩
    exact ⟨⟨⟨c, rfl⟩, hrest⟩, by omega⟩

/-- Where each costs one, the budget is a number of tries. -/
theorem made_iff_lt (hcost : ∀ k c, ends k = .again c → c = 1) :
    Made ends budget t n ↔ (∀ k < n, ∃ c, ends (t + k) = .again c) ∧ n < budget := by
  refine and_congr_right fun hagain => ?_
  have hone : ∀ k ∈ Finset.range n, (ends (t + k)).cost = 1 := fun k hk => by
    obtain ⟨c, hc⟩ := hagain k (Finset.mem_range.1 hk)
    obtain rfl := hcost _ _ hc
    rw [hc]
    rfl
  have hsum : ∑ k ∈ Finset.range n, (ends (t + k)).cost = ∑ _k ∈ Finset.range n, 1 :=
    Finset.sum_congr rfl hone
  rw [hsum, Finset.sum_const, Finset.card_range]
  simp

/-- No try is made behind one that ended the loop. -/
theorem not_made_succ (h : ends t = .done r) : ¬ Made ends budget t (n + 1) := by
  rintro ⟨hagain, -⟩
  obtain ⟨c, hc⟩ := hagain 0 (by omega)
  rw [Nat.add_zero, h] at hc
  cases hc

/-- Only one try can end the loop. -/
theorem Made.unique {m : ℕ} {r' : ρ} (h : Made ends budget t n) (h' : Made ends budget t m)
    (hr : ends (t + n) = .done r) (hr' : ends (t + m) = .done r') : n = m := by
  rcases Nat.lt_trichotomy n m with hlt | rfl | hlt
  · obtain ⟨c, hc⟩ := h'.1 n hlt
    rw [hr] at hc
    cases hc
  · rfl
  · obtain ⟨c, hc⟩ := h.1 m hlt
    rw [hr'] at hc
    cases hc

theorem Made.pos (h : Made ends budget t n) : 0 < budget := by
  have := h.2
  omega

section Ends

/-! What a try comes to does not depend on what the ones before it left. -/

variable (hends : ∀ t s, (attempt t s).1 = ends t)

include hends

theorem tryFor_eq_some_iff :
    (tryFor attempt budget t s).1 = some r ↔ ∃ n, Made ends budget t n ∧ ends (t + n) = .done r := by
  induction budget using Nat.strong_induction_on generalizing t s with
  | _ budget ih =>
    rcases Nat.eq_zero_or_pos budget with rfl | hpos
    · simpa using fun n hn => absurd (Made.pos hn) (by omega)
    · rcases h : ends t with r' | c
      · rw [tryFor_of_done hpos ((hends t s).trans h)]
        constructor
        · rintro heq
          cases heq
          exact ⟨0, made_zero.2 hpos, h⟩
        · rintro ⟨_ | n, hmade, hover⟩
          · rw [Nat.add_zero, h] at hover
            cases hover
            rfl
          · exact absurd hmade (not_made_succ h)
      · have := c.pos
        rw [tryFor_of_again hpos ((hends t s).trans h), ih (budget - c) (by omega)]
        constructor
        · rintro ⟨n, hmade, hover⟩
          exact ⟨n + 1, (made_succ h).2 hmade, by rwa [show t + (n + 1) = t + 1 + n by omega]⟩
        · rintro ⟨_ | n, hmade, hover⟩
          · rw [Nat.add_zero, h] at hover
            cases hover
          · exact ⟨n, (made_succ h).1 hmade, by rwa [show t + 1 + n = t + (n + 1) by omega]⟩

/-- What tries bring about, and none undoes. -/
theorem tryFor_brings_iff {I P : σ → Prop} {E : ℕ → Prop} (hs : I s)
    (hI : ∀ t s, I s → I (attempt t s).2) (hP : ∀ t s, I s → (P (attempt t s).2 ↔ P s ∨ E t)) :
    P (tryFor attempt budget t s).2 ↔ P s ∨ ∃ n, Made ends budget t n ∧ E (t + n) := by
  induction budget using Nat.strong_induction_on generalizing t s with
  | _ budget ih =>
    rcases Nat.eq_zero_or_pos budget with rfl | hpos
    · simpa using fun n hn => absurd (Made.pos hn) (by omega)
    · rcases h : ends t with r | c
      · rw [tryFor_of_done hpos ((hends t s).trans h), hP t s hs]
        refine or_congr Iff.rfl ⟨fun hE => ⟨0, made_zero.2 hpos, hE⟩, ?_⟩
        rintro ⟨_ | n, hmade, hE⟩
        · exact hE
        · exact absurd hmade (not_made_succ h)
      · have := c.pos
        rw [tryFor_of_again hpos ((hends t s).trans h), ih (budget - c) (by omega) (hI t s hs),
          hP t s hs, or_assoc]
        refine or_congr Iff.rfl ⟨?_, ?_⟩
        · rintro (hE | ⟨n, hmade, hE⟩)
          · exact ⟨0, made_zero.2 hpos, hE⟩
          · exact ⟨n + 1, (made_succ h).2 hmade, by rwa [show t + (n + 1) = t + 1 + n by omega]⟩
        · rintro ⟨_ | n, hmade, hE⟩
          · exact .inl hE
          · exact .inr ⟨n, (made_succ h).1 hmade, by rwa [show t + 1 + n = t + (n + 1) by omega]⟩

end Ends

end Tries
