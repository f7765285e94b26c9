import Mathlib.Tactic.Common

/-!
# Polling

A loop `while (timeout--)` that ends when a pass has something to say.
-/

variable {ρ : Type*} {pass : ℕ → Option ρ} {r : ρ} {timeout left t n : ℕ}

/-- What the pass that ends the loop says, and what is left of the timeout; nothing if it runs
out. The passes are numbered from `t`. -/
def pollFor (pass : ℕ → Option ρ) : ℕ → ℕ → Option (ρ × ℕ)
  | 0, _ => none
  | timeout + 1, t =>
    match pass t with
    | some r => some (r, timeout)
    | none => pollFor pass timeout (t + 1)

/-- Pass `t + n` ends the loop, in time. -/
theorem pollFor_of_first (h : pass (t + n) = some r) (hfirst : ∀ k < n, pass (t + k) = none)
    (hn : n < timeout) : pollFor pass timeout t = some (r, timeout - (n + 1)) := by
  induction n generalizing timeout t with
  | zero =>
    obtain ⟨timeout, rfl⟩ := Nat.exists_eq_succ_of_ne_zero (by omega : timeout ≠ 0)
    rw [Nat.add_zero] at h
    rw [pollFor, h]
    rfl
  | succ n ih =>
    obtain ⟨timeout, rfl⟩ := Nat.exists_eq_succ_of_ne_zero (by omega : timeout ≠ 0)
    have hnone := hfirst 0 (by omega)
    rw [Nat.add_zero] at hnone
    rw [pollFor, hnone]
    refine (ih (t := t + 1) ?_ (fun k hk => ?_) (by omega)).trans ?_
    · rw [show t + 1 + n = t + (n + 1) by omega]
      exact h
    · rw [show t + 1 + k = t + (k + 1) by omega]
      exact hfirst (k + 1) (by omega)
    · rw [show timeout + 1 - (n + 1 + 1) = timeout - (n + 1) by omega]

theorem pollFor_eq_none (h : ∀ k < timeout, pass (t + k) = none) :
    pollFor pass timeout t = none := by
  induction timeout generalizing t with
  | zero => rfl
  | succ timeout ih =>
    have hnone := h 0 (by omega)
    rw [Nat.add_zero] at hnone
    rw [pollFor, hnone]
    refine ih fun k hk => ?_
    rw [show t + 1 + k = t + (k + 1) by omega]
    exact h (k + 1) (by omega)

theorem pollFor_eq_some (h : pollFor pass timeout t = some (r, left)) :
    ∃ n < timeout, pass (t + n) = some r ∧ ∀ k < n, pass (t + k) = none := by
  induction timeout generalizing t with
  | zero => cases h
  | succ timeout ih =>
    rw [pollFor] at h
    cases hpass : pass t with
    | some r' =>
      rw [hpass] at h
      cases h
      exact ⟨0, by omega, hpass, fun k hk => absurd hk (by omega)⟩
    | none =>
      rw [hpass] at h
      obtain ⟨n, hn, hr, hfirst⟩ := ih h
      refine ⟨n + 1, by omega, by rwa [show t + (n + 1) = t + 1 + n by omega], fun k hk => ?_⟩
      rcases k with _ | k
      · exact hpass
      · rw [show t + (k + 1) = t + 1 + k by omega]
        exact hfirst k (by omega)

theorem pollFor_isSome :
    (pollFor pass timeout t).isSome ↔ ∃ k < timeout, (pass (t + k)).isSome := by
  induction timeout generalizing t with
  | zero => simp [pollFor]
  | succ timeout ih =>
    rw [pollFor]
    cases h : pass t with
    | some r => simpa using ⟨0, by omega, by rw [Nat.add_zero, h]; rfl⟩
    | none =>
      simp only
      rw [ih]
      constructor
      · rintro ⟨k, hk, hpass⟩
        exact ⟨k + 1, by omega, by rwa [show t + (k + 1) = t + 1 + k by omega]⟩
      · rintro ⟨k, hk, hpass⟩
        rcases k with _ | k
        · rw [Nat.add_zero, h] at hpass
          cases hpass
        · exact ⟨k, by omega, by rwa [show t + 1 + k = t + (k + 1) by omega]⟩

/-- The first pass that has something to say ends the loop, if there is one in time. -/
theorem pollFor_cases (pass : ℕ → Option ρ) (timeout : ℕ) :
    (∃ n < timeout, ∃ r, pass n = some r ∧ (∀ k < n, pass k = none) ∧
      pollFor pass timeout 0 = some (r, timeout - (n + 1))) ∨
    (∀ k < timeout, pass k = none) ∧ pollFor pass timeout 0 = none := by
  rcases heq : pollFor pass timeout 0 with _ | ⟨r, left⟩
  · refine .inr ⟨fun k hk => ?_, rfl⟩
    have hnone := mt pollFor_isSome.2 (by rw [heq]; exact Bool.false_ne_true)
    rw [← Option.not_isSome_iff_eq_none]
    exact fun hpass => hnone ⟨k, hk, by rwa [Nat.zero_add]⟩
  · obtain ⟨n, hn, hpass, hfirst⟩ := pollFor_eq_some heq
    have hend := pollFor_of_first hpass hfirst hn
    simp only [Nat.zero_add] at hpass hfirst
    exact .inl ⟨n, hn, r, hpass, hfirst, heq ▸ hend⟩
