import Mathlib.Tactic.Common

/-!
# Counted loops

A loop over `0, ..., n - 1`, up or down, as the composition of its passes; what its passes keep, the
loop keeps, and two loops whose passes correspond correspond. A loop over the items of a list is a
fold, with an invariant that tells which items are done.
-/

section Loops

variable {σ τ : Type*}

def countUp (f : ℕ → σ → σ) : ℕ → σ → σ
  | 0, s => s
  | n + 1, s => f n (countUp f n s)

def countDown (f : ℕ → σ → σ) : ℕ → σ → σ
  | 0, s => s
  | n + 1, s => countDown f n (f n s)

variable {f : ℕ → σ → σ} {g : ℕ → τ → τ} {n : ℕ} {s : σ} {t : τ}

/-- An invariant that tells how far the loop is. -/
theorem countUp_invariant (P : ℕ → σ → Prop) (h₀ : P 0 s)
    (hf : ∀ i < n, ∀ s, P i s → P (i + 1) (f i s)) : P n (countUp f n s) := by
  induction n with
  | zero => exact h₀
  | succ n ih => exact hf n (by omega) _ (ih fun i hi => hf i (by omega))

/-- What the first pass brings about and the others keep. -/
theorem countUp_of_first {P : σ → Prop} (hn : 0 < n) (h₀ : P (f 0 s))
    (hf : ∀ i < n, 0 < i → ∀ s, P s → P (f i s)) : P (countUp f n s) := by
  induction n with
  | zero => omega
  | succ n ih =>
    rcases Nat.eq_zero_or_pos n with rfl | hpos
    · exact h₀
    · exact hf n (by omega) hpos _ (ih hpos fun i hi => hf i (by omega))

theorem countUp_rel {R : σ → τ → Prop} (h : R s t)
    (hf : ∀ i < n, ∀ s t, R s t → R (f i s) (g i t)) : R (countUp f n s) (countUp g n t) := by
  induction n with
  | zero => exact h
  | succ n ih => exact hf n (by omega) _ _ (ih fun i hi => hf i (by omega))

theorem countDown_rel {R : σ → τ → Prop} (h : R s t)
    (hf : ∀ i < n, ∀ s t, R s t → R (f i s) (g i t)) :
    R (countDown f n s) (countDown g n t) := by
  induction n generalizing s t with
  | zero => exact h
  | succ n ih => exact ih (hf n (by omega) _ _ h) fun i hi => hf i (by omega)

theorem foldl_invariant {α : Type*} {f : σ → α → σ} {xs : List α} (P : List α → σ → Prop)
    (h₀ : P [] s) (hf : ∀ front x back s, xs = front ++ x :: back → P front s →
      P (front ++ [x]) (f s x)) : P xs (xs.foldl f s) := by
  suffices h : ∀ back front s, xs = front ++ back → P front s → P xs (back.foldl f s) from
    h xs [] s rfl h₀
  intro back
  induction back with
  | nil =>
    intro front s hxs hP
    rwa [hxs, List.append_nil]
  | cons x back ih =>
    intro front s hxs hP
    exact ih (front ++ [x]) _ (by rw [hxs, List.append_assoc]; rfl) (hf front x back s hxs hP)

end Loops
