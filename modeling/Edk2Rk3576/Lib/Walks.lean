import Mathlib.Tactic.Common

/-!
# Walks

A walk goes from place to place until one where it stops. Which places it passes and where it stops
is a relation, so that what a loop makes of a walk can be told from these, and the walk from where
the loop gets to.
-/

/-- The walk from `a` passes the places of the list and stops at `b`. -/
def StepWalk {σ : Type*} (next : σ → σ) (stops : σ → Prop) : σ → List σ → σ → Prop
  | a, [], b => a = b ∧ stops a
  | a, x :: xs, b => x = a ∧ ¬ stops a ∧ StepWalk next stops (next a) xs b

namespace StepWalk

variable {σ : Type*} {next : σ → σ} {stops : σ → Prop} {a b : σ} {path : List σ}

theorem stop : ∀ {path : List σ} {a : σ}, StepWalk next stops a path b → stops b
  | [], _, ⟨rfl, h⟩ => h
  | _ :: _, _, ⟨_, _, h⟩ => stop h

theorem unique : ∀ {path path' : List σ} {a b' : σ}, StepWalk next stops a path b →
    StepWalk next stops a path' b' → path = path' ∧ b = b'
  | [], [], _, _, ⟨rfl, _⟩, ⟨rfl, _⟩ => ⟨rfl, rfl⟩
  | [], _ :: _, _, _, ⟨_, h⟩, ⟨_, h', _⟩ => absurd h h'
  | _ :: _, [], _, _, ⟨_, h, _⟩, ⟨_, h'⟩ => absurd h' h
  | _ :: _, _ :: _, _, _, ⟨rfl, _, h⟩, ⟨rfl, _, h'⟩ => by
    obtain ⟨rfl, rfl⟩ := unique h h'
    exact ⟨rfl, rfl⟩

theorem invariant {P : σ → Prop} (h : ∀ a, P a → ¬ stops a → P (next a)) :
    ∀ {path : List σ} {a : σ}, P a → StepWalk next stops a path b → P b ∧ ∀ q ∈ path, P q
  | [], _, ha, ⟨rfl, _⟩ => ⟨ha, fun _ hq => absurd hq List.not_mem_nil⟩
  | _ :: _, _, ha, ⟨rfl, hs, hw⟩ => by
    obtain ⟨hb, hall⟩ := invariant h (h _ ha hs) hw
    refine ⟨hb, fun q hq => ?_⟩
    rcases List.mem_cons.1 hq with rfl | hq
    · exact ha
    · exact hall q hq

/-- A walk stops if each of its steps lowers a number. -/
theorem exists_of_measure {P : σ → Prop} {n : σ → ℕ}
    (h : ∀ a, P a → ¬ stops a → P (next a) ∧ n (next a) < n a) :
    ∀ {k : ℕ} {a : σ}, P a → n a ≤ k → ∃ path b, StepWalk next stops a path b
  | 0, a, ha, hk => by
    by_cases hs : stops a
    · exact ⟨[], a, rfl, hs⟩
    · exact absurd (h a ha hs).2 (by omega)
  | k + 1, a, ha, hk => by
    by_cases hs : stops a
    · exact ⟨[], a, rfl, hs⟩
    · obtain ⟨hnext, hlt⟩ := h a ha hs
      obtain ⟨path, b, hw⟩ := exists_of_measure h hnext (show n (next a) ≤ k by omega)
      exact ⟨a :: path, b, rfl, hs, hw⟩

/-- What no step lowers is greatest at the end. -/
theorem le_stop {f : σ → ℕ} (h : ∀ a, ¬ stops a → f a ≤ f (next a)) :
    ∀ {path : List σ} {a : σ}, StepWalk next stops a path b →
      f a ≤ f b ∧ ∀ q ∈ path, ¬ stops q ∧ f (next q) ≤ f b
  | [], _, ⟨rfl, _⟩ => ⟨Nat.le_refl _, fun _ hq => absurd hq List.not_mem_nil⟩
  | _ :: _, a, ⟨rfl, hs, hw⟩ => by
    obtain ⟨hle, hall⟩ := le_stop h hw
    have hstep := h _ hs
    refine ⟨by omega, fun q hq => ?_⟩
    rcases List.mem_cons.1 hq with rfl | hq
    · exact ⟨hs, hle⟩
    · exact hall q hq

end StepWalk
