import Mathlib.Tactic.Common

/-!
# Rounds

A loop without a bound of its own, whose rounds are numbered, run for a number of rounds. What a
round keeps until one has a result, the loop has kept when the rounds are over.
-/

variable {σ ρ : Type*} {round : ℕ → σ → Option ρ × σ} {I : ℕ → σ → Prop} {Q : ρ → σ → Prop}
  {fuel k : ℕ} {s : σ}

/-- At most `fuel` rounds, from round `k` on. -/
def rounds (round : ℕ → σ → Option ρ × σ) : (fuel : ℕ) → ℕ → σ → Option ρ × σ
  | 0, _, s => (none, s)
  | fuel + 1, k, s =>
    match round k s with
    | (none, s) => rounds round fuel (k + 1) s
    | (some r, s) => (some r, s)

/-- What holds at the start of the next round when a round has no result, and what holds with its
result when it has one. -/
structure RoundKeeps (I : ℕ → σ → Prop) (Q : ρ → σ → Prop) (k : ℕ) (r : Option ρ × σ) : Prop where
  again : r.1 = none → I k r.2
  result : ∀ result, r.1 = some result → Q result r.2

theorem rounds_spec (hround : ∀ j s, j < k + fuel → I j s → RoundKeeps I Q (j + 1) (round j s))
    (h : I k s) : RoundKeeps I Q (k + fuel) (rounds round fuel k s) := by
  induction fuel generalizing k s with
  | zero => exact ⟨fun _ => h, nofun⟩
  | succ fuel ih =>
    have hspec := hround k s (by omega) h
    rw [rounds]
    rcases heq : round k s with ⟨_ | result, s'⟩ <;> rw [heq] at hspec
    · have := ih (fun j s hj => hround j s (by omega)) (hspec.again rfl)
      rwa [show k + 1 + fuel = k + (fuel + 1) by omega] at this
    · exact ⟨nofun, hspec.result⟩

/-- A loop has a result before a round that cannot be reached. -/
theorem rounds_ends (hround : ∀ j s, j < k + fuel → I j s → RoundKeeps I Q (j + 1) (round j s))
    (h : I k s) (hend : ∀ s, ¬ I (k + fuel) s) :
    ∃ result, (rounds round fuel k s).1 = some result := by
  rcases heq : (rounds round fuel k s).1 with _ | result
  · exact absurd ((rounds_spec hround h).again heq) (hend _)
  · exact ⟨result, rfl⟩
