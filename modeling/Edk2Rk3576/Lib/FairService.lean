import Mathlib.Order.Nat
import Mathlib.Tactic.Common

/-!
# Fair service

A machine serves what waits: it attempts to at each tick of a clock, as often as a schedule says. A
step leaves what waits waiting or has it served, and when the clock goes past a tick with an attempt
something is. If the schedule is fair and there is always something waiting, or just served, while
not all is done, then all is done in the end.
-/

/-- There is always an attempt later on. -/
def FairSchedule (schedule : ℕ → ℕ) : Prop := ∀ k, ∃ l, k ≤ l ∧ 0 < schedule l

structure Service (σ : Type*) where
  clock : σ → ℕ
  done : σ → ℕ
  Waiting : σ → Prop
  schedule : ℕ → ℕ

namespace Service

variable {σ : Type*} (S : Service σ)

structure Advances (s s' : σ) : Prop where
  clock : S.clock s ≤ S.clock s'
  done : S.done s ≤ S.done s'
  stays : S.Waiting s → S.done s < S.done s' ∨ S.Waiting s'
  serves : S.Waiting s → ∀ k, S.clock s ≤ k → k < S.clock s' → 0 < S.schedule k →
    S.done s < S.done s'

variable {S} {s s' s'' : σ}

theorem Advances.refl (s : σ) : S.Advances s s :=
  ⟨le_rfl, le_rfl, .inr, fun _ k hk hlt => absurd hlt (by omega)⟩

theorem Advances.trans (h : S.Advances s s') (h' : S.Advances s' s'') : S.Advances s s'' where
  clock := h.clock.trans h'.clock
  done := h.done.trans h'.done
  stays hs := by
    have hdone := h'.done
    rcases h.stays hs with hlt | hs'
    · exact .inl (by omega)
    · have := h.done
      exact (h'.stays hs').imp_left fun hlt => by omega
  serves hs k hk hlt hpos := by
    have hd := h.done
    have hd' := h'.done
    by_cases hmid : k < S.clock s'
    · have := h.serves hs k hk hmid hpos
      omega
    · rcases h.stays hs with hgrown | hs'
      · omega
      · have := h'.serves hs' k (by omega) hlt hpos
        omega

/-- What does not move the clock and leaves what waits waiting. -/
theorem Advances.of_eq (hclock : S.clock s' = S.clock s) (hdone : S.done s' = S.done s)
    (hwait : S.Waiting s → S.Waiting s') : S.Advances s s' :=
  ⟨hclock.ge, hdone.ge, fun h => .inr (hwait h), fun _ k hk hlt => absurd hlt (by omega)⟩

section Run

variable {run : ℕ → σ} (hadv : ∀ i, S.Advances (run i) (run (i + 1)))

include hadv

theorem advances_run (i m : ℕ) : S.Advances (run i) (run (i + m)) := by
  induction m with
  | zero => exact .refl _
  | succ m ih => exact ih.trans (hadv (i + m))

variable (hclock : ∀ i, S.clock (run i) < S.clock (run (i + 1))) (hfair : FairSchedule S.schedule)

include hclock hfair

theorem served_later {i : ℕ} (h : S.Waiting (run i)) :
    ∃ j, i < j ∧ S.done (run i) < S.done (run j) := by
  have hpast : ∀ m, S.clock (run i) + m ≤ S.clock (run (i + m)) := by
    intro m
    induction m with
    | zero => exact le_rfl
    | succ m ih =>
      have hlt := hclock (i + m)
      rw [show i + (m + 1) = i + m + 1 by omega]
      omega
  obtain ⟨k, hk, hpos⟩ := hfair (S.clock (run i))
  refine ⟨i + (k + 1), by omega, (advances_run hadv i (k + 1)).serves h k hk ?_ hpos⟩
  have := hpast (k + 1)
  omega

/-- `total` is reached when there is something waiting, or just served, before it is. -/
theorem all_served {total : ℕ} (hfeeds : ∀ i, S.done (run i) < total →
    S.done (run i) < S.done (run (i + 1)) ∨ S.Waiting (run (i + 1))) :
    ∃ i, total ≤ S.done (run i) := by
  induction total with
  | zero => exact ⟨0, Nat.zero_le _⟩
  | succ total ih =>
    obtain ⟨i, hi⟩ := ih fun i hlt => hfeeds i (by omega)
    by_cases hlt : total < S.done (run i)
    · exact ⟨i, hlt⟩
    have hnext := (hadv i).done
    rcases hfeeds i (by omega) with hgrown | hwait
    · exact ⟨i + 1, by omega⟩
    · obtain ⟨j, -, hj⟩ := served_later hadv hclock hfair hwait
      exact ⟨j, by omega⟩

end Run

end Service
