import Mathlib.Logic.Function.Iterate
import Mathlib.Tactic.Common

/-!
# Moving words as a level allows

A loop that polls a level and moves that many words of what is left to be moved. A poll that shows
no level counts towards a timeout, and one that shows some starts the count again.
-/

variable {σ : Type*} {limit fuel k words timeout : ℕ} {level : ℕ → ℕ} {move : σ → σ} {s : σ}

/-- At most `fuel` polls, from poll `k` on: whether all the words have been moved and the poll that
comes next, if the loop has ended. -/
def levelLoop (limit : ℕ) (level : ℕ → ℕ) (move : σ → σ) :
    (fuel k words timeout : ℕ) → σ → Option (Bool × ℕ) × σ
  | fuel, k, words, timeout, s =>
    if words = 0 then (some (true, k), s)
    else
      match fuel with
      | 0 => (none, s)
      | fuel + 1 =>
        if 0 < level k then
          let count := min words (level k)
          levelLoop limit level move fuel (k + 1) (words - count) 0 (move^[count] s)
        else if limit < timeout then (some (false, k + 1), s)
        else levelLoop limit level move fuel (k + 1) words (timeout + 1) s

/-- Some number of words has been moved, all of them if the loop says so, and fewer only if a poll
showed no level. -/
theorem levelLoop_spec : ∃ moved ≤ words,
    (levelLoop limit level move fuel k words timeout s).2 = move^[moved] s ∧
      ∀ all next, (levelLoop limit level move fuel k words timeout s).1 = some (all, next) →
        (all = true → moved = words) ∧ (all = false → ∃ i, level i = 0) := by
  induction fuel generalizing k words timeout s with
  | zero =>
    rw [levelLoop]
    split_ifs with hwords
    · refine ⟨0, Nat.zero_le _, rfl, fun all next h => ?_⟩
      cases h
      exact ⟨fun _ => hwords.symm, nofun⟩
    · exact ⟨0, Nat.zero_le _, rfl, nofun⟩
  | succ fuel ih =>
    rw [levelLoop]
    dsimp only
    split_ifs with hwords hlevel htimeout
    · refine ⟨0, Nat.zero_le _, rfl, fun all next h => ?_⟩
      cases h
      exact ⟨fun _ => hwords.symm, nofun⟩
    · obtain ⟨moved, hmoved, hstate, hends⟩ := @ih (k + 1) (words - min words (level k)) 0
        (move^[min words (level k)] s)
      refine ⟨moved + min words (level k), by omega, ?_, fun all next h => ?_⟩
      · rw [hstate, Function.iterate_add_apply]
      · exact ⟨fun hall => by have := (hends all next h).1 hall; omega, (hends all next h).2⟩
    · refine ⟨0, Nat.zero_le _, rfl, fun all next h => ?_⟩
      cases h
      exact ⟨nofun, fun _ => ⟨k, by omega⟩⟩
    · exact ih

/-- The polls that are left at most. -/
def levelRank (limit words timeout : ℕ) : ℕ := words * (limit + 3) + (limit + 1 - timeout)

theorem levelLoop_returns (h : levelRank limit words timeout < fuel) :
    ((levelLoop limit level move fuel k words timeout s).1).isSome := by
  induction fuel generalizing k words timeout s with
  | zero => exact absurd h (Nat.not_lt_zero _)
  | succ fuel ih =>
    rw [levelLoop]
    dsimp only
    split_ifs with hwords hlevel htimeout
    · rfl
    · refine ih (Nat.lt_of_lt_of_le ?_ (Nat.lt_succ_iff.1 h))
      rw [levelRank, levelRank]
      -- a word less outweighs the whole count
      have hle : (words - min words (level k) + 1) * (limit + 3) ≤ words * (limit + 3) :=
        Nat.mul_le_mul_right _ (by omega)
      rw [Nat.add_mul] at hle
      omega
    · rfl
    · refine ih (Nat.lt_of_lt_of_le ?_ (Nat.lt_succ_iff.1 h))
      rw [levelRank, levelRank]
      omega
