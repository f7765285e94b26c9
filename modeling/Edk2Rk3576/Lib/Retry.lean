import Mathlib.Logic.Function.Iterate
import Mathlib.Tactic.Common

/-!
# Retries

A loop `do ... while (error)` that makes an attempt again until one succeeds, without a bound of its
own. When what an attempt comes to depends only on how many there have been, the loop ends at the
first one that succeeds.
-/

variable {σ : Type*} {attempt : σ → Bool × σ} {clock : σ → ℕ} {P : ℕ → Prop} {fuel fuel' n : ℕ}
  {s : σ}

/-- At most `fuel` attempts, and whether the last of them succeeded. -/
def retry (attempt : σ → Bool × σ) : (fuel : ℕ) → σ → Bool × σ
  | 0, s => (false, s)
  | fuel + 1, s => if (attempt s).1 then attempt s else retry attempt fuel (attempt s).2

theorem retry_mono (h : (retry attempt fuel s).1) (hle : fuel ≤ fuel') :
    retry attempt fuel' s = retry attempt fuel s := by
  induction fuel generalizing fuel' s with
  | zero => cases h
  | succ fuel ih =>
    obtain ⟨fuel', rfl⟩ : ∃ k, fuel' = k + 1 := ⟨fuel' - 1, by omega⟩
    rw [retry] at h
    rw [retry, retry]
    split_ifs at h ⊢ with hs
    · rfl
    · exact ih h (by omega)

/-- The last of the attempts is the one that succeeded. -/
theorem retry_eq_attempt (h : (retry attempt fuel s).1) :
    ∃ s', retry attempt fuel s = attempt s' := by
  induction fuel generalizing s with
  | zero => cases h
  | succ fuel ih =>
    rw [retry] at h ⊢
    split_ifs at h ⊢
    · exact ⟨s, rfl⟩
    · exact ih h

/-- The same, with what the start has and each attempt keeps. -/
theorem retry_last {I : σ → Prop} (h : (retry attempt fuel s).1) (h₀ : I s)
    (hI : ∀ s, I s → I (attempt s).2) : ∃ s', I s' ∧ retry attempt fuel s = attempt s' := by
  induction fuel generalizing s with
  | zero => cases h
  | succ fuel ih =>
    rw [retry] at h ⊢
    split_ifs at h ⊢
    · exact ⟨s, h₀, rfl⟩
    · exact ih h (hI s h₀)

/-- An attempt that would succeed is made, if none before it does. -/
theorem retry_of_iterate {k : ℕ} (h : (attempt ((fun s => (attempt s).2)^[k] s)).1) :
    (retry attempt (k + 1) s).1 := by
  induction k generalizing s with
  | zero =>
    rw [Function.iterate_zero, id] at h
    rw [retry, if_pos h]
    exact h
  | succ k ih =>
    rw [retry]
    split_ifs with hs
    · exact hs
    · exact ih h

/-- What the start has and each attempt keeps. -/
theorem retry_invariant {I : σ → Prop} (h₀ : I s) (hI : ∀ s, I s → I (attempt s).2) :
    I (retry attempt fuel s).2 := by
  induction fuel generalizing s with
  | zero => exact h₀
  | succ fuel ih =>
    rw [retry]
    split_ifs
    · exact hI s h₀
    · exact ih (hI s h₀)

/-- Until one succeeds, all the attempts are made. -/
theorem retry_eq_iterate (h : ¬ (retry attempt fuel s).1) :
    (retry attempt fuel s).2 = (fun s => (attempt s).2)^[fuel] s := by
  induction fuel generalizing s with
  | zero => rfl
  | succ fuel ih =>
    rw [retry] at h ⊢
    split_ifs at h ⊢ with hs
    · exact absurd hs h
    · exact ih h

section Clock

variable (hP : ∀ s, (attempt s).1 ↔ P (clock s)) (hclock : ∀ s, clock (attempt s).2 = clock s + 1)

include hP hclock

/-- A loop that ended did so at the first attempt that could succeed. -/
theorem retry_first (h : (retry attempt fuel s).1) :
    ∃ n, clock s ≤ n ∧ P n ∧ (∀ m, clock s ≤ m → m < n → ¬ P m) ∧
      clock (retry attempt fuel s).2 = n + 1 := by
  induction fuel generalizing s with
  | zero => cases h
  | succ fuel ih =>
    rw [retry] at h ⊢
    split_ifs at h ⊢ with hs
    · exact ⟨clock s, Nat.le_refl _, (hP s).mp hs, fun m hm hlt => absurd hlt (by omega), hclock s⟩
    · obtain ⟨n, hn, hPn, hfirst, heq⟩ := ih h
      rw [hclock] at hn hfirst
      refine ⟨n, by omega, hPn, fun m hm hlt => ?_, heq⟩
      rcases Nat.eq_or_lt_of_le hm with rfl | hgt
      · exact fun hPm => hs ((hP s).mpr hPm)
      · exact hfirst m hgt hlt

theorem retry_ends (hle : clock s ≤ n) (hPn : P n) : (retry attempt (n + 1 - clock s) s).1 := by
  induction hk : n - clock s generalizing s with
  | zero =>
    obtain rfl : n = clock s := by omega
    rw [show clock s + 1 - clock s = 0 + 1 by omega, retry, if_pos ((hP s).mpr hPn)]
    exact (hP s).mpr hPn
  | succ k ih =>
    rw [show n + 1 - clock s = (n - clock s) + 1 by omega, retry]
    split_ifs with hs
    · exact hs
    · have h := ih (s := (attempt s).2) (by rw [hclock]; omega) (by rw [hclock]; omega)
      rwa [hclock, show n + 1 - (clock s + 1) = n - clock s by omega] at h

end Clock
