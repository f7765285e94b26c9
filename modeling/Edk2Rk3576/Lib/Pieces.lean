import Mathlib.Tactic.Common

/-!
# A range in pieces

A loop goes through a range piece by piece, the next one starting where the last one ended.
-/

/-- The pieces of the `n` cells from `a` on; `step` says how long the next one is. -/
def pieces (step : ℕ → ℕ → ℕ) : (fuel : ℕ) → (a n : ℕ) → List (ℕ × ℕ)
  | 0, _, _ => []
  | fuel + 1, a, n =>
    if n = 0 then [] else (a, step a n) :: pieces step fuel (a + step a n) (n - step a n)

/-- The pieces are not empty, and lie one behind the other from `a` to `b`. -/
def Tiles : ℕ → List (ℕ × ℕ) → ℕ → Prop
  | a, [], b => a = b
  | a, p :: ps, b => p.1 = a ∧ 0 < p.2 ∧ Tiles (a + p.2) ps b

variable {step : ℕ → ℕ → ℕ} {fuel a n : ℕ}

theorem tiles_pieces (hstep : ∀ a n, 0 < n → 0 < step a n ∧ step a n ≤ n) (hfuel : n ≤ fuel) :
    Tiles a (pieces step fuel a n) (a + n) := by
  induction fuel generalizing a n with
  | zero =>
    obtain rfl : n = 0 := by omega
    exact rfl
  | succ fuel ih =>
    rw [pieces]
    split_ifs with h0
    · rw [h0]
      exact rfl
    · obtain ⟨hpos, hle⟩ := hstep a n (by omega)
      refine ⟨rfl, hpos, ?_⟩
      have hrest : Tiles (a + step a n) _ (a + step a n + (n - step a n)) := ih (by omega)
      rwa [Nat.add_assoc, Nat.add_sub_cancel' hle] at hrest

/-- Every piece is one that `step` gives. -/
theorem mem_pieces {p : ℕ × ℕ} (h : p ∈ pieces step fuel a n) : ∃ n, 0 < n ∧ p.2 = step p.1 n := by
  induction fuel generalizing a n with
  | zero => cases h
  | succ fuel ih =>
    rw [pieces] at h
    split_ifs at h with h0
    · cases h
    · rcases List.mem_cons.mp h with rfl | h
      · exact ⟨n, by omega, rfl⟩
      · exact ih h

/-- Fuel for every cell is fuel enough. -/
theorem pieces_fuel (hstep : ∀ a n, 0 < n → 0 < step a n ∧ step a n ≤ n) :
    ∀ {fuel fuel' a n : ℕ}, n ≤ fuel → n ≤ fuel' → pieces step fuel a n = pieces step fuel' a n
  | 0, 0, _, _, _, _ => rfl
  | 0, fuel' + 1, a, n, h, _ => by rw [pieces, pieces, if_pos (by omega)]
  | fuel + 1, 0, a, n, _, h => by rw [pieces, pieces, if_pos (by omega)]
  | fuel + 1, fuel' + 1, a, n, h, h' => by
    rw [pieces, pieces]
    split_ifs with h0
    · rfl
    · have hpos := hstep a n (by omega)
      rw [pieces_fuel hstep (by omega : n - step a n ≤ fuel) (by omega : n - step a n ≤ fuel')]
