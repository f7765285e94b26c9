import Mathlib.Tactic.Common

/-!
# Chains

A chain in a memory: at an address there may be an item, with the address of the next one unless it
is the last.
-/

variable {ι α : Type*} {get : ι → Option (α × Option ι)} {a : ℕ → ι} {x : ℕ → α} {xs ys : List α}
  {fuel fuel' i n : ℕ} {p : ι}

/-- The items from an address on, if the chain ends within `fuel` of them. -/
def follow (get : ι → Option (α × Option ι)) : (fuel : ℕ) → ι → Option (List α)
  | 0, _ => none
  | fuel + 1, p =>
    match get p with
    | none => none
    | some (x, none) => some [x]
    | some (x, some q) => (follow get fuel q).map (x :: ·)

theorem follow_end (h : get p = some (x i, none)) : follow get (fuel + 1) p = some [x i] := by
  rw [follow, h]

theorem follow_next {q : ι} (h : get p = some (x i, some q)) :
    follow get (fuel + 1) p = (follow get fuel q).map (x i :: ·) := by
  rw [follow, h]

/-- A chain that leads on up to an address without an item does not end. -/
theorem follow_broken (hnext : ∀ j < n, get (a j) = some (x j, some (a (j + 1))))
    (hn : get (a n) = none) (hi : i ≤ n) : follow get fuel (a i) = none := by
  induction fuel generalizing i with
  | zero => rfl
  | succ fuel ih =>
    rcases Nat.lt_or_eq_of_le hi with hlt | rfl
    · rw [follow_next (hnext i hlt), ih hlt]
      rfl
    · rw [follow, hn]

/-- A chain of `n + 1` items. -/
theorem follow_eq (hnext : ∀ j < n, get (a j) = some (x j, some (a (j + 1))))
    (hlast : get (a n) = some (x n, none)) (hi : i ≤ n) (hfuel : n < i + fuel) :
    follow get fuel (a i) = some ((List.range' i (n + 1 - i)).map x) := by
  induction fuel generalizing i with
  | zero => omega
  | succ fuel ih =>
    rcases Nat.lt_or_eq_of_le hi with hlt | rfl
    · rw [follow_next (hnext i hlt), ih hlt (by omega),
        show n + 1 - i = n + 1 - (i + 1) + 1 by omega, List.range'_succ]
      rfl
    · rw [follow_end hlast, show i + 1 - i = 1 by omega]
      rfl

/-- Where a chain ends within fewer steps it ends the same within more. -/
theorem follow_mono (h : follow get fuel p = some xs) (hle : fuel ≤ fuel') :
    follow get fuel' p = some xs := by
  induction fuel generalizing p fuel' xs with
  | zero => cases h
  | succ fuel ih =>
    obtain ⟨fuel', rfl⟩ : ∃ k, fuel' = k + 1 := ⟨fuel' - 1, by omega⟩
    rw [follow] at h ⊢
    rcases hp : get p with _ | ⟨y, _ | q⟩ <;> rw [hp] at h
    · cases h
    · exact h
    · simp only [Option.map_eq_some_iff] at h ⊢
      obtain ⟨zs, hzs, heq⟩ := h
      exact ⟨zs, ih hzs (by omega), heq⟩

theorem follow_unique (h : follow get fuel p = some xs) (h' : follow get fuel' p = some ys) :
    xs = ys := by
  have hmax := follow_mono h (Nat.le_max_left fuel fuel')
  rw [follow_mono h' (Nat.le_max_right fuel fuel')] at hmax
  exact (Option.some.inj hmax).symm
