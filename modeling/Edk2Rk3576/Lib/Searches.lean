import Mathlib.Data.List.Basic

/-!
# Searches

A loop that counts up and ends with the first thing it finds. Each pass leaves a record of what it
came by, whether it finds something or not, and so does the search.
-/

section Searches

variable {β γ : Type*}

/-- At most `n` passes, from pass `i` on. -/
def searchUp (pass : ℕ → List β × Option γ) : (i n : ℕ) → List β × Option γ
  | _, 0 => ([], none)
  | i, n + 1 =>
    match pass i with
    | (vs, some r) => (vs, some r)
    | (vs, none) => (vs ++ (searchUp pass (i + 1) n).1, (searchUp pass (i + 1) n).2)

variable {pass : ℕ → List β × Option γ} {P : β → Prop} {r : γ} {v : β} {i k n : ℕ}

theorem searchUp_of_some (h : (pass i).2 = some r) : searchUp pass i (n + 1) = pass i := by
  obtain ⟨vs, hpass⟩ : ∃ vs, pass i = (vs, some r) := ⟨_, Prod.ext rfl h⟩
  rw [searchUp, hpass]

theorem searchUp_of_none (h : (pass i).2 = none) : searchUp pass i (n + 1) =
    ((pass i).1 ++ (searchUp pass (i + 1) n).1, (searchUp pass (i + 1) n).2) := by
  obtain ⟨vs, hpass⟩ : ∃ vs, pass i = (vs, none) := ⟨_, Prod.ext rfl h⟩
  rw [searchUp, hpass]

/-- The search finds what pass `k` does, if those before find nothing; its record is theirs. -/
theorem searchUp_found (hi : i ≤ k) (hk : k < i + n)
    (hbefore : ∀ l, i ≤ l → l < k → (pass l).2 = none ∧ ∀ v ∈ (pass l).1, P v)
    (hfound : (pass k).2 = some r ∧ ∀ v ∈ (pass k).1, P v) :
    (searchUp pass i n).2 = some r ∧ ∀ v ∈ (searchUp pass i n).1, P v := by
  induction n generalizing i with
  | zero => omega
  | succ n ih =>
    rcases Nat.eq_or_lt_of_le hi with rfl | hlt
    · rw [searchUp_of_some hfound.1]
      exact hfound
    · obtain ⟨hnone, hvs⟩ := hbefore i (Nat.le_refl i) hlt
      obtain ⟨hsome, hrest⟩ := ih hlt (by omega) fun l hl => hbefore l (by omega)
      rw [searchUp_of_none hnone]
      exact ⟨hsome, fun v hv => (List.mem_append.1 hv).elim (hvs v) (hrest v)⟩

/-- What pass `k` records is in the record of the search, if those before find nothing. -/
theorem mem_searchUp (hi : i ≤ k) (hk : k < i + n)
    (hbefore : ∀ l, i ≤ l → l < k → (pass l).2 = none) (hv : v ∈ (pass k).1) :
    v ∈ (searchUp pass i n).1 := by
  induction n generalizing i with
  | zero => omega
  | succ n ih =>
    rcases Nat.eq_or_lt_of_le hi with rfl | hlt
    · rcases hpass : (pass i).2 with _ | r
      · rw [searchUp_of_none hpass]
        exact List.mem_append_left _ hv
      · rw [searchUp_of_some hpass]
        exact hv
    · rw [searchUp_of_none (hbefore i (Nat.le_refl i) hlt)]
      exact List.mem_append_right _ (ih hlt (by omega) fun l hl => hbefore l (by omega))

end Searches
