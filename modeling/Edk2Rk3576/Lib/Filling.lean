import Edk2Rk3576.Lib.Cells
import Edk2Rk3576.Lib.Loops

/-!
# Filling cells in a loop

`Filled A a v m m'`: the cells `a i` for `i` in `A` hold `v i`, and all the others are as they were.
A loop that fills a part of them at each pass, never one it has filled before, fills them all.
-/

namespace Cells

variable {α ι σ : Type*}

structure Filled (A : Set ι) (a : ι → ℕ) (v : ι → α) (m m' : Cells α) : Prop where
  filled : ∀ i ∈ A, m' (a i) = v i
  kept : ∀ k, (∀ i ∈ A, k ≠ a i) → m' k = m k

variable {A B : Set ι} {a : ι → ℕ} {v : ι → α} {m m' m'' : Cells α}

theorem Filled.empty : Filled ∅ a v m m := ⟨fun _ h => absurd h (Set.notMem_empty _), fun _ _ => rfl⟩

theorem Filled.union (h : Filled A a v m m') (h' : Filled B a v m' m'')
    (hne : ∀ i ∈ A, ∀ j ∈ B, a i ≠ a j) : Filled (A ∪ B) a v m m'' := by
  refine ⟨fun i hi => ?_, fun k hk => ?_⟩
  · rcases hi with hi | hi
    · rw [h'.kept _ (hne i hi)]
      exact h.filled i hi
    · exact h'.filled i hi
  · rw [h'.kept k fun i hi => hk i (Or.inr hi)]
    exact h.kept k fun i hi => hk i (Or.inl hi)

theorem Filled.update {i : ι} : Filled {i} a v m (Function.update m (a i) (v i)) := by
  refine ⟨fun j hj => ?_, fun k hk => Function.update_of_ne (hk i rfl) _ _⟩
  rw [Set.mem_singleton_iff.1 hj, Function.update_self]

/-- A pass may rely on what the passes before it have filled. -/
theorem filled_countUp {B : ℕ → Set ι} (cells : σ → Cells α) (Inv : σ → Prop)
    {f : ℕ → σ → σ} {s : σ} {n : ℕ} (hs : Inv s)
    (hf : ∀ k < n, ∀ t, Inv t → Filled {i | ∃ j < k, i ∈ B j} a v (cells s) (cells t) →
      Filled (B k) a v (cells t) (cells (f k t)) ∧ Inv (f k t))
    (hne : ∀ k < n, ∀ j < k, ∀ i ∈ B j, ∀ i' ∈ B k, a i ≠ a i') :
    Filled {i | ∃ j < n, i ∈ B j} a v (cells s) (cells (countUp f n s))
      ∧ Inv (countUp f n s) := by
  refine countUp_invariant (f := f) (fun k t =>
    Filled {i | ∃ j < k, i ∈ B j} a v (cells s) (cells t) ∧ Inv t) ?_ fun k hk t ⟨ht, hI⟩ => ?_
  · have hnil : {i | ∃ j < 0, i ∈ B j} = ∅ := by simp
    rw [hnil]
    exact ⟨Filled.empty, hs⟩
  · obtain ⟨hB, hI'⟩ := hf k hk t hI ht
    have hsucc : {i | ∃ j < k + 1, i ∈ B j} = {i | ∃ j < k, i ∈ B j} ∪ B k := by
      ext i
      simp only [Set.mem_ofPred_eq, Set.mem_union]
      constructor
      · rintro ⟨j, hj, hi⟩
        rcases Nat.lt_succ_iff_lt_or_eq.1 hj with hlt | rfl
        · exact Or.inl ⟨j, hlt, hi⟩
        · exact Or.inr hi
      · rintro (⟨j, hj, hi⟩ | hi)
        · exact ⟨j, by omega, hi⟩
        · exact ⟨k, by omega, hi⟩
    rw [hsucc]
    exact ⟨ht.union hB fun i ⟨j, hj, hi⟩ i' hi' => hne k hk j hj i hi i' hi', hI'⟩

theorem ringOffset_mod {W a j : ℕ} (hj : j < W) : ringOffset W (a % W) ((a + j) % W) = j := by
  rw [← Nat.mod_add_mod a W j]
  have ha : a % W < W := Nat.mod_lt _ (by omega)
  generalize a % W = b at ha ⊢
  unfold ringOffset
  by_cases h : b + j < W
  · rw [Nat.mod_eq_of_lt h, show b + j + (W - b) = j + W by omega, Nat.add_mod_right,
      Nat.mod_eq_of_lt hj]
  · have hwrap : (b + j) % W = b + j - W := by
      rw [Nat.mod_eq_sub_mod (by omega), Nat.mod_eq_of_lt (by omega)]
    rw [hwrap, show b + j - W + (W - b) = j by omega, Nat.mod_eq_of_lt hj]

/-- A range of a ring, written. -/
theorem filled_rmodify {W n : ℕ} {a : ℕ} {v : ℕ → α} (hn : n ≤ W) (hW : 0 < W) :
    Filled {j | j < n} (fun j => (a + j) % W) v m (rmodify W m (a % W) n fun j _ => v j) := by
  refine ⟨fun j (hj : j < n) => ?_, fun k hk => ?_⟩
  · have hoff : ringOffset W (a % W) ((a + j) % W) = j := ringOffset_mod (by omega)
    unfold rmodify
    rw [hoff, if_pos ⟨Nat.mod_lt _ hW, hj⟩]
  · refine rmodify_of_notMem (Nat.mod_lt _ hW) ?_
    rintro ⟨j, hj, rfl⟩
    exact hk j hj (Nat.mod_add_mod a W j)

theorem Filled.image {κ : Type*} {A : Set κ} {e : κ → ι} {a : ι → ℕ} {v : ι → α}
    (h : Filled A (fun i => a (e i)) (fun i => v (e i)) m m') : Filled (e '' A) a v m m' := by
  refine ⟨?_, fun k hk => h.kept k fun i hi => hk _ ⟨i, hi, rfl⟩⟩
  rintro _ ⟨i, hi, rfl⟩
  exact h.filled i hi

end Cells
