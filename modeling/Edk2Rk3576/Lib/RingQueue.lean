import Edk2Rk3576.Lib.Cells
import Mathlib.Data.Nat.ModEq
import Mathlib.Data.Set.Insert

/-!
# Queues in a ring

The cells of a ring of `W` from place `a` on are a queue: it is added to past its last cell, and
taken from at `a`. A cell past its end is none of its own until the ring is full.
-/

namespace Cells

variable {α : Type*} {W a n k l : ℕ} {m m' : Cells α} {x : α}

/-- The `n` cells of the ring of `W` from `a` on. -/
def ringSlice (W : ℕ) (m : Cells α) (a n : ℕ) : List α :=
  (List.range n).map fun k => m ((a + k) % W)

@[simp] theorem ringSlice_zero : ringSlice W m a 0 = [] := rfl

theorem ring_inj (hk : k < W) (hl : l < W) (h : (a + k) % W = (a + l) % W) : k = l :=
  (Nat.ModEq.add_left_cancel' a h).eq_of_lt_of_lt hk hl

theorem ring_mem (hk : k < n) : (a + k) % W ∈ ringRange W a n := ⟨k, hk, rfl⟩

/-- A ring walked once around. -/
theorem ring_around (ha : a < W) : (a + W) % W = a := by
  rw [Nat.add_mod_right, Nat.mod_eq_of_lt ha]

/-- The places counted from the second cell on. -/
theorem ring_next : ((a + 1) % W + k) % W = (a + (k + 1)) % W := by
  rw [Nat.mod_add_mod, show a + 1 + k = a + (k + 1) by omega]

theorem ring_end_notMem (hn : n < W) : (a + n) % W ∉ ringRange W a n := by
  rintro ⟨k, hk, h⟩
  have := ring_inj hn (by omega) h
  omega

theorem ringRange_succ : ringRange W a (n + 1) = insert ((a + n) % W) (ringRange W a n) := by
  ext i
  constructor
  · rintro ⟨k, hk, rfl⟩
    rcases Nat.lt_succ_iff_lt_or_eq.1 hk with h | rfl
    · exact .inr (ring_mem h)
    · exact .inl rfl
  · rintro (rfl | ⟨k, hk, rfl⟩)
    · exact ring_mem (by omega)
    · exact ring_mem (by omega)

/-- Taking the first cell leaves the others. -/
theorem ringRange_rest (ha : a < W) (hn : n < W) :
    ringRange W ((a + 1) % W) n = ringRange W a (n + 1) \ {a} := by
  ext i
  constructor
  · rintro ⟨k, hk, rfl⟩
    rw [ring_next]
    refine ⟨ring_mem (by omega), fun h => ?_⟩
    have := ring_inj (l := 0) (by omega : k + 1 < W) (by omega)
      (h.trans (Nat.mod_eq_of_lt ha).symm)
    omega
  · rintro ⟨⟨k, hk, rfl⟩, hne⟩
    rcases k with _ | k
    · exact absurd (Nat.mod_eq_of_lt ha) hne
    · exact ⟨k, by omega, ring_next.symm⟩

theorem ringSlice_congr (h : ∀ i ∈ ringRange W a n, m i = m' i) :
    ringSlice W m a n = ringSlice W m' a n :=
  List.map_congr_left fun _ hk => h _ (ring_mem (List.mem_range.1 hk))

theorem ringSlice_succ : ringSlice W m a (n + 1) = ringSlice W m a n ++ [m ((a + n) % W)] := by
  rw [ringSlice, List.range_succ, List.map_append]
  rfl

theorem ringSlice_cons (ha : a < W) :
    ringSlice W m a (n + 1) = m a :: ringSlice W m ((a + 1) % W) n := by
  rw [ringSlice, List.range_succ_eq_map, List.map_cons, List.map_map, Nat.add_zero,
    Nat.mod_eq_of_lt ha]
  congr 1
  refine List.map_congr_left fun k _ => ?_
  rw [Function.comp, ring_next]

/-- Setting the cell past the end leaves the queue. -/
theorem ringSlice_update_end (hn : n < W) :
    ringSlice W (Function.update m ((a + n) % W) x) a n = ringSlice W m a n :=
  ringSlice_congr fun _ hi =>
    Function.update_of_ne (fun h => ring_end_notMem hn (h ▸ hi)) _ _

/-- The cell past the end, set and taken in, is the last of the queue. -/
theorem ringSlice_push (hn : n < W) :
    ringSlice W (Function.update m ((a + n) % W) x) a (n + 1) = ringSlice W m a n ++ [x] := by
  rw [ringSlice_succ, ringSlice_update_end hn, Function.update_self]

end Cells
