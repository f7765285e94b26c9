import Edk2Rk3576.Lib.LittleEndian

/-!
# A memory in two parts

`splice m t s` is the memory that has the cells of `m` below `t`, and from `t` on those that `m`
has from `s` on. A pointer into either part of `m` points to `spliceAddress` in it. A range that
`t` cuts is the part below `t` followed by a range at `s`.
-/

namespace Cells

variable {α : Type*}

def splice (m : Cells α) (t s : ℕ) : Cells α := fun a => if a < t then m a else m (s + (a - t))

def spliceAddress (t s a : ℕ) : ℕ := if a < t then a else a - s + t

variable {m : Cells α} {t s a n : ℕ}

theorem splice_of_lt (h : a < t) : m.splice t s a = m a := if_pos h

theorem splice_add (k : ℕ) : m.splice t s (t + k) = m (s + k) := by
  rw [splice, if_neg (by omega), Nat.add_sub_cancel_left]

theorem spliceAddress_of_lt (h : a < t) : spliceAddress t s a = a := if_pos h

theorem spliceAddress_of_le (hts : t ≤ s) (h : s ≤ a) : spliceAddress t s a = a - s + t :=
  if_neg (by omega)

theorem spliceAddress_add (hts : t ≤ s) (h : a + n < t ∨ s ≤ a) :
    spliceAddress t s (a + n) = spliceAddress t s a + n := by
  unfold spliceAddress
  split_ifs <;> omega

theorem spliceAddress_inj {b : ℕ} (ha : a < t ∨ s ≤ a) (hb : b < t ∨ s ≤ b)
    (h : spliceAddress t s a = spliceAddress t s b) : a = b := by
  unfold spliceAddress at h
  split_ifs at h <;> omega

/-- A range in one of the parts. -/
theorem splice_spliceAddress (hts : t ≤ s) {k : ℕ} (h : a + k < t ∨ s ≤ a) :
    m.splice t s (spliceAddress t s a + k) = m (a + k) := by
  by_cases ha : a < t
  · rw [spliceAddress_of_lt ha, splice_of_lt (by omega)]
  · have hs : s ≤ a := by omega
    rw [spliceAddress_of_le hts hs, show a - s + t + k = t + (a - s + k) by omega, splice_add]
    congr 1
    omega

theorem le_splice {m : Cells UInt8} (hts : t ≤ s) (h : a + n ≤ t ∨ s ≤ a) (k : ℕ) {l : ℕ}
    (hk : k + l ≤ n) : (m.splice t s).le (spliceAddress t s a + k) l = m.le (a + k) l :=
  le_congr fun i hi => by
    rw [Nat.add_assoc, Nat.add_assoc, splice_spliceAddress hts (by omega)]

/-- A range that `t` cuts. -/
theorem slice_splice (h : a ≤ t) (ht : t ≤ a + n) :
    (m.splice t s).slice a n = m.slice a (t - a) ++ m.slice s (n - (t - a)) := by
  obtain ⟨i, rfl⟩ := Nat.exists_eq_add_of_le h
  obtain ⟨j, rfl⟩ := Nat.exists_eq_add_of_le (show i ≤ n by omega)
  simp only [slice, Nat.add_sub_cancel_left, List.range_add, List.map_append, List.map_map]
  congr 1
  · refine List.map_congr_left fun k hk => splice_of_lt ?_
    have := List.mem_range.1 hk
    omega
  · refine List.map_congr_left fun k _ => ?_
    rw [Function.comp_apply, ← Nat.add_assoc, splice_add]

theorem forall_splice (h : a ≤ t) (ht : t ≤ a + n) {f : Cells α} :
    (∀ k < n, m.splice t s (a + k) = f k)
      ↔ (∀ k < t - a, m (a + k) = f k) ∧ ∀ k < n - (t - a), m (s + k) = f (t - a + k) := by
  constructor
  · refine fun hf => ⟨fun k hk => ?_, fun k hk => ?_⟩
    · rw [← hf k (by omega), splice_of_lt (by omega)]
    · rw [← hf (t - a + k) (by omega), show a + (t - a + k) = t + k by omega, splice_add]
  · rintro ⟨h1, h2⟩ k hk
    by_cases hkt : a + k < t
    · rw [splice_of_lt hkt, h1 k (by omega)]
    · rw [show a + k = t + (k - (t - a)) by omega, splice_add, h2 _ (by omega)]
      congr 1
      omega

end Cells
