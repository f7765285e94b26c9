import Mathlib.Algebra.Group.Nat.Defs
import Mathlib.Tactic.Common
import Mathlib.Data.List.Basic
import Mathlib.Data.Set.Function
import Mathlib.Order.Interval.Set.Basic

/-!
# Cells

A memory is a function from addresses to cells. Every update here is a `modify`: a range of
cells, each rewritten from its place in the range and its old value. Writing a buffer, filling,
and clearing bits are instances, and share its two lemmas, one for the cells of the range and one
for the cells outside it.

An address space of `W` addresses that wraps is a ring; `rmodify` updates a range of it, and is
`modify` where the range does not wrap.

`Mirror` says that two memories hold the same bytes at two places.
-/

abbrev Cells (α : Type*) := ℕ → α

namespace Cells

variable {α : Type*}

/-- Cell `a + k` becomes `f k` of its old value, for `k < n`. -/
def modify (m : Cells α) (a n : ℕ) (f : ℕ → α → α) : Cells α :=
  fun i => if a ≤ i ∧ i < a + n then f (i - a) (m i) else m i

def write (m : Cells α) (a n : ℕ) (b : Cells α) : Cells α :=
  m.modify a n fun k _ => b k

def fill (m : Cells α) (a n : ℕ) (v : α) : Cells α :=
  m.modify a n fun _ _ => v

/-- The `n` cells from `a` on. -/
def slice (m : Cells α) (a n : ℕ) : List α :=
  (List.range n).map fun k => m (a + k)

variable {m m' : Cells α} {a b n k i : ℕ}

theorem modify_of_mem {f : ℕ → α → α} (h : a ≤ i ∧ i < a + n) :
    m.modify a n f i = f (i - a) (m i) := if_pos h

theorem modify_of_notMem {f : ℕ → α → α} (h : ¬ (a ≤ i ∧ i < a + n)) :
    m.modify a n f i = m i := if_neg h

theorem modify_add {f : ℕ → α → α} (h : k < n) : m.modify a n f (a + k) = f k (m (a + k)) := by
  rw [modify_of_mem (by omega), Nat.add_sub_cancel_left]

@[simp] theorem modify_zero {f : ℕ → α → α} : m.modify a 0 f = m := by
  funext i
  exact modify_of_notMem (by omega)

theorem write_of_notMem (h : ¬ (a ≤ i ∧ i < a + n)) : m.write a n m' i = m i :=
  modify_of_notMem h

theorem write_add (h : k < n) : m.write a n m' (a + k) = m' k := modify_add h

@[simp] theorem write_zero : m.write a 0 m' = m := modify_zero

theorem fill_of_notMem {v : α} (h : ¬ (a ≤ i ∧ i < a + n)) : m.fill a n v i = m i :=
  modify_of_notMem h

theorem fill_of_mem {v : α} (h : a ≤ i ∧ i < a + n) : m.fill a n v i = v := modify_of_mem h

/-- Filling two ranges in a row fills the range they make up. -/
theorem fill_fill {v : α} : (m.fill a n v).fill (a + n) k v = m.fill a (n + k) v := by
  funext i
  simp only [fill, modify]
  split_ifs <;> first | rfl | omega

/-- Rewriting two ranges in a row rewrites the range they make up. -/
theorem modify_modify {f : ℕ → α → α} :
    (m.modify a n f).modify (a + n) k (fun j => f (n + j)) = m.modify a (n + k) f := by
  funext i
  by_cases h1 : a + n ≤ i ∧ i < a + n + k
  · rw [modify_of_mem h1, modify_of_notMem (by omega), modify_of_mem (by omega),
      show n + (i - (a + n)) = i - a by omega]
  · rw [modify_of_notMem h1]
    by_cases h2 : a ≤ i ∧ i < a + n
    · rw [modify_of_mem h2, modify_of_mem (by omega)]
    · rw [modify_of_notMem h2, modify_of_notMem (by omega)]

theorem write_congr {m'' : Cells α} (h : ∀ j < n, m' j = m'' j) :
    m.write a n m' = m.write a n m'' := by
  funext i
  by_cases hi : a ≤ i ∧ i < a + n
  · obtain ⟨j, rfl⟩ := Nat.exists_eq_add_of_le hi.1
    rw [write_add (by omega), write_add (by omega), h j (by omega)]
  · rw [write_of_notMem hi, write_of_notMem hi]

/-- Writing two parts of a buffer in a row writes both. -/
theorem write_write : (m.write a n m').write (a + n) k (fun j => m' (n + j)) =
    m.write a (n + k) m' := modify_modify

/-- `m'` differs from `m` in cells of `s` only. -/
def SameOutside (m m' : Cells α) (s : Set ℕ) : Prop := ∀ i ∉ s, m' i = m i

namespace SameOutside

variable {m'' : Cells α} {s t : Set ℕ}

theorem refl : SameOutside m m s := fun _ _ => rfl

theorem trans (h : SameOutside m m' s) (h' : SameOutside m' m'' s) : SameOutside m m'' s :=
  fun i hi => (h' i hi).trans (h i hi)

theorem mono (h : SameOutside m m' s) (hst : s ⊆ t) : SameOutside m m' t :=
  fun i hi => h i fun his => hi (hst his)

theorem modify {f : ℕ → α → α} : SameOutside m (m.modify a n f) (Set.Ico a (a + n)) :=
  fun _ hi => modify_of_notMem hi

end SameOutside

@[simp] theorem length_slice : (m.slice a n).length = n := by simp [slice]

theorem slice_congr (h : ∀ k < n, m (a + k) = m' (b + k)) : m.slice a n = m'.slice b n :=
  List.map_congr_left fun k hk => h k (List.mem_range.1 hk)

theorem slice_inj (h : m.slice a n = m'.slice b n) (hk : k < n) : m (a + k) = m' (b + k) :=
  List.map_inj_left.1 h k (List.mem_range.2 hk)

section Ring

variable {W : ℕ}

/-- How far `i` lies past `a` on the ring of `W` addresses. -/
def ringOffset (W a i : ℕ) : ℕ := (i + (W - a)) % W

/-- `modify` on the ring: the range starts at `a` and goes on from address `0` past the top. -/
def rmodify (W : ℕ) (m : Cells α) (a n : ℕ) (f : ℕ → α → α) : Cells α :=
  fun i => if i < W ∧ ringOffset W a i < n then f (ringOffset W a i) (m i) else m i

/-- The addresses a range of the ring covers. -/
def ringRange (W a n : ℕ) : Set ℕ := {i | ∃ k < n, i = (a + k) % W}

theorem ringOffset_of_le (ha : a ≤ i) (hi : i < W) : ringOffset W a i = i - a := by
  rw [ringOffset, show i + (W - a) = (i - a) + W by omega, Nat.add_mod_right,
    Nat.mod_eq_of_lt (by omega)]

theorem ringOffset_of_lt (ha : i < a) (hW : a ≤ W) : ringOffset W a i = i + (W - a) := by
  rw [ringOffset, Nat.mod_eq_of_lt (by omega)]

theorem rmodify_eq_modify {f : ℕ → α → α} (h : a + n ≤ W) :
    rmodify W m a n f = m.modify a n f := by
  funext i
  simp only [rmodify, modify]
  by_cases hi : i < W
  · rcases le_or_gt a i with hai | hai
    · rw [ringOffset_of_le hai hi]
      exact if_congr (by omega) rfl rfl
    · rw [ringOffset_of_lt hai (by omega), if_neg (by omega), if_neg (by omega)]
  · rw [if_neg (by omega), if_neg (by omega)]

theorem rmodify_of_notMem {f : ℕ → α → α} (ha : a < W) (hi : i ∉ ringRange W a n) :
    rmodify W m a n f i = m i := by
  refine if_neg fun ⟨hW, hk⟩ => hi ⟨_, hk, ?_⟩
  rcases le_or_gt a i with hai | hai
  · rw [ringOffset_of_le hai hW, Nat.add_sub_cancel' hai, Nat.mod_eq_of_lt hW]
  · rw [ringOffset_of_lt hai ha.le, show a + (i + (W - a)) = i + W by omega,
      Nat.add_mod_right, Nat.mod_eq_of_lt hW]

@[simp] theorem ringRange_zero : ringRange W a 0 = ∅ := by
  simp [ringRange]

end Ring

/-- The `n` cells of `m` from `a` are those of `m'` from `b`. -/
def Mirror (m : Cells α) (a : ℕ) (m' : Cells α) (b n : ℕ) : Prop :=
  ∀ k < n, m (a + k) = m' (b + k)

end Cells
