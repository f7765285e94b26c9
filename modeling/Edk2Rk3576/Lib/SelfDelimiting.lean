import Edk2Rk3576.Lib.Fields

/-!
# Self-delimiting codes

A code has a word for each symbol, and two texts that start with different words are different.
What is written word after word then begins with what another list is written as just where that
list begins the first, if both end in a symbol they do not have otherwise.
-/

/-- A text starts with one word at most. -/
def SelfDelimiting {ν α : Type*} (word : ν → List α) : Prop :=
  ∀ a b s t, word a ++ s = word b ++ t → a = b

namespace SelfDelimiting

variable {ν α : Type*} {word : ν → List α} {stop : ν}

theorem flatMap_prefix_iff (h : SelfDelimiting word) : ∀ {xs ys : List ν} {rest : List α},
    stop ∉ xs → (xs.flatMap word <+: ys.flatMap word ++ (word stop ++ rest) ↔ xs <+: ys)
  | [], ys, rest, _ => ⟨fun _ => List.nil_prefix, fun _ => List.nil_prefix⟩
  | x :: xs, [], rest, hx => by
    refine ⟨fun ⟨t, ht⟩ => ?_, fun hno => absurd (List.prefix_nil.1 hno) (List.cons_ne_nil _ _)⟩
    rw [List.flatMap_cons, List.append_assoc, List.flatMap_nil, List.nil_append] at ht
    exact absurd (h x stop _ _ ht ▸ List.mem_cons_self) hx
  | x :: xs, y :: ys, rest, hx => by
    have ih := @flatMap_prefix_iff h xs ys rest fun hmem => hx (List.mem_cons_of_mem _ hmem)
    rw [List.flatMap_cons, List.flatMap_cons, List.append_assoc, List.cons_prefix_cons]
    constructor
    · rintro ⟨t, ht⟩
      rw [List.append_assoc] at ht
      obtain rfl : x = y := h x y _ _ ht
      exact ⟨rfl, ih.1 ⟨t, List.append_cancel_left ht⟩⟩
    · rintro ⟨rfl, hpre⟩
      exact (List.prefix_append_right_inj _).2 (ih.2 hpre)

end SelfDelimiting

namespace Cells

variable {m : Cells UInt8} {a : ℕ} {l l' : List UInt8}

theorem slice_add (n k : ℕ) : m.slice a (n + k) = m.slice a n ++ m.slice (a + n) k := by
  simp [slice, List.range_add, Nat.add_assoc]

theorem holds_iff_slice : m.Holds a l ↔ m.slice a l.length = l := by
  constructor
  · intro h
    refine List.ext_getElem length_slice fun k _ hk => ?_
    rw [← List.getD_eq_getElem _ 0 hk, ← h k hk]
    simp [slice]
  · intro h k hk
    rw [List.getD_eq_getElem _ 0 hk]
    conv_rhs => rw [List.getElem_of_eq h.symm hk]
    simp [slice]

theorem Holds.append (h : m.Holds a l) (h' : m.Holds (a + l.length) l') : m.Holds a (l ++ l') := by
  rw [holds_iff_slice] at h h' ⊢
  rw [List.length_append, slice_add, h, h']

/-- Of two texts at one place, one starts with the other. -/
theorem Holds.startsWith (h : m.Holds a l) (h' : m.Holds a l') :
    l <+: l' ++ m.slice (a + l'.length) l.length := by
  rw [holds_iff_slice] at h h'
  have htext : l' ++ m.slice (a + l'.length) l.length = m.slice a (l.length + l'.length) := by
    rw [Nat.add_comm l.length, slice_add, h']
  rw [htext, slice_add, h]
  exact List.prefix_append _ _

variable {ν : Type*} {word : ν → List UInt8} {stop : ν} {xs ys : List ν}

/-- Where a list has been written, its prefixes are what is there of others. -/
theorem holds_flatMap_iff (h : SelfDelimiting word) (hl : m.Holds a ((ys ++ [stop]).flatMap word))
    (hx : stop ∉ xs) : m.Holds a (xs.flatMap word) ↔ xs <+: ys := by
  have htext : (ys ++ [stop]).flatMap word = ys.flatMap word ++ word stop := by simp
  constructor
  · intro hxs
    have hpre := hxs.startsWith hl
    rw [htext, List.append_assoc] at hpre
    exact (h.flatMap_prefix_iff hx).1 hpre
  · rintro ⟨t, rfl⟩
    rw [htext, List.flatMap_append, List.append_assoc] at hl
    exact hl.left

theorem Holds.eq_of_flatMap (h : SelfDelimiting word)
    (hl : m.Holds a ((xs ++ [stop]).flatMap word)) (hl' : m.Holds a ((ys ++ [stop]).flatMap word))
    (hx : stop ∉ xs) (hy : stop ∉ ys) : xs = ys := by
  have hleft : m.Holds a (xs.flatMap word) := by
    rw [List.flatMap_append] at hl
    exact hl.left
  have hright : m.Holds a (ys.flatMap word) := by
    rw [List.flatMap_append] at hl'
    exact hl'.left
  exact ((holds_flatMap_iff h hl' hx).1 hleft).eq_of_length_le
    ((holds_flatMap_iff h hl hy).1 hright).length_le

end Cells
