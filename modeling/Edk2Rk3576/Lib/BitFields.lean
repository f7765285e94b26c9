import Edk2Rk3576.Lib.Masks
import Mathlib.Algebra.Group.Nat.Defs
import Mathlib.Data.List.Pairwise
import Mathlib.Tactic.Basic

/-!
# Fields of a word

A field of a word is a mask and how far it is shifted. Setting a field keeps the other bits, so that
a word whose fields are set one after another is what was there outside them, and the values inside.
-/

/-- The mask is that of the field's value, before the shift. -/
structure BitField (w : ℕ) where
  mask : BitVec w
  shift : ℕ

namespace BitField

open BitMask

variable {w : ℕ} {f : BitField w} {c v m : BitVec w} {fs : List (BitField w × BitVec w)}

/-- Where the field is in the word. -/
def bits (f : BitField w) : BitVec w := f.mask <<< f.shift

/-- The value, in its place. -/
def place (f : BitField w) (v : BitVec w) : BitVec w := (v &&& f.mask) <<< f.shift

def set (f : BitField w) (c v : BitVec w) : BitVec w := c &&& ~~~f.bits ||| f.place v

theorem place_and_bits : f.place v &&& f.bits = f.place v := by
  rw [place, bits, ← BitVec.shiftLeft_and_distrib, BitVec.and_assoc, BitVec.and_self]

/-- The fields are set in turn. -/
def setAll (fs : List (BitField w × BitVec w)) (c : BitVec w) : BitVec w :=
  fs.foldl (fun c f => f.1.set c f.2) c

/-- The bits of all the fields. -/
def cover : List (BitField w) → BitVec w
  | [] => 0#w
  | f :: fs => f.bits ||| cover fs

/-- The values of all the fields. -/
def values : List (BitField w × BitVec w) → BitVec w
  | [] => 0#w
  | f :: fs => f.1.place f.2 ||| values fs

def Apart (fs : List (BitField w)) : Prop := fs.Pairwise fun f g => f.bits &&& g.bits = 0#w

instance (fs : List (BitField w)) : Decidable (Apart fs) :=
  inferInstanceAs (Decidable (fs.Pairwise _))

theorem bits_and_cover {fs : List (BitField w)} (h : ∀ g ∈ fs, f.bits &&& g.bits = 0#w) :
    f.bits &&& cover fs = 0#w := by
  induction fs with
  | nil => exact BitVec.and_zero
  | cons g fs ih =>
    have hrest := ih fun g' hg' => h g' (List.mem_cons_of_mem _ hg')
    rw [cover, BitVec.and_or_distrib_left, h g List.mem_cons_self, hrest, BitVec.or_zero]

theorem values_and_cover : ∀ fs : List (BitField w × BitVec w),
    values fs &&& cover (fs.map Prod.fst) = values fs
  | [] => BitVec.and_zero
  | f :: fs => by
    ext i hi
    have hf := congrArg (fun b => b[i]) (@place_and_bits w f.1 f.2)
    have hfs := congrArg (fun b => b[i]) (values_and_cover fs)
    simp only [BitVec.getElem_and] at hf hfs
    simp only [values, List.map_cons, cover, BitVec.getElem_and, BitVec.getElem_or]
    revert hf hfs
    cases (f.1.place f.2)[i] <;> cases f.1.bits[i] <;> cases (values fs)[i] <;>
      cases (cover (fs.map Prod.fst))[i] <;> simp

theorem values_append : ∀ fs gs : List (BitField w × BitVec w),
    values (fs ++ gs) = values fs ||| values gs
  | [], _ => BitVec.zero_or.symm
  | f :: fs, gs => by rw [List.cons_append, values, values, values_append fs gs, BitVec.or_assoc]

theorem place_and_cover {fs : List (BitField w)} (h : ∀ g ∈ fs, f.bits &&& g.bits = 0#w) :
    f.place v &&& cover fs = 0#w := and_eq_zero_of_inside place_and_bits (bits_and_cover h)

/-- Fields that are set in turn leave what was there outside of them. -/
theorem setAll_eq : ∀ {fs : List (BitField w × BitVec w)} (c : BitVec w), Apart (fs.map Prod.fst) →
    setAll fs c = c &&& ~~~cover (fs.map Prod.fst) ||| values fs
  | [], c, _ => by simp [setAll, cover, values]
  | f :: fs, c, h => by
    obtain ⟨hf, hfs⟩ := List.pairwise_cons.1 h
    have hplace : f.1.place f.2 &&& cover (fs.map Prod.fst) = 0#w := place_and_cover hf
    have hnext := setAll_eq (f.1.set c f.2) hfs
    rw [setAll, List.foldl_cons, ← setAll, hnext]
    ext i hi
    have hi := congrArg (fun b => b[i]) hplace
    simp only [BitVec.getElem_and] at hi
    simp only [set, List.map_cons, cover, values, BitVec.getElem_and, BitVec.getElem_or,
      BitVec.getElem_not]
    revert hi
    cases (f.1.place f.2)[i] <;> cases f.1.bits[i] <;> cases (values fs)[i] <;>
      cases (cover (fs.map Prod.fst))[i] <;> simp

/-- Setting a field leaves the bits outside of it. -/
theorem set_and (h : f.bits &&& m = 0#w) : f.set c v &&& m = c &&& m :=
  write_and_of_apart place_and_bits h

theorem set_and_bits : f.set c v &&& f.bits = f.place v := write_and place_and_bits

theorem setAll_and (h : ∀ g ∈ fs.map Prod.fst, g.bits &&& m = 0#w) :
    setAll fs c &&& m = c &&& m := by
  induction fs generalizing c with
  | nil => rfl
  | cons g fs ih =>
    obtain ⟨hg, hfs⟩ := List.forall_mem_cons.1 h
    rw [setAll, List.foldl_cons, ← setAll, ih hfs, set_and hg]

/-- A field read back. -/
theorem values_and_bits (h : Apart (fs.map Prod.fst)) (hf : (f, v) ∈ fs) :
    values fs &&& f.bits = f.place v := by
  induction fs with
  | nil => cases hf
  | cons g fs ih =>
    obtain ⟨hg, hfs⟩ := List.pairwise_cons.1 h
    rw [values, BitVec.and_or_distrib_right]
    rcases List.mem_cons.1 hf with rfl | hmem
    · have hrest : values fs &&& f.bits = 0#w := by
        refine and_eq_zero_of_inside (values_and_cover fs) ?_
        rw [BitVec.and_comm]
        exact bits_and_cover hg
      rw [place_and_bits, hrest, BitVec.or_zero]
    · have hfirst : g.1.place g.2 &&& f.bits = 0#w :=
        and_eq_zero_of_inside place_and_bits (hg f (List.mem_map_of_mem hmem))
      rw [hfirst, ih hfs hmem, BitVec.zero_or]

end BitField
