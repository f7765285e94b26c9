import Edk2Rk3576.Lib.LittleEndian
import Mathlib.Algebra.GroupWithZero.Nat
import Mathlib.Data.List.GetD

/-!
# Records of fields

A record is a list of fields, each a number and the bytes it takes. Where memory holds the bytes of
a record, the number read where a field starts is the field's.
-/

namespace Cells

variable {m : Cells UInt8} {a x n : ℕ} {l l' : List UInt8}

@[simp] theorem length_leBytes : ∀ n x : ℕ, (leBytes x n).length = n
  | 0, _ => rfl
  | n + 1, x => by simp [leBytes, length_leBytes n]

/-- The bytes are at the address. -/
def Holds (m : Cells UInt8) (a : ℕ) (l : List UInt8) : Prop :=
  ∀ k < l.length, m (a + k) = l.getD k 0

theorem Holds.left (h : m.Holds a (l ++ l')) : m.Holds a l := by
  intro k hk
  rw [h k (by rw [List.length_append]; omega), List.getD_append _ _ _ _ hk]

theorem Holds.right (h : m.Holds a (l ++ l')) : m.Holds (a + l.length) l' := by
  intro k hk
  have := h (l.length + k) (by rw [List.length_append]; omega)
  rwa [List.getD_append_right _ _ _ _ (by omega), Nat.add_sub_cancel_left, ← Nat.add_assoc] at this

theorem Holds.le_eq : ∀ {n a x : ℕ}, m.Holds a (leBytes x n) → m.le a n = x % 256 ^ n
  | 0, _, _, _ => by simp [le, Nat.mod_one]
  | n + 1, a, x, h => by
    have hfirst : m a = UInt8.ofNat x := h 0 (by simp [leBytes])
    have hrest : m.Holds (a + 1) (leBytes (x / 256) n) :=
      Holds.right (l := [UInt8.ofNat x]) h
    have hbyte : (UInt8.ofNat x).toNat = x % 256 := UInt8.toNat_ofNat'
    rw [le, hfirst, hrest.le_eq, hbyte, Nat.pow_succ', Nat.mod_mul]

def fieldBytes (fs : List (ℕ × ℕ)) : List UInt8 := fs.flatMap fun f => leBytes f.1 f.2

def fieldsWidth (fs : List (ℕ × ℕ)) : ℕ := (fs.map Prod.snd).sum

@[simp] theorem fieldsWidth_nil : fieldsWidth [] = 0 := rfl

@[simp] theorem fieldsWidth_cons (f : ℕ × ℕ) (fs : List (ℕ × ℕ)) :
    fieldsWidth (f :: fs) = f.2 + fieldsWidth fs := List.sum_cons

theorem length_fieldBytes (fs : List (ℕ × ℕ)) : (fieldBytes fs).length = fieldsWidth fs := by
  simp [fieldBytes, fieldsWidth, List.length_flatMap]

theorem fieldBytes_append (fs fs' : List (ℕ × ℕ)) :
    fieldBytes (fs ++ fs') = fieldBytes fs ++ fieldBytes fs' := List.flatMap_append

/-- The field behind `pre`. -/
theorem Holds.field {pre post : List (ℕ × ℕ)}
    (h : m.Holds a (fieldBytes (pre ++ (x, n) :: post))) :
    m.le (a + fieldsWidth pre) n = x % 256 ^ n := by
  rw [fieldBytes_append] at h
  have hbehind := h.right
  rw [length_fieldBytes] at hbehind
  exact (Holds.left hbehind).le_eq

/-- The field of number `i`, at its offset. -/
theorem Holds.nth {fs : List (ℕ × ℕ)} (h : m.Holds a (fieldBytes fs)) (i : ℕ) {o : ℕ}
    (hi : fs[i]? = some (x, n)) (ho : fieldsWidth (fs.take i) = o) (hx : x < 256 ^ n) :
    m.le (a + o) n = x := by
  obtain ⟨hlt, hget⟩ := List.getElem?_eq_some_iff.1 hi
  have hsplit : fs = fs.take i ++ (x, n) :: fs.drop (i + 1) := by
    rw [← hget, List.getElem_cons_drop, List.take_append_drop]
  rw [hsplit] at h
  rw [← ho, h.field, Nat.mod_eq_of_lt hx]

/-- Records that differ in one field differ in its bytes alone. -/
theorem getD_fieldBytes {pre post : List (ℕ × ℕ)} {x' k : ℕ}
    (hk : ¬ (fieldsWidth pre ≤ k ∧ k < fieldsWidth pre + n)) :
    (fieldBytes (pre ++ (x, n) :: post)).getD k 0
      = (fieldBytes (pre ++ (x', n) :: post)).getD k 0 := by
  have hlength := length_fieldBytes pre
  have hbytes : ∀ y, (fieldBytes (pre ++ (y, n) :: post)).getD k 0
      = if k < fieldsWidth pre then (fieldBytes pre).getD k 0
        else (fieldBytes post).getD (k - fieldsWidth pre - n) 0 := by
    intro y
    have hfield : (leBytes y n).length = n := length_leBytes n y
    rw [show fieldBytes (pre ++ (y, n) :: post)
      = fieldBytes pre ++ (leBytes y n ++ fieldBytes post) from fieldBytes_append _ _]
    split_ifs with hbefore
    · rw [List.getD_append _ _ _ _ (by omega)]
    · rw [List.getD_append_right _ _ _ _ (by omega), List.getD_append_right _ _ _ _ (by omega),
        hlength, hfield]
  rw [hbytes, hbytes]

end Cells
