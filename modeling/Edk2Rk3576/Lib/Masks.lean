import Mathlib.Tactic.Common

/-!
# Masked words

A word is inside of a mask that keeps all of it, and apart from one that keeps none. A masked write
clears the mask in a word and puts in its place a value that is inside.
-/

namespace BitMask

variable {w : ℕ} {c e f m v x x' y y' : BitVec w}

/-- What is inside of `m`, and what `y` is outside of, have no bit in common. -/
theorem and_eq_zero_of_inside (hx : x &&& m = x) (hy : m &&& y = 0#w) : x &&& y = 0#w := by
  rw [← hx, BitVec.and_assoc, hy, BitVec.and_zero]

theorem and_and_not_eq_zero : m &&& (c &&& ~~~m) = 0#w := by
  rw [BitVec.and_comm c, ← BitVec.and_assoc, BitVec.and_not_self]
  exact BitVec.zero_and

theorem not_and_congr (h : x &&& m = x' &&& m) : ~~~x &&& m = ~~~x' &&& m := by
  ext i hi
  have hbit := congrArg (fun b => b[i]) h
  simp only [BitVec.getElem_and] at hbit
  simp only [BitVec.getElem_and, BitVec.getElem_not]
  revert hbit
  cases x[i] <;> cases x'[i] <;> cases m[i] <;> simp

theorem not_and_of_apart (h : m &&& y = 0#w) : ~~~m &&& y = y := by
  have hnot : ~~~m &&& y = ~~~0#w &&& y := not_and_congr (by rw [h, BitVec.zero_and])
  rw [hnot, BitVec.not_zero, BitVec.allOnes_and]

theorem or_and_of_apart (h : v &&& y = 0#w) : (c ||| v) &&& y = c &&& y := by
  rw [BitVec.and_or_distrib_right, h, BitVec.or_zero]

/-- What is apart from the mask is as it was. -/
theorem write_and_of_apart (hv : v &&& m = v) (h : m &&& y = 0#w) :
    (c &&& ~~~m ||| v) &&& y = c &&& y := by
  rw [or_and_of_apart (and_eq_zero_of_inside hv h), BitVec.and_assoc, not_and_of_apart h]

theorem write_and_not (hv : v &&& m = v) : (c &&& ~~~m ||| v) &&& ~~~m = c &&& ~~~m :=
  write_and_of_apart hv (BitVec.and_not_self m)

/-- The value is what is in the mask. -/
theorem write_and (hv : v &&& m = v) : (c &&& ~~~m ||| v) &&& m = v := by
  have hclear : c &&& ~~~m &&& m = 0#w := by
    rw [BitVec.and_assoc, BitVec.not_and_self]
    exact BitVec.and_zero
  rw [BitVec.or_comm, or_and_of_apart hclear, hv]

/-- Writes of two masks that are apart can be made in either order. -/
theorem write_comm (hv : v &&& m = v) (he : e &&& f = e) (hmf : m &&& f = 0#w) :
    (c &&& ~~~m ||| v) &&& ~~~f ||| e = (c &&& ~~~f ||| e) &&& ~~~m ||| v := by
  have hvf : ~~~f &&& v = v :=
    not_and_of_apart (by rw [BitVec.and_comm]; exact and_eq_zero_of_inside hv hmf)
  have hem : ~~~m &&& e = e :=
    not_and_of_apart (by rw [BitVec.and_comm, and_eq_zero_of_inside he (BitVec.and_comm f m ▸ hmf)])
  rw [BitVec.and_or_distrib_right, BitVec.and_or_distrib_right, BitVec.and_comm v, hvf,
    BitVec.and_comm e, hem, BitVec.and_assoc, BitVec.and_assoc, BitVec.and_comm (~~~m),
    BitVec.or_assoc, BitVec.or_assoc, BitVec.or_comm v]

/-- Words that agree inside of a mask and outside of it. -/
theorem eq_of_and_eq (hin : x &&& m = y &&& m) (hout : x &&& ~~~m = y &&& ~~~m) : x = y := by
  have hparts : ∀ z : BitVec w, z = z &&& m ||| z &&& ~~~m := fun z => by
    rw [← BitVec.and_or_distrib_left, BitVec.or_not_self, BitVec.and_allOnes]
  rw [hparts x, hin, hout, ← hparts y]

/-- Words of two parts each, one inside a mask and one outside, are the same if the parts are. -/
theorem or_eq_or_iff (hx : x &&& m = x) (hx' : x' &&& m = x') (hy : m &&& y = 0#w)
    (hy' : m &&& y' = 0#w) : y ||| x = y' ||| x' ↔ y = y' ∧ x = x' := by
  have hinside : ∀ {x y : BitVec w}, x &&& m = x → m &&& y = 0#w → (y ||| x) &&& m = x := by
    intro x y hx hy
    rw [BitVec.and_or_distrib_right, BitVec.and_comm y, hy, hx, BitVec.zero_or]
  have houtside : ∀ {x y : BitVec w}, x &&& m = x → m &&& y = 0#w → (y ||| x) &&& ~~~m = y := by
    intro x y hx hy
    rw [or_and_of_apart (and_eq_zero_of_inside hx (BitVec.and_not_self m)), BitVec.and_comm,
      not_and_of_apart hy]
  constructor
  · intro h
    have hy_eq := houtside hx hy
    rw [h, houtside hx' hy'] at hy_eq
    have hx_eq := hinside hx hy
    rw [h, hinside hx' hy'] at hx_eq
    exact ⟨hy_eq.symm, hx_eq.symm⟩
  · rintro ⟨rfl, rfl⟩
    rfl

end BitMask
