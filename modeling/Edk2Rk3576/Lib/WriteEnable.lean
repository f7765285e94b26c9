import Edk2Rk3576.Lib.Masks
import Mathlib.Data.Nat.Bitwise
import Mathlib.Order.Nat

/-!
# Registers with write enables

The upper half of what is written to such a register enables the bits of the lower half: those are
set, the others are kept.
-/

variable {x reg msk val m : BitVec 32}

def writeEnabled (reg w : BitVec 32) : BitVec 32 := reg &&& ~~~(w >>> 16) ||| w &&& w >>> 16

theorem getLsbD_of_lt {i : ℕ} (h : x.toNat < 2 ^ 16) (hi : 16 ≤ i) : x.getLsbD i = false := by
  rw [BitVec.getLsbD, Nat.testBit_lt_two_pow (h.trans_le (Nat.pow_le_pow_right (by omega) hi))]

theorem writeEnabled_eq (hmsk : msk.toNat < 2 ^ 16) (hval : val &&& msk = val) :
    writeEnabled reg (msk <<< 16 ||| val) = reg &&& ~~~msk ||| val := by
  have hsmall : val.toNat < 2 ^ 16 := by
    rw [← hval, BitVec.toNat_and]
    exact Nat.and_lt_two_pow _ hmsk
  have henable : (msk <<< 16 ||| val) >>> 16 = msk := by
    refine BitVec.eq_of_getLsbD_eq fun i hi => ?_
    simp only [BitVec.getLsbD_ushiftRight, BitVec.getLsbD_or, BitVec.getLsbD_shiftLeft]
    rw [getLsbD_of_lt hsmall (Nat.le_add_right _ _), Nat.add_sub_cancel_left, Bool.or_false]
    by_cases hlt : i < 16
    · simp [show 16 + i < 32 by omega]
    · rw [getLsbD_of_lt hmsk (by omega), Bool.and_false]
  have hset : (msk <<< 16 ||| val) &&& msk = val := by
    refine BitVec.eq_of_getLsbD_eq fun i hi => ?_
    have hbit := congrArg (fun b => b.getLsbD i) hval
    simp only [BitVec.getLsbD_and] at hbit
    simp only [BitVec.getLsbD_and, BitVec.getLsbD_or, BitVec.getLsbD_shiftLeft]
    by_cases hlt : i < 16
    · simp [hlt, hbit]
    · have hi' : 16 ≤ i := by omega
      rw [getLsbD_of_lt hmsk hi', getLsbD_of_lt hsmall hi', Bool.and_false]
  rw [writeEnabled, henable, hset]

theorem and_mask_inside : val &&& msk &&& msk = val &&& msk := by
  rw [BitVec.and_assoc, BitVec.and_self]

/-- What is enabled is what was written. -/
theorem writeEnabled_and_mask (hmsk : msk.toNat < 2 ^ 16) :
    writeEnabled reg (msk <<< 16 ||| val &&& msk) &&& msk = val &&& msk := by
  rw [writeEnabled_eq hmsk and_mask_inside]
  exact BitMask.write_and and_mask_inside

/-- Nothing else changes. -/
theorem writeEnabled_and (hmsk : msk.toNat < 2 ^ 16) (h : msk &&& m = 0#32) :
    writeEnabled reg (msk <<< 16 ||| val &&& msk) &&& m = reg &&& m := by
  rw [writeEnabled_eq hmsk and_mask_inside]
  exact BitMask.write_and_of_apart and_mask_inside h
