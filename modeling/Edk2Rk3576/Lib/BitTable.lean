import Edk2Rk3576.Lib.Cells
import Mathlib.Data.Nat.Bitwise
import Mathlib.Data.Set.Insert

/-!
# Tables of bits

A table of `n` words of 32 bits is a set of numbers below `32 * n`. Setting a bit of a word adds its
number.
-/

namespace Cells

variable {h h' : Cells UInt32} {n b x : ℕ}

/-- The bits that are set. -/
def tableBits (n : ℕ) (h : Cells UInt32) : Set ℕ :=
  {b | b < 32 * n ∧ (h (b / 32)).toNat.testBit (b % 32) = true}

theorem tableBits_clear (hh : ∀ i < n, h i = 0) : tableBits n h = ∅ := by
  ext b
  refine ⟨fun ⟨hb, hbit⟩ => ?_, fun hb => hb.elim⟩
  rw [hh _ (by omega)] at hbit
  simp at hbit

/-- The word with bit `k` set. -/
theorem toNat_bit {k : UInt32} (hk : k.toNat < 32) : ((1 : UInt32) <<< k).toNat = 2 ^ k.toNat := by
  rw [UInt32.toNat_shiftLeft, Nat.mod_eq_of_lt hk, UInt32.toNat_one, Nat.one_shiftLeft]
  exact Nat.mod_eq_of_lt (Nat.pow_lt_pow_right (by decide) hk)

theorem tableBits_set {k : UInt32} (hk : k.toNat = x % 32) (hx : x < 32 * n) :
    tableBits n (Function.update h (x / 32) (h (x / 32) ||| (1 : UInt32) <<< k)) =
      insert x (tableBits n h) := by
  have hword : ∀ b, (h (x / 32) ||| (1 : UInt32) <<< k).toNat.testBit (b % 32) = true ↔
      (h (x / 32)).toNat.testBit (b % 32) = true ∨ x % 32 = b % 32 := by
    intro b
    rw [UInt32.toNat_or, Nat.testBit_or, toNat_bit (by omega), hk, Nat.testBit_two_pow,
      Bool.or_eq_true, decide_eq_true_eq]
  ext b
  by_cases hb : b / 32 = x / 32
  · simp only [tableBits, Set.mem_ofPred_eq, Set.mem_insert_iff, hb, Function.update_self, hword]
    constructor
    · rintro ⟨hlt, hbit | hbit⟩
      · exact .inr ⟨hlt, hbit⟩
      · exact .inl (by omega)
    · rintro (rfl | ⟨hlt, hbit⟩)
      · exact ⟨hx, .inr rfl⟩
      · exact ⟨hlt, .inl hbit⟩
  · simp only [tableBits, Set.mem_ofPred_eq, Set.mem_insert_iff, Function.update_of_ne hb]
    constructor
    · exact .inr
    · rintro (rfl | hmem)
      · exact absurd rfl hb
      · exact hmem

end Cells
