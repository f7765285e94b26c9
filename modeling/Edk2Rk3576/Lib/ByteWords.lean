import Edk2Rk3576.Lib.Cells

/-!
# Words of four bytes

A word of 32 bits and its bytes, least significant byte first, in a memory of bytes.
-/

/-- Byte `r` of a word. -/
def wordByte (w : BitVec 32) (r : ℕ) : BitVec 8 := w.extractLsb' (8 * r) 8

/-- The word with the bytes `f 0, ..., f 3`. -/
def wordOf (f : ℕ → BitVec 8) : BitVec 32 := f 3 ++ f 2 ++ f 1 ++ f 0

/-- `SwapBytes32`. -/
def swapBytes32 (w : BitVec 32) : BitVec 32 := wordOf fun r => wordByte w (3 - r)

variable {w : BitVec 32} {r : ℕ}

theorem wordByte_wordOf {f : ℕ → BitVec 8} (hr : r < 4) : wordByte (wordOf f) r = f r := by
  refine BitVec.eq_of_getLsbD_eq fun j hj => ?_
  obtain rfl | rfl | rfl | rfl : r = 0 ∨ r = 1 ∨ r = 2 ∨ r = 3 := by omega
  all_goals
    simp only [wordByte, wordOf, BitVec.getLsbD_extractLsb', BitVec.getLsbD_append, hj,
      decide_true, Bool.true_and]
    grind

theorem wordByte_swapBytes32 (hr : r < 4) : wordByte (swapBytes32 w) r = wordByte w (3 - r) :=
  wordByte_wordOf hr

namespace Cells

variable {m : Cells (BitVec 8)} {a i : ℕ}

def loadWord (m : Cells (BitVec 8)) (a : ℕ) : BitVec 32 := wordOf fun r => m (a + r)

def storeWord (m : Cells (BitVec 8)) (a : ℕ) (w : BitVec 32) : Cells (BitVec 8) :=
  m.modify a 4 fun r _ => wordByte w r

theorem wordByte_loadWord (hr : r < 4) : wordByte (m.loadWord a) r = m (a + r) :=
  wordByte_wordOf hr

theorem storeWord_add (hr : r < 4) : m.storeWord a w (a + r) = wordByte w r := modify_add hr

theorem storeWord_of_notMem (h : ¬ (a ≤ i ∧ i < a + 4)) : m.storeWord a w i = m i :=
  modify_of_notMem h

end Cells
