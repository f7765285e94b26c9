import Mathlib.Algebra.GroupWithZero.Nat
import Mathlib.Algebra.Order.Group.Int
import Mathlib.Algebra.Ring.Int.Defs
import Mathlib.Tactic.Basic

/-!
# Signed integers of C

What C defines of the arithmetic of its signed integers. A result is defined when it fits the type,
a quotient when it is not by zero, a shift when its count is not negative and below the width. What
C leaves undefined is `none`.
-/

namespace CInt

/-- What an integer of `w` bits can be. -/
def Fits (w : ℕ) (x : ℤ) : Prop := -2 ^ (w - 1) ≤ x ∧ x < 2 ^ (w - 1)

instance (w : ℕ) : DecidablePred (Fits w) := fun _ => inferInstanceAs (Decidable (_ ∧ _))

def fit (w : ℕ) (x : ℤ) : Option ℤ := if Fits w x then some x else none

section Operations

variable (w : ℕ) (x y : ℤ)

def add : Option ℤ := fit w (x + y)
def sub : Option ℤ := fit w (x - y)
def mul : Option ℤ := fit w (x * y)
def div : Option ℤ := if y = 0 then none else fit w (x.tdiv y)

/-- A value that is shifted to the left is not negative either. -/
def shiftLeft : Option ℤ := if 0 ≤ x ∧ 0 ≤ y ∧ y < w then fit w (x * 2 ^ y.toNat) else none

def shiftRight : Option ℤ := if 0 ≤ y ∧ y < w then some (x / 2 ^ y.toNat) else none

end Operations

variable {w m n : ℕ} {x y : ℤ}

theorem fit_of_fits (h : Fits w x) : fit w x = some x := if_pos h

theorem fit_natCast (h : n < 2 ^ (w - 1)) : fit w (n : ℤ) = some (n : ℤ) := by
  have hlt : (n : ℤ) < 2 ^ (w - 1) := by exact_mod_cast h
  exact fit_of_fits ⟨by omega, hlt⟩

theorem add_of_fits (h : Fits w (x + y)) : add w x y = some (x + y) := fit_of_fits h

theorem sub_of_fits (h : Fits w (x - y)) : sub w x y = some (x - y) := fit_of_fits h

/-! ### Natural numbers -/

theorem add_natCast (h : m + n < 2 ^ (w - 1)) : add w m n = some ((m + n : ℕ) : ℤ) := by
  rw [add, ← Nat.cast_add, fit_natCast h]

theorem sub_natCast (hn : n ≤ m) (h : m < 2 ^ (w - 1)) :
    sub w m n = some ((m - n : ℕ) : ℤ) := by
  rw [sub, ← Nat.cast_sub hn, fit_natCast (Nat.lt_of_le_of_lt (Nat.sub_le m n) h)]

theorem mul_natCast (h : m * n < 2 ^ (w - 1)) : mul w m n = some ((m * n : ℕ) : ℤ) := by
  rw [mul, ← Int.natCast_mul, fit_natCast h]

theorem div_natCast (hn : n ≠ 0) (h : m < 2 ^ (w - 1)) :
    div w m n = some ((m / n : ℕ) : ℤ) := by
  have hn : (n : ℤ) ≠ 0 := by exact_mod_cast hn
  rw [div, if_neg hn, ← Int.ofNat_tdiv, fit_natCast (Nat.lt_of_le_of_lt (Nat.div_le_self m n) h)]

/-- A product by a power of two is defined where it fits. -/
theorem shiftLeft_natCast (hn : n < w) (h : m * 2 ^ n < 2 ^ (w - 1)) :
    shiftLeft w m n = some ((m * 2 ^ n : ℕ) : ℤ) := by
  have hmul : (m : ℤ) * 2 ^ n = ((m * 2 ^ n : ℕ) : ℤ) := by push_cast; rfl
  rw [shiftLeft, if_pos ⟨by omega, by omega, by omega⟩, Int.toNat_natCast, hmul, fit_natCast h]

theorem shiftRight_natCast (hn : n < w) : shiftRight w m n = some ((m / 2 ^ n : ℕ) : ℤ) := by
  rw [shiftRight, if_pos ⟨by omega, by omega⟩, Int.toNat_natCast]
  push_cast
  rfl

theorem shiftRight_negative (hy : y < 0) : shiftRight w x y = none := if_neg (by omega)

end CInt
