import Mathlib.Algebra.Group.Nat.Defs
import Mathlib.Tactic.Basic

/-!
# Unsigned integers that do not wrap

Arithmetic on unsigned integers of C, of `w` bits, by code that does not mean them to wrap around.
A result is there when it is the exact one: what wraps around and what is divided by zero is `none`.
-/

namespace CUInt

def fit (w n : ℕ) : Option ℕ := if n < 2 ^ w then some n else none

section Operations

variable (w x y : ℕ)

def add : Option ℕ := fit w (x + y)
def mul : Option ℕ := fit w (x * y)
def sub : Option ℕ := if y ≤ x then some (x - y) else none
def div : Option ℕ := if y = 0 then none else some (x / y)
def shiftLeft : Option ℕ := if y < w then fit w (x * 2 ^ y) else none

end Operations

variable {w x y : ℕ}

theorem fit_of_lt (h : x < 2 ^ w) : fit w x = some x := if_pos h

theorem add_of_lt (h : x + y < 2 ^ w) : add w x y = some (x + y) := fit_of_lt h

theorem mul_of_lt (h : x * y < 2 ^ w) : mul w x y = some (x * y) := fit_of_lt h

theorem sub_of_le (h : y ≤ x) : sub x y = some (x - y) := if_pos h

theorem div_of_ne (h : y ≠ 0) : div x y = some (x / y) := if_neg h

@[simp] theorem div_zero : div x 0 = none := if_pos rfl

end CUInt
