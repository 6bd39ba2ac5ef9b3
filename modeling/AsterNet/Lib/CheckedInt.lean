import Mathlib.Algebra.Group.Int.Defs
import Mathlib.Algebra.Order.Monoid.Unbundled.Basic
import Mathlib.Tactic.Common

/-!
# Arithmetic that checks for overflow

The operations on signed integers of `bits` bits as partial functions: there is no value where the
result is not one of these integers.  An expression that has a value is computed without overflow.
-/

namespace CheckedInt

/-- A signed integer of `bits` bits. -/
def InRange (bits : ℕ) (x : ℤ) : Prop := -2 ^ (bits - 1) ≤ x ∧ x < 2 ^ (bits - 1)

instance instDecidableInRange (bits : ℕ) (x : ℤ) : Decidable (InRange bits x) := instDecidableAnd

/-- The result of an operation, if it is an integer of so many bits. -/
def check (bits : ℕ) (x : ℤ) : Option ℤ := if InRange bits x then some x else none

def add (bits : ℕ) (x y : ℤ) : Option ℤ := check bits (x + y)

def sub (bits : ℕ) (x y : ℤ) : Option ℤ := check bits (x - y)

def mul (bits : ℕ) (x y : ℤ) : Option ℤ := check bits (x * y)

/-- Division rounds towards zero. -/
def div (bits : ℕ) (x y : ℤ) : Option ℤ := check bits (x.tdiv y)

variable {bits : ℕ} {x y : ℤ}

theorem check_eq (h : InRange bits x) : check bits x = some x := if_pos h

theorem add_eq (h : InRange bits (x + y)) : add bits x y = some (x + y) := check_eq h

theorem sub_eq (h : InRange bits (x - y)) : sub bits x y = some (x - y) := check_eq h

theorem mul_eq (h : InRange bits (x * y)) : mul bits x y = some (x * y) := check_eq h

/-- A range of numbers within the integers of 32 bits. -/
theorem inRange_int (hlow : -2147483648 ≤ x) (hhigh : x < 2147483648) : InRange 32 x :=
  ⟨hlow, hhigh⟩

end CheckedInt
