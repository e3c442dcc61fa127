import StackLang.Diagnostic
import StackLang.Value

/-!
# Arithmetic

The operations on values already taken off the stack.  The left operand of a binary operation is
the one that lay deeper.  Only a division can fail.
-/

namespace StackLang

/-- An operation on one value. -/
inductive UnaryOp where
  /-- The value with the opposite sign. -/
  | negate
  /-- The value without its sign. -/
  | magnitude
  deriving DecidableEq

/-- An operation on two values. -/
inductive BinaryOp where
  | sum
  | difference
  | product
  | quotient
  deriving DecidableEq

/-- The result of a unary operation. -/
def UnaryOp.apply : UnaryOp → Value → Value
  | .negate, v => -v
  | .magnitude, v => Rat.abs v

/-- The result of a binary operation, which fails exactly for a quotient by zero. -/
def BinaryOp.apply : BinaryOp → Value → Value → Except Diagnostic Value
  | .sum, left, right => .ok (left + right)
  | .difference, left, right => .ok (left - right)
  | .product, left, right => .ok (left * right)
  | .quotient, left, right => if right = 0 then .error (.raise .divisionByZero) else .ok (left / right)

namespace BinaryOp

/-- There is no quotient by zero. -/
@[simp] theorem apply_quotient_zero (left : Value) :
    quotient.apply left 0 = .error (.raise .divisionByZero) := rfl

/-- A quotient by anything else is exact. -/
theorem apply_quotient_of_ne_zero {right : Value} (left : Value) (h : right ≠ 0) :
    quotient.apply left right = .ok (left / right) := if_neg h

/-- A binary operation fails only as a division by zero. -/
theorem apply_eq_error_iff {op : BinaryOp} {left right : Value} {d : Diagnostic} :
    op.apply left right = .error d ↔
      op = quotient ∧ right = 0 ∧ d = .raise .divisionByZero := by
  cases op <;> simp only [apply, reduceCtorEq, false_and, true_and]
  split <;> simp_all [eq_comm]

end BinaryOp

end StackLang
