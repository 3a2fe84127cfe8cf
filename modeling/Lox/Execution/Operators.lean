import Lox.Execution.Error

namespace Lox.Execution

/-!
# Operators

What the operators of the language make of values.  Arithmetic and order need
numbers, a sum may also join texts, and equality compares anything.
-/

/-- Negation of truth or of a number. -/
def applyUnary
    (operator : UnaryOperator)
    (line : Nat)
    (operand : Value) :
    Except RuntimeError Value :=
  match operator, operand with
  | .not, _ => .ok (.bool (!operand.isTruthy))
  | .negate, .number value => .ok (.number value.negate)
  | .negate, _ => .error (.typeFault (.operandNotNumber line))

/-- The sum of two numbers, or two texts joined, where a number counts as its text. -/
def addValues (line : Nat) : Value → Value → Except RuntimeError Value
  | .number left, .number right => .ok (.number (left.add right))
  | .string left, .string right => .ok (.string (left ++ right))
  | .number left, .string right => .ok (.string (left.display ++ right))
  | .string left, .number right => .ok (.string (left ++ right.display))
  | _, _ => .error (.typeFault (.operandsNotAddable line))

/-- The quotient of two numbers, unless the second one is zero. -/
def divideNumbers (line : Nat) (left right : Number) : Except RuntimeError Value :=
  if right.isZero then .error (.divisionByZero line)
  else .ok (.number (left.divide right))

/-- An operation on two numbers, for operands that are numbers. -/
def onNumbers
    (operator : BinaryOperator)
    (line : Nat)
    (operation : Number → Number → Except RuntimeError Value) :
    Value → Value → Except RuntimeError Value
  | .number left, .number right => operation left right
  | _, _ => .error (.typeFault (.operandsNotNumbers operator line))

/-- The value of a binary operator. -/
def applyBinary
    (operator : BinaryOperator)
    (line : Nat)
    (left right : Value) :
    Except RuntimeError Value :=
  let numeric := fun operation => onNumbers operator line operation left right
  match operator with
  | .add => addValues line left right
  | .subtract => numeric fun a b => .ok (.number (a.subtract b))
  | .multiply => numeric fun a b => .ok (.number (a.multiply b))
  | .divide => numeric (divideNumbers line)
  | .greater => numeric fun a b => .ok (.bool (b.less a))
  | .greaterEqual => numeric fun a b => .ok (.bool (b.lessOrEqual a))
  | .less => numeric fun a b => .ok (.bool (a.less b))
  | .lessEqual => numeric fun a b => .ok (.bool (a.lessOrEqual b))
  | .equal => .ok (.bool (left = right))
  | .notEqual => .ok (.bool (left ≠ right))

/-- Whether a logical operator is settled by its left operand. -/
def isSettledBy (operator : LogicalOperator) (left : Value) : Bool :=
  match operator with
  | .and => !left.isTruthy
  | .or => left.isTruthy

end Lox.Execution
