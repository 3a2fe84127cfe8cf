import Lox.Execution.Heap
import Lox.Text.Quoted

namespace Lox.Execution

/-!
# How a run stops

A run of a statement or expression ends early by a runtime error, by a return
on its way to the call it leaves, by a fault of the scopes it was given, or for
want of fuel.  Runtime errors are the only ones that a program whose scopes were
resolved can cause.
-/

/-- A value of the wrong kind, or a return in the wrong place. -/
inductive TypeFault where
  | operandNotNumber (line : Nat)
  | operandsNotNumbers (operator : BinaryOperator) (line : Nat)
  | operandsNotAddable (line : Nat)
  | notCallable (line : Nat)
  | propertyOfNonInstance (name : Identifier)
  | fieldOfNonInstance (name : Identifier)
  | superclassNotClass (name : Identifier)
  | returnOutsideFunction (line : Nat)
  deriving Repr, DecidableEq

/-- The errors of a running program. -/
inductive RuntimeError where
  | undefinedVariable (name : Identifier)
  | undefinedProperty (name : Identifier)
  | typeFault (fault : TypeFault)
  | divisionByZero (line : Nat)
  | arityMismatch (expected got : Nat) (line : Nat)
  deriving Repr, DecidableEq

/--
Scopes that do not hold what `super` needs at its distance: a class, and one
step nearer the instance that `this` denotes.
-/
inductive ScopeMismatch where
  | superNotClass (depth : Nat) (found : Option Value)
  | thisNotInstance (depth : Nat) (found : Option Value)
  deriving Repr, DecidableEq

/-- Why a run stops before its end. -/
inductive Exit where
  | error (error : RuntimeError)
  | returned (line : Nat) (value : Value)
  | mismatch (mismatch : ScopeMismatch)
  | exhausted
  deriving Repr, DecidableEq

/-- A value as it is shown in a fault: a text is quoted, anything else is as printed. -/
def Heap.inspect (heap : Heap) : Value → String
  | .string contents => Text.quoted contents
  | value => heap.display value

/-- What was found in a scope as it is shown in a fault. -/
def Heap.inspectFound (heap : Heap) : Option Value → String
  | none => "None"
  | some value => "Some(" ++ heap.inspect value ++ ")"

/-- The text of a mismatch of scopes. -/
def ScopeMismatch.message (heap : Heap) : ScopeMismatch → String
  | .superNotClass depth found =>
      "'super' at depth " ++ toString depth ++ " must hold a class, found "
        ++ heap.inspectFound found
  | .thisNotInstance depth found =>
      "'this' must be bound one scope inside 'super' (depth "
        ++ toString depth ++ "), found " ++ heap.inspectFound found

namespace TypeFault

/-- The text of a type fault. -/
def message : TypeFault → String
  | .operandNotNumber _ => "Operand must be a number."
  | .operandsNotNumbers _ _ => "Operands must be numbers."
  | .operandsNotAddable _ => "Operands must be two numbers or two strings."
  | .notCallable _ => "Can only call functions and classes."
  | .propertyOfNonInstance _ => "Only instances have properties."
  | .fieldOfNonInstance _ => "Only instances have fields."
  | .superclassNotClass _ => "Superclass must be a class."
  | .returnOutsideFunction _ => "Can't return from top-level code."

/-- The token at which a type fault is reported. -/
def culprit : TypeFault → Identifier
  | .operandNotNumber line => ⟨UnaryOperator.negate.spelling, line⟩
  | .operandsNotNumbers operator line => ⟨operator.spelling, line⟩
  | .operandsNotAddable line => ⟨BinaryOperator.add.spelling, line⟩
  | .notCallable line => ⟨Symbol.rightParen.spelling, line⟩
  | .propertyOfNonInstance name => name
  | .fieldOfNonInstance name => name
  | .superclassNotClass name => name
  | .returnOutsideFunction line => ⟨returnKeyword, line⟩

end TypeFault

namespace RuntimeError

/-- The token at which a runtime error is reported. -/
def culprit : RuntimeError → Identifier
  | .undefinedVariable name => name
  | .undefinedProperty name => name
  | .typeFault fault => fault.culprit
  | .divisionByZero line => ⟨BinaryOperator.divide.spelling, line⟩
  | .arityMismatch _ _ line => ⟨Symbol.rightParen.spelling, line⟩

/-- The line at which a runtime error is reported. -/
def line (error : RuntimeError) : Nat :=
  error.culprit.line

/-- What went wrong, without the line. -/
def summary : RuntimeError → String
  | .undefinedVariable name => "Undefined variable '" ++ name.text ++ "'."
  | .undefinedProperty name => "Undefined property '" ++ name.text ++ "'."
  | .typeFault fault => fault.message
  | .divisionByZero _ => "Division by zero."
  | .arityMismatch expected got _ =>
      "Expected " ++ toString expected ++ " arguments but got " ++ toString got
        ++ "."

/-- The text of a runtime error, with its line below. -/
def message (error : RuntimeError) : String :=
  error.summary ++ "\n[line " ++ toString error.line ++ "]"

end RuntimeError

end Lox.Execution
