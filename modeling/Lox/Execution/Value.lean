import Lox.Syntax.Tree

namespace Lox.Execution

/-!
# Values

What a program computes with.  Functions, classes and instances live in a heap
and are referred to by their position in it, so a value is equal to another one
exactly if both are the same thing: numbers by their bits, texts by their
characters, and everything in the heap by identity.
-/

/-- The position of a scope in the heap. -/
abbrev ScopeId := Nat

/-- The position of a function in the heap. -/
abbrev FunctionId := Nat

/-- The position of a class in the heap. -/
abbrev ClassId := Nat

/-- The position of an instance in the heap. -/
abbrev InstanceId := Nat

/-- The functions that every program finds in its global scope. -/
inductive NativeFunction where
  | clock
  deriving Repr, DecidableEq

/-- The values of the language. -/
inductive Value where
  | nil
  | bool (value : Bool)
  | number (value : Number)
  | string (contents : String)
  | native (function : NativeFunction)
  | functionObject (id : FunctionId)
  | classObject (id : ClassId)
  | instanceObject (id : InstanceId)
  deriving Repr, DecidableEq

/-- The name under which a native function is bound. -/
def NativeFunction.name : NativeFunction → String
  | .clock => "clock"

/-- The number of arguments that a native function takes. -/
def NativeFunction.arity : NativeFunction → Nat
  | .clock => 0

namespace Value

/-- Whether a condition with this value holds: nil and false do not. -/
def isTruthy : Value → Bool
  | .nil => false
  | .bool value => value
  | _ => true

/-- The value of a literal. -/
def ofLiteral : Literal → Value
  | .nil => .nil
  | .bool value => .bool value
  | .number value => .number value
  | .string contents => .string contents

end Value

end Lox.Execution
