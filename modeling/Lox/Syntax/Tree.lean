import Lox.Token

namespace Lox

/-!
# Syntax trees

Expressions, statements and function declarations.  Operators are types of their
own, so every tree has a meaning.  A name keeps the line on which it stands, and
an occurrence that is looked up in a scope (a variable, an assignment, `this` or
`super`) has an identity, under which its scope distance is recorded.
-/

/-- The identity of an occurrence that is looked up in a scope. -/
abbrev NodeId := Nat

/-- A name as it stands in a program, and its line. -/
structure Identifier where
  text : String
  line : Nat
  deriving Repr, DecidableEq

/-- An occurrence of a variable. -/
structure Reference where
  id : NodeId
  name : Identifier
  deriving Repr, DecidableEq

/-- The operators with one operand. -/
inductive UnaryOperator where
  | not
  | negate
  deriving Repr, DecidableEq

/-- The operators that evaluate both of their operands. -/
inductive BinaryOperator where
  | add
  | subtract
  | multiply
  | divide
  | greater
  | greaterEqual
  | less
  | lessEqual
  | equal
  | notEqual
  deriving Repr, DecidableEq

/-- The operators that may leave their second operand out. -/
inductive LogicalOperator where
  | and
  | or
  deriving Repr, DecidableEq

/-- The values that a program writes out. -/
inductive Literal where
  | nil
  | bool (value : Bool)
  | number (value : Number)
  | string (contents : String)
  deriving Repr, DecidableEq

/-- Expressions. -/
inductive Expr where
  | literal (value : Literal)
  | grouping (inner : Expr)
  | unary (operator : UnaryOperator) (line : Nat) (operand : Expr)
  | binary (operator : BinaryOperator) (line : Nat) (left right : Expr)
  | logical (operator : LogicalOperator) (left right : Expr)
  | reference (occurrence : Reference)
  | assign (target : Reference) (value : Expr)
  | call (callee : Expr) (arguments : List Expr) (closingLine : Nat)
  | property (object : Expr) (name : Identifier)
  | setProperty (object : Expr) (name : Identifier) (value : Expr)
  | this (id : NodeId) (line : Nat)
  | super (id : NodeId) (line : Nat) (method : Identifier)
  deriving Repr, Inhabited

mutual

/-- Statements, among them declarations. -/
inductive Stmt where
  | expression (value : Expr)
  | print (value : Expr)
  | varDeclaration (name : Identifier) (initializer : Option Expr)
  | block (body : List Stmt)
  | branch (condition : Expr) (consequent : Stmt) (alternative : Option Stmt)
  | loop (condition : Expr) (body : Stmt)
  | functionDeclaration (declaration : FunctionDeclaration)
  | returnValue (line : Nat) (value : Option Expr)
  | classDeclaration
      (name : Identifier)
      (superclass : Option Reference)
      (methods : List FunctionDeclaration)

/-- A function or method: its name, parameters and body. -/
inductive FunctionDeclaration where
  | intro (name : Identifier) (parameters : List Identifier) (body : List Stmt)

end

namespace FunctionDeclaration

/-- The name of a function. -/
def name : FunctionDeclaration → Identifier
  | .intro name _ _ => name

/-- The parameters of a function. -/
def parameters : FunctionDeclaration → List Identifier
  | .intro _ parameters _ => parameters

/-- The statements that a function runs. -/
def body : FunctionDeclaration → List Stmt
  | .intro _ _ body => body

/-- The number of arguments that a function takes. -/
def arity (declaration : FunctionDeclaration) : Nat :=
  declaration.parameters.length

end FunctionDeclaration

/-- The spelling of an operator with one operand. -/
def UnaryOperator.spelling : UnaryOperator → String
  | .not => "!"
  | .negate => "-"

/-- The spelling of an operator with two operands. -/
def BinaryOperator.spelling : BinaryOperator → String
  | .add => "+"
  | .subtract => "-"
  | .multiply => "*"
  | .divide => "/"
  | .greater => ">"
  | .greaterEqual => ">="
  | .less => "<"
  | .lessEqual => "<="
  | .equal => "=="
  | .notEqual => "!="

/-- The spelling of a logical operator. -/
def LogicalOperator.spelling : LogicalOperator → String
  | .and => "and"
  | .or => "or"

/-- The keyword that names the receiver of a method. -/
def receiverName : String :=
  "this"

/-- The keyword that ends a function. -/
def returnKeyword : String :=
  "return"

/-- The keyword that names the superclass of a class. -/
def superclassName : String :=
  "super"

namespace Stmt

/--
The meaning of a `for` loop in terms of the other statements: the increment
follows the body in a block of its own, and the initializer precedes the loop in
a block around both; a missing condition is always true.
-/
def forLoop
    (initializer : Option Stmt)
    (condition : Option Expr)
    (increment : Option Expr)
    (body : Stmt) :
    Stmt :=
  let round :=
    match increment with
    | some step => .block [body, .expression step]
    | none => body
  let repeated := .loop (condition.getD (.literal (.bool true))) round
  match initializer with
  | some first => .block [first, repeated]
  | none => repeated

end Stmt

end Lox
