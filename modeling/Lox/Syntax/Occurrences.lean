import Lox.Syntax.Tree

namespace Lox

/-!
# Occurrences

The occurrences of a program that are looked up in a scope, in the order in
which scope resolution reaches them: the value of an assignment comes before its
target, a property's new value before its object, and a superclass before the
methods.
-/

/-- One occurrence: its identity and the name that is looked up. -/
abbrev Occurrence := NodeId × String

mutual

/-- The occurrences of an expression. -/
def Expr.occurrences : Expr → List Occurrence
  | .literal _ => []
  | .grouping inner => inner.occurrences
  | .unary _ _ operand => operand.occurrences
  | .binary _ _ left right => left.occurrences ++ right.occurrences
  | .logical _ left right => left.occurrences ++ right.occurrences
  | .reference occurrence => [(occurrence.id, occurrence.name.text)]
  | .assign target value => value.occurrences ++ [(target.id, target.name.text)]
  | .call callee arguments _ =>
      callee.occurrences ++ Expr.occurrencesOfAll arguments
  | .property object _ => object.occurrences
  | .setProperty object _ value => value.occurrences ++ object.occurrences
  | .this id _ => [(id, receiverName)]
  | .super id _ _ => [(id, superclassName)]

/-- The occurrences of expressions in order. -/
def Expr.occurrencesOfAll : List Expr → List Occurrence
  | [] => []
  | first :: rest => first.occurrences ++ Expr.occurrencesOfAll rest

end

/-- The occurrences of an expression that may be absent. -/
def Expr.occurrencesOfOptional : Option Expr → List Occurrence
  | none => []
  | some expression => expression.occurrences

mutual

/-- The occurrences of a statement. -/
def Stmt.occurrences : Stmt → List Occurrence
  | .expression value => value.occurrences
  | .print value => value.occurrences
  | .varDeclaration _ initializer => Expr.occurrencesOfOptional initializer
  | .block body => Stmt.occurrencesOfAll body
  | .branch condition consequent none =>
      condition.occurrences ++ consequent.occurrences
  | .branch condition consequent (some alternative) =>
      condition.occurrences ++ consequent.occurrences ++ alternative.occurrences
  | .loop condition body => condition.occurrences ++ body.occurrences
  | .functionDeclaration declaration => declaration.occurrences
  | .returnValue _ value => Expr.occurrencesOfOptional value
  | .classDeclaration _ none methods =>
      FunctionDeclaration.occurrencesOfAll methods
  | .classDeclaration _ (some parent) methods =>
      (parent.id, parent.name.text) :: FunctionDeclaration.occurrencesOfAll methods

/-- The occurrences of statements in order. -/
def Stmt.occurrencesOfAll : List Stmt → List Occurrence
  | [] => []
  | first :: rest => first.occurrences ++ Stmt.occurrencesOfAll rest

/-- The occurrences of a function's body. -/
def FunctionDeclaration.occurrences : FunctionDeclaration → List Occurrence
  | .intro _ _ body => Stmt.occurrencesOfAll body

/-- The occurrences of functions in order. -/
def FunctionDeclaration.occurrencesOfAll : List FunctionDeclaration → List Occurrence
  | [] => []
  | first :: rest =>
      first.occurrences ++ FunctionDeclaration.occurrencesOfAll rest

end

end Lox
