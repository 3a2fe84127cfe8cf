import Lox.Proofs.Scoping.Sites

namespace Lox

/-!
# Copies under other identities

The same program can be run in two ways only if its occurrences can be told apart: each
copy has identities of its own, under which distances of its own are recorded.
-/

section

variable (number : NodeId → NodeId)

/-- An occurrence under another identity. -/
def Reference.renumbered (reference : Reference) : Reference :=
  { reference with id := number reference.id }

mutual

/-- An expression with other identities in it. -/
def Expr.renumbered : Expr → Expr
  | .literal value => .literal value
  | .grouping inner => .grouping inner.renumbered
  | .unary operator line operand => .unary operator line operand.renumbered
  | .binary operator line left right =>
      .binary operator line left.renumbered right.renumbered
  | .logical operator left right => .logical operator left.renumbered right.renumbered
  | .reference occurrence => .reference (occurrence.renumbered number)
  | .assign target value => .assign (target.renumbered number) value.renumbered
  | .call callee arguments line =>
      .call callee.renumbered (Expr.allRenumbered arguments) line
  | .property object name => .property object.renumbered name
  | .setProperty object name value =>
      .setProperty object.renumbered name value.renumbered
  | .this id line => .this (number id) line
  | .super id line method => .super (number id) line method

/-- Expressions with other identities in them. -/
def Expr.allRenumbered : List Expr → List Expr
  | [] => []
  | first :: rest => first.renumbered :: Expr.allRenumbered rest

end

mutual

/-- A statement with other identities in it. -/
def Stmt.renumbered : Stmt → Stmt
  | .expression value => .expression (value.renumbered number)
  | .print value => .print (value.renumbered number)
  | .varDeclaration name initializer =>
      .varDeclaration name (initializer.map (·.renumbered number))
  | .block body => .block (Stmt.allRenumbered body)
  | .branch condition consequent none =>
      .branch (condition.renumbered number) consequent.renumbered none
  | .branch condition consequent (some alternative) =>
      .branch (condition.renumbered number) consequent.renumbered
        (some alternative.renumbered)
  | .loop condition body => .loop (condition.renumbered number) body.renumbered
  | .functionDeclaration declaration => .functionDeclaration declaration.renumbered
  | .returnValue line value => .returnValue line (value.map (·.renumbered number))
  | .classDeclaration name superclass methods =>
      .classDeclaration name (superclass.map (·.renumbered number))
        (FunctionDeclaration.allRenumbered methods)

/-- Statements with other identities in them. -/
def Stmt.allRenumbered : List Stmt → List Stmt
  | [] => []
  | first :: rest => first.renumbered :: Stmt.allRenumbered rest

/-- A function with other identities in its body. -/
def FunctionDeclaration.renumbered : FunctionDeclaration → FunctionDeclaration
  | .intro name parameters body => .intro name parameters (Stmt.allRenumbered body)

/-- Functions with other identities in their bodies. -/
def FunctionDeclaration.allRenumbered : List FunctionDeclaration → List FunctionDeclaration
  | [] => []
  | first :: rest => first.renumbered :: FunctionDeclaration.allRenumbered rest

end

/-- Identities have nothing to do with what is declared. -/
theorem Stmt.declared_renumbered :
    ∀ single : Stmt, (single.renumbered number).declared = single.declared
  | .expression _ => rfl
  | .print _ => rfl
  | .varDeclaration _ _ => rfl
  | .block _ => rfl
  | .branch _ consequent none => Stmt.declared_renumbered consequent
  | .branch _ consequent (some alternative) => by
      rw [Stmt.renumbered, Stmt.declared, Stmt.declared_renumbered consequent,
        Stmt.declared_renumbered alternative]
      rfl
  | .loop _ body => Stmt.declared_renumbered body
  | .functionDeclaration (.intro _ _ _) => rfl
  | .returnValue _ _ => rfl
  | .classDeclaration _ _ _ => rfl

end

end Lox
