import Lox.Proofs.Scoping.Exact

namespace Lox

namespace Scoping

/-!
# Renaming a local variable

The parameters of a function and the variables of a block or function have names that
a program may choose freely.  One of them is given by the way to its scope and by its
name.  Renaming it changes its declaration and the occurrences that resolution binds to
it, and nothing else.
-/

/-- The way to a local scope: the positions of the statements and methods around it. -/
abbrev Address := List Nat

/-- The rest of the way to a scope behind a step to one position. -/
def below (target : Option Address) (position : Nat) : Option Address :=
  match target with
  | some (next :: rest) => if next = position then some rest else none
  | _ => none

/-- A name that a scope declares, for a variable or for a function or class. -/
inductive Declaration where
  | variable (name : String)
  | definition (name : String)
  deriving Repr, DecidableEq

/-- The name that is declared. -/
def Declaration.name : Declaration → String
  | .variable name => name
  | .definition name => name

/-- A name that is not one of the keywords that scopes hold. -/
def LegibleName (name : String) : Prop :=
  name ≠ receiverName ∧ name ≠ superclassName

/-- The new name of a variable, and the depths at which occurrences are settled. -/
structure Renaming where
  old : String
  new : String
  depths : NodeId → Option Nat

/--
Whether what is found a number of scopes up is found in the scope of the variable, if
the scopes around are marked accordingly.
-/
def inMarked (around : List Bool) : Option Nat → Bool
  | some depth => around[depth]?.getD false
  | none => false

namespace Renaming

variable (naming : Renaming)

/-- The new text of a name, which changes in the scope of the variable only. -/
def text (marked : Bool) (name : String) : String :=
  if marked = true ∧ name = naming.old then naming.new else name

/-- A name with its new text. -/
def name (marked : Bool) (name : Identifier) : Identifier :=
  { name with text := naming.text marked name.text }

/-- The new name of a variable that is declared in the innermost scope. -/
def declared (around : List Bool) (name : Identifier) : Identifier :=
  naming.name (inMarked around (some 0)) name

/-- An occurrence with the new name of what it is bound to. -/
def reference (around : List Bool) (occurrence : Reference) : Reference :=
  { occurrence with
    name :=
      naming.name (inMarked around (naming.depths occurrence.id)) occurrence.name }

/-- Whether a scope to which some way is left is that of the variable. -/
def marks (target : Option Address) (declarations : List Declaration) : Bool :=
  decide (target = some [] ∧ .variable naming.old ∈ declarations)

end Renaming

end Scoping

open Scoping

/-! ## Renamed programs -/

mutual

/-- What a statement declares in the scope around it. -/
def Stmt.declarations : Stmt → List Declaration
  | .varDeclaration name _ => [.variable name.text]
  | .functionDeclaration declaration => [.definition declaration.name.text]
  | .classDeclaration name _ _ => [.definition name.text]
  | .branch _ consequent none => consequent.declarations
  | .branch _ consequent (some alternative) =>
      consequent.declarations ++ alternative.declarations
  | .loop _ body => body.declarations
  | .expression _ => []
  | .print _ => []
  | .block _ => []
  | .returnValue _ _ => []

/-- What statements declare in the scope around them. -/
def Stmt.declarationsOfAll : List Stmt → List Declaration
  | [] => []
  | first :: rest => first.declarations ++ Stmt.declarationsOfAll rest

end

mutual

/-- An expression after renaming, inside of scopes that are marked. -/
def Expr.renamed (naming : Renaming) (around : List Bool) : Expr → Expr
  | .literal value => .literal value
  | .grouping inner => .grouping (inner.renamed naming around)
  | .unary operator line operand =>
      .unary operator line (operand.renamed naming around)
  | .binary operator line left right =>
      .binary operator line (left.renamed naming around) (right.renamed naming around)
  | .logical operator left right =>
      .logical operator (left.renamed naming around) (right.renamed naming around)
  | .reference occurrence => .reference (naming.reference around occurrence)
  | .assign target value =>
      .assign (naming.reference around target) (value.renamed naming around)
  | .call callee arguments line =>
      .call (callee.renamed naming around) (Expr.renamedAll naming around arguments) line
  | .property object name => .property (object.renamed naming around) name
  | .setProperty object name value =>
      .setProperty (object.renamed naming around) name (value.renamed naming around)
  | .this id line => .this id line
  | .super id line method => .super id line method

/-- Expressions after renaming. -/
def Expr.renamedAll (naming : Renaming) (around : List Bool) : List Expr → List Expr
  | [] => []
  | first :: rest => first.renamed naming around :: Expr.renamedAll naming around rest

end

mutual

/--
A statement after renaming, inside of scopes that are marked, where some way is left
to the scope of the variable.
-/
def Stmt.renamed
    (naming : Renaming)
    (target : Option Address)
    (around : List Bool) :
    Stmt → Stmt
  | .expression value => .expression (value.renamed naming around)
  | .print value => .print (value.renamed naming around)
  | .varDeclaration name initializer =>
      .varDeclaration (naming.declared around name)
        (initializer.map (Expr.renamed naming around))
  | .block body =>
      let marked := naming.marks target (Stmt.declarationsOfAll body)
      .block (Stmt.renamedAll naming target 0 (marked :: around) body)
  | .branch condition consequent none =>
      .branch (condition.renamed naming around)
        (consequent.renamed naming (below target 0) around) none
  | .branch condition consequent (some alternative) =>
      .branch (condition.renamed naming around)
        (consequent.renamed naming (below target 0) around)
        (some (alternative.renamed naming (below target 1) around))
  | .loop condition body =>
      .loop (condition.renamed naming around)
        (body.renamed naming (below target 0) around)
  | .functionDeclaration declaration =>
      .functionDeclaration (declaration.renamed naming target around)
  | .returnValue line value =>
      .returnValue line (value.map (Expr.renamed naming around))
  | .classDeclaration name none methods =>
      .classDeclaration name none
        (FunctionDeclaration.renamedAll naming target 0 (false :: around) methods)
  | .classDeclaration name (some parent) methods =>
      .classDeclaration name (some (naming.reference around parent))
        (FunctionDeclaration.renamedAll naming target 0 (false :: false :: around) methods)

/-- Statements from some position on after renaming. -/
def Stmt.renamedAll
    (naming : Renaming)
    (target : Option Address)
    (position : Nat)
    (around : List Bool) :
    List Stmt → List Stmt
  | [] => []
  | first :: rest =>
      first.renamed naming (below target position) around ::
        Stmt.renamedAll naming target (position + 1) around rest

/-- A function after renaming; its own name stays. -/
def FunctionDeclaration.renamed
    (naming : Renaming)
    (target : Option Address)
    (around : List Bool) :
    FunctionDeclaration → FunctionDeclaration
  | .intro name parameters body =>
      let marked := naming.marks target
        (parameters.map (.variable ·.text) ++ Stmt.declarationsOfAll body)
      .intro name (parameters.map (naming.declared (marked :: around)))
        (Stmt.renamedAll naming target 0 (marked :: around) body)

/-- Methods from some position on after renaming. -/
def FunctionDeclaration.renamedAll
    (naming : Renaming)
    (target : Option Address)
    (position : Nat)
    (around : List Bool) :
    List FunctionDeclaration → List FunctionDeclaration
  | [] => []
  | first :: rest =>
      first.renamed naming (below target position) around ::
        FunctionDeclaration.renamedAll naming target (position + 1) around rest

end

namespace Scoping

/-- The depth at which resolution settles an occurrence of a program. -/
def depthIn (program : List Stmt) (id : NodeId) : Option Nat :=
  ((resolve program).settled.find? (·.id = id)).bind (·.depth)

/--
A program in which a parameter or variable of the local scope at an address has a new
name, with the occurrences that are bound to it.
-/
def renameVariable
    (program : List Stmt)
    (address : Address)
    (old new : String) :
    List Stmt :=
  Stmt.renamedAll ⟨old, new, depthIn program⟩ (some address) 0 [] program

end Scoping

end Lox
