import Lox.Syntax.Tree

namespace Lox

/-!
# Trees up to identities

The shape of a tree is the tree with every identity of an occurrence forgotten.
Two readings of one token list differ at most in these identities.
-/

/-- A reference without its identity. -/
def Reference.shape (reference : Reference) : Reference :=
  { reference with id := 0 }

mutual

/-- An expression without the identities in it. -/
def Expr.shape : Expr → Expr
  | .literal value => .literal value
  | .grouping inner => .grouping inner.shape
  | .unary operator line operand => .unary operator line operand.shape
  | .binary operator line left right =>
      .binary operator line left.shape right.shape
  | .logical operator left right => .logical operator left.shape right.shape
  | .reference occurrence => .reference occurrence.shape
  | .assign target value => .assign target.shape value.shape
  | .call callee arguments line =>
      .call callee.shape (Expr.shapes arguments) line
  | .property object name => .property object.shape name
  | .setProperty object name value => .setProperty object.shape name value.shape
  | .this _ line => .this 0 line
  | .super _ line method => .super 0 line method

/-- Expressions without the identities in them. -/
def Expr.shapes : List Expr → List Expr
  | [] => []
  | first :: rest => first.shape :: Expr.shapes rest

end

mutual

/-- A statement without the identities in it. -/
def Stmt.shape : Stmt → Stmt
  | .expression value => .expression value.shape
  | .print value => .print value.shape
  | .varDeclaration name initializer =>
      .varDeclaration name (initializer.map Expr.shape)
  | .block body => .block (Stmt.shapes body)
  | .branch condition consequent none =>
      .branch condition.shape consequent.shape none
  | .branch condition consequent (some alternative) =>
      .branch condition.shape consequent.shape (some alternative.shape)
  | .loop condition body => .loop condition.shape body.shape
  | .functionDeclaration declaration => .functionDeclaration declaration.shape
  | .returnValue line value => .returnValue line (value.map Expr.shape)
  | .classDeclaration name superclass methods =>
      .classDeclaration name (superclass.map Reference.shape)
        (FunctionDeclaration.shapes methods)

/-- Statements without the identities in them. -/
def Stmt.shapes : List Stmt → List Stmt
  | [] => []
  | first :: rest => first.shape :: Stmt.shapes rest

/-- A function without the identities in its body. -/
def FunctionDeclaration.shape : FunctionDeclaration → FunctionDeclaration
  | .intro name parameters body => .intro name parameters (Stmt.shapes body)

/-- Functions without the identities in their bodies. -/
def FunctionDeclaration.shapes : List FunctionDeclaration → List FunctionDeclaration
  | [] => []
  | first :: rest => first.shape :: FunctionDeclaration.shapes rest

end

/-! ## What a shape tells of its tree -/

/-- Only a variable has the shape of a variable, with the same name. -/
theorem Expr.eq_reference_of_shape
    {value : Expr}
    {occurrence : Reference}
    (same : value.shape = (Expr.reference occurrence).shape) :
    ∃ id, value = .reference ⟨id, occurrence.name⟩ := by
  cases value with
  | reference found =>
      simp only [Expr.shape, Reference.shape, Expr.reference.injEq,
        Reference.mk.injEq, true_and] at same
      exact ⟨found.id, by rw [← same]⟩
  | _ => simp [Expr.shape] at same

/-- Only a property has the shape of a property, of an object of the same shape. -/
theorem Expr.eq_property_of_shape
    {value object : Expr}
    {name : Identifier}
    (same : value.shape = (Expr.property object name).shape) :
    ∃ found, value = .property found name ∧ found.shape = object.shape := by
  cases value with
  | property found other =>
      simp only [Expr.shape, Expr.property.injEq] at same
      exact ⟨found, by rw [same.2], same.1⟩
  | _ => simp [Expr.shape] at same

/-- Only a print statement has the shape of one, of an expression of the same shape. -/
theorem Stmt.eq_print_of_shape
    {single : Stmt}
    {value : Expr}
    (same : single.shape = (Stmt.print value).shape) :
    ∃ found, single = .print found ∧ found.shape = value.shape := by
  cases single with
  | print found => exact ⟨found, rfl, Stmt.print.inj same⟩
  | branch _ _ alternative => cases alternative <;> cases same
  | _ => cases same

theorem Stmt.shape_branch
    (condition : Expr)
    (consequent : Stmt)
    (alternative : Option Stmt) :
    (Stmt.branch condition consequent alternative).shape =
      .branch condition.shape consequent.shape (alternative.map Stmt.shape) := by
  cases alternative <;> rfl

theorem Stmt.shape_forLoop
    (initializer : Option Stmt)
    (condition increment : Option Expr)
    (body : Stmt) :
    (Stmt.forLoop initializer condition increment body).shape =
      .forLoop (initializer.map Stmt.shape) (condition.map Expr.shape)
        (increment.map Expr.shape) body.shape := by
  cases initializer <;> cases condition <;> cases increment <;> rfl

end Lox
