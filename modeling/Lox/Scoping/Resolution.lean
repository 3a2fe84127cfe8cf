import Lox.Scoping.Resolver

namespace Lox.Scoping

/-!
# Scope resolution

One walk over a program that checks the scope rules and settles every
occurrence.  The scopes follow those of a run: a block, a function with its
parameters, the scope that holds `super` around the methods of a subclass, and
the scope that holds `this` around every method.
-/

/-- Read a variable; a local one must not stand in its own initializer. -/
def resolveReference (occurrence : Reference) : Resolving Unit := do
  let name := occurrence.name
  if (← get).scopes.head?.any (·.get? name.text = some .declared) then
    fail .ownInitializer name
  settle occurrence.id name.text

/-- Read `this`, which needs a class around it. -/
def resolveThis (id : NodeId) (line : Nat) : Resolving Unit := do
  match (← get).classRole with
  | none => fail .thisOutsideClass ⟨receiverName, line⟩
  | some _ => settle id receiverName

/-- Read `super`, which needs a subclass around it. -/
def resolveSuper (id : NodeId) (line : Nat) : Resolving Unit := do
  match (← get).classRole with
  | none => fail .superOutsideClass ⟨superclassName, line⟩
  | some .base => fail .superWithoutSuperclass ⟨superclassName, line⟩
  | some .subclass => settle id superclassName

mutual

/-- Resolve an expression; a value that is assigned comes before its target. -/
def resolveExpr : Expr → Resolving Unit
  | .literal _ => pure ()
  | .grouping inner => resolveExpr inner
  | .unary _ _ operand => resolveExpr operand
  | .binary _ _ left right => do
      resolveExpr left
      resolveExpr right
  | .logical _ left right => do
      resolveExpr left
      resolveExpr right
  | .reference occurrence => resolveReference occurrence
  | .assign target value => do
      resolveExpr value
      settle target.id target.name.text
  | .call callee arguments _ => do
      resolveExpr callee
      resolveExprs arguments
  | .property object _ => resolveExpr object
  | .setProperty object _ value => do
      resolveExpr value
      resolveExpr object
  | .this id line => resolveThis id line
  | .super id line _ => resolveSuper id line

/-- Resolve expressions in order. -/
def resolveExprs : List Expr → Resolving Unit
  | [] => pure ()
  | first :: rest => do
      resolveExpr first
      resolveExprs rest

end

/-- Resolve an expression if there is one. -/
def resolveOptional : Option Expr → Resolving Unit
  | none => pure ()
  | some expression => resolveExpr expression

/--
Resolve a class around its methods, given how they are resolved.  The class may
refer to itself but not inherit from itself.
-/
def resolveClass
    (name : Identifier)
    (superclass : Option Reference)
    (methods : Resolving Unit) :
    Resolving Unit := do
  let outer := (← get).classRole
  let body := inScope do
    define receiverName
    methods
  setClassRole (some .base)
  introduce name
  match superclass with
  | none => leavingClass outer body
  | some parent => do
      if parent.name.text = name.text then
        leavingClass outer (fail .selfInheritance parent.name)
      setClassRole (some .subclass)
      resolveReference parent
      leavingClass outer (inScope do
        define superclassName
        body)

mutual

/-- Resolve a statement. -/
def resolveStmt : Stmt → Resolving Unit
  | .expression value => resolveExpr value
  | .print value => resolveExpr value
  | .varDeclaration name initializer => do
      declare name
      resolveOptional initializer
      define name.text
  | .block body => inScope (resolveStmts body)
  | .branch condition consequent none => do
      resolveExpr condition
      resolveStmt consequent
  | .branch condition consequent (some alternative) => do
      resolveExpr condition
      resolveStmt consequent
      resolveStmt alternative
  | .loop condition body => do
      resolveExpr condition
      resolveStmt body
  | .functionDeclaration declaration => do
      introduce declaration.name
      resolveFunction .function declaration
  | .returnValue line value => do
      if (← get).functionRole.isNone then
        fail .returnOutsideFunction ⟨returnKeyword, line⟩
      resolveOptional value
  | .classDeclaration name superclass methods =>
      resolveClass name superclass (resolveMethods methods)

/-- Resolve statements in order. -/
def resolveStmts : List Stmt → Resolving Unit
  | [] => pure ()
  | first :: rest => do
      resolveStmt first
      resolveStmts rest

/-- Resolve a function, whose parameters and body share one scope. -/
def resolveFunction (role : FunctionRole) : FunctionDeclaration → Resolving Unit
  | .intro _ parameters body =>
      inFunction role (inScope do
        introduceAll parameters
        resolveStmts body)

/-- Resolve methods in order. -/
def resolveMethods : List FunctionDeclaration → Resolving Unit
  | [] => pure ()
  | first :: rest => do
      resolveFunction .method first
      resolveMethods rest

end

/-- What resolving a program gives: what was settled, in order, and the verdict. -/
structure Resolution where
  settled : List Settlement
  verdict : Except ScopeError Unit

/-- Resolve a program, and return what surrounds the point after it. -/
def Resolver.resolve
    (resolver : Resolver)
    (program : List Stmt) :
    Resolution × Resolver :=
  match resolveStmts program { resolver with settled := [] } with
  | .ok _ final => (⟨final.settled.reverse, .ok ()⟩, { final with settled := [] })
  | .error error final =>
      (⟨final.settled.reverse, .error error⟩, { final with settled := [] })

/-- Resolve a program outside of everything. -/
def resolve (program : List Stmt) : Resolution :=
  (Resolver.initial.resolve program).1

end Lox.Scoping
