import Lox.Syntax.Error
import Lox.Bindings

namespace Lox.Scoping

/-!
# The state of scope resolution

Resolution walks a program with a stack of local scopes, innermost first, and
with what surrounds the point it has reached: a function or method, a class with
or without a superclass.  It settles every occurrence of a name once, either at
a number of scopes above the occurrence or as global.
-/

/-- Whether a local name can be read yet. -/
inductive Standing where
  | declared
  | defined
  deriving Repr, DecidableEq

/-- The names of one local scope. -/
abbrev LocalScope := Bindings Standing

/-- The innermost class around a point. -/
inductive ClassRole where
  | base
  | subclass
  deriving Repr, DecidableEq

/-- The verdict on one occurrence: how many scopes above it, or none if global. -/
structure Settlement where
  id : NodeId
  name : String
  depth : Option Nat
  deriving Repr, DecidableEq

/-- The ways in which a program breaks the scope rules. -/
inductive ScopeFault where
  | redeclaration
  | ownInitializer
  | returnOutsideFunction
  | thisOutsideClass
  | superOutsideClass
  | superWithoutSuperclass
  | selfInheritance
  deriving Repr, DecidableEq

/-- A fault with the name or keyword at which it is reported. -/
structure ScopeError where
  fault : ScopeFault
  culprit : Identifier
  deriving Repr, DecidableEq

/-- The text of a scope fault. -/
def ScopeFault.message : ScopeFault → String
  | .redeclaration => "Already a variable with this name in this scope."
  | .ownInitializer => "Can't read local variable in its own initializer."
  | .returnOutsideFunction => "Can't return from top-level code."
  | .thisOutsideClass => "Can't use 'this' outside of a class."
  | .superOutsideClass => "Can't use 'super' outside of a class."
  | .superWithoutSuperclass => "Can't use 'super' in a class with no superclass."
  | .selfInheritance => "A class can't inherit from itself."

/--
What surrounds the point that resolution has reached, and the occurrences
settled so far, the last one first.
-/
structure Resolver where
  scopes : List LocalScope
  functionRole : Option FunctionRole
  classRole : Option ClassRole
  settled : List Settlement
  deriving Repr, DecidableEq

/-- The state outside of everything. -/
def Resolver.initial : Resolver :=
  ⟨[], none, none, []⟩

/-- A computation that resolves names, and stops at a scope error. -/
abbrev Resolving := EStateM ScopeError Resolver

/-- Fail with a fault at a name or keyword. -/
def fail (fault : ScopeFault) (culprit : Identifier) : Resolving α :=
  throw ⟨fault, culprit⟩

/-- Give a name a standing in the innermost scope; names outside are global. -/
def record (name : String) (standing : Standing) : Resolving Unit :=
  modify fun resolver =>
    match resolver.scopes with
    | [] => resolver
    | scope :: outer => { resolver with scopes := scope.insert name standing :: outer }

/-- Declare a name in the innermost scope, which must not have it yet. -/
def declare (name : Identifier) : Resolving Unit := do
  match (← get).scopes with
  | [] => pure ()
  | scope :: _ =>
      if scope.contains name.text then fail .redeclaration name
      else record name.text .declared

/-- Make a name of the innermost scope readable. -/
def define (name : String) : Resolving Unit :=
  record name .defined

/-- Declare a name that is readable at once. -/
def introduce (name : Identifier) : Resolving Unit := do
  declare name
  define name.text

/-- Declare names that are readable at once, in order. -/
def introduceAll : List Identifier → Resolving Unit
  | [] => pure ()
  | name :: rest => do
      introduce name
      introduceAll rest

/-- Run in a new innermost scope, which is gone afterwards whatever happens. -/
def inScope (action : Resolving α) : Resolving α := fun resolver =>
  match action { resolver with scopes := Bindings.empty :: resolver.scopes } with
  | .ok value final => .ok value { final with scopes := resolver.scopes }
  | .error error final => .error error { final with scopes := resolver.scopes }

/-- Run inside a function or method, and be outside of it again whatever happens. -/
def inFunction (role : FunctionRole) (action : Resolving α) : Resolving α :=
  fun resolver =>
    match action { resolver with functionRole := some role } with
    | .ok value final =>
        .ok value { final with functionRole := resolver.functionRole }
    | .error error final =>
        .error error { final with functionRole := resolver.functionRole }

/-- Change what class surrounds the current point. -/
def setClassRole (role : Option ClassRole) : Resolving Unit :=
  modify fun resolver => { resolver with classRole := role }

/-- Run, and set what class surrounds the current point whatever happens. -/
def leavingClass (outer : Option ClassRole) (action : Resolving α) : Resolving α :=
  fun resolver =>
    match action resolver with
    | .ok value final => .ok value { final with classRole := outer }
    | .error error final => .error error { final with classRole := outer }

/-- The number of scopes between a point and the innermost one that has a name. -/
def Resolver.depth? (resolver : Resolver) (name : String) : Option Nat :=
  resolver.scopes.findIdx? (·.contains name)

/-- Settle an occurrence of a name. -/
def settle (id : NodeId) (name : String) : Resolving Unit :=
  modify fun resolver =>
    { resolver with
      settled := ⟨id, name, resolver.depth? name⟩ :: resolver.settled }

end Lox.Scoping
