import Lox.Scoping.Resolver
import Lox.Syntax.Occurrences

namespace Lox.Scoping

/-!
# Lexical places

The scope rules are about points of a program and what surrounds them.  The
sites of a program are all points at which a rule applies, each with its place,
which is handed down the syntax tree: nothing here has a state.
-/

/--
What surrounds a point of a program: the local scopes, innermost first, each with
the names that are declared in it before the point, and the innermost function
and class.
-/
structure Place where
  scopes : List (List String)
  functionRole : Option FunctionRole
  classRole : Option ClassRole

namespace Place

/-- The place outside of everything. -/
def outermost : Place :=
  ⟨[], none, none⟩

/-- The place behind a declaration; outside of local scopes names are global. -/
def declaring (place : Place) (names : List String) : Place :=
  match place.scopes with
  | [] => place
  | innermost :: outer => { place with scopes := (innermost ++ names) :: outer }

/-- The place at the start of a new local scope. -/
def entering (place : Place) : Place :=
  { place with scopes := [] :: place.scopes }

/-- The place inside a function. -/
def asFunction (place : Place) (role : FunctionRole) : Place :=
  { place with functionRole := some role }

/-- The place inside a class. -/
def asClass (place : Place) (role : ClassRole) : Place :=
  { place with classRole := some role }

/-- The place inside a local scope that has one name from the start. -/
def holding (place : Place) (name : String) : Place :=
  place.entering.declaring [name]

/-- The place of the methods of a class behind the name of the class. -/
def ofMethods (place : Place) : Option Reference → Place
  | none => (place.asClass .base).holding receiverName
  | some _ =>
      ((place.asClass .subclass).holding superclassName).holding receiverName

/-- The number of local scopes between a place and the innermost one with a name. -/
def depth? (place : Place) (name : String) : Option Nat :=
  place.scopes.findIdx? (name ∈ ·)

/-- Whether the innermost local scope has a name already. -/
def hasLocally (place : Place) (name : String) : Bool :=
  place.scopes.head?.any (name ∈ ·)

end Place

/--
A depth is that of the innermost scope around a place that has declared a name
before it; without such a scope there is none.
-/
def Place.Binds (place : Place) (name : String) : Option Nat → Prop
  | some depth =>
      (∃ names, place.scopes[depth]? = some names ∧ name ∈ names) ∧
        ∀ nearer < depth, ∀ names, place.scopes[nearer]? = some names → name ∉ names
  | none => ∀ names ∈ place.scopes, name ∉ names

/-- The depth that is settled is that of the innermost scope with the name. -/
theorem Place.binds_depth? (place : Place) (name : String) :
    place.Binds name (place.depth? name) := by
  unfold Place.depth?
  cases found : place.scopes.findIdx? (name ∈ ·) with
  | none => simpa [Binds] using List.findIdx?_eq_none_iff.mp found
  | some depth =>
      obtain ⟨within, declared, nearest⟩ := List.findIdx?_eq_some_iff_getElem.mp found
      refine ⟨⟨place.scopes[depth], by simp, by simpa using declared⟩, ?_⟩
      intro nearer before names known member
      obtain ⟨bound, rfl⟩ := List.getElem?_eq_some_iff.mp known
      exact nearest nearer before (by simpa using member)

/-- What happens at a point to which a scope rule applies. -/
inductive Deed where
  | declares (name : Identifier)
  | reads (occurrence : Reference)
  | assigns (target : Reference)
  | this (id : NodeId) (line : Nat)
  | super (id : NodeId) (line : Nat)
  | returns (line : Nat)
  | inherits (name parent : Identifier)

/-- A point with its place, and the variable whose initializer it stands in. -/
structure Site where
  place : Place
  initializing : Option String
  deed : Deed

namespace Site

/-- The occurrence that is looked up at a site. -/
def occurrence? (site : Site) : Option Occurrence :=
  match site.deed with
  | .reads occurrence => some (occurrence.id, occurrence.name.text)
  | .assigns target => some (target.id, target.name.text)
  | .this id _ => some (id, receiverName)
  | .super id _ => some (id, superclassName)
  | _ => none

/-- The occurrence at a site, settled at the innermost scope with its name. -/
def settlement? (site : Site) : Option Settlement :=
  site.occurrence?.map fun (id, name) => ⟨id, name, site.place.depth? name⟩

/-- The rule that a site breaks, with the name or keyword that breaks it. -/
def fault? (site : Site) : Option ScopeError :=
  match site.deed with
  | .declares name =>
      if site.place.hasLocally name.text then some ⟨.redeclaration, name⟩ else none
  | .reads occurrence =>
      if site.initializing = some occurrence.name.text ∧ site.place.scopes ≠ [] then
        some ⟨.ownInitializer, occurrence.name⟩
      else
        none
  | .assigns _ => none
  | .this _ line =>
      match site.place.classRole with
      | none => some ⟨.thisOutsideClass, ⟨receiverName, line⟩⟩
      | some _ => none
  | .super _ line =>
      match site.place.classRole with
      | none => some ⟨.superOutsideClass, ⟨superclassName, line⟩⟩
      | some .base => some ⟨.superWithoutSuperclass, ⟨superclassName, line⟩⟩
      | some .subclass => none
  | .returns line =>
      match site.place.functionRole with
      | none => some ⟨.returnOutsideFunction, ⟨returnKeyword, line⟩⟩
      | some _ => none
  | .inherits name parent =>
      if parent.text = name.text then some ⟨.selfInheritance, parent⟩ else none

end Site

end Lox.Scoping

namespace Lox

open Scoping

/-! ## The sites of a tree -/

mutual

/-- The sites of an expression, in the order in which they are checked. -/
def Expr.sites (place : Place) (initializing : Option String) : Expr → List Site
  | .literal _ => []
  | .grouping inner => inner.sites place initializing
  | .unary _ _ operand => operand.sites place initializing
  | .binary _ _ left right =>
      left.sites place initializing ++ right.sites place initializing
  | .logical _ left right =>
      left.sites place initializing ++ right.sites place initializing
  | .reference occurrence => [⟨place, initializing, .reads occurrence⟩]
  | .assign target value =>
      value.sites place initializing ++ [⟨place, initializing, .assigns target⟩]
  | .call callee arguments _ =>
      callee.sites place initializing ++
        Expr.sitesOfAll place initializing arguments
  | .property object _ => object.sites place initializing
  | .setProperty object _ value =>
      value.sites place initializing ++ object.sites place initializing
  | .this id line => [⟨place, initializing, .this id line⟩]
  | .super id line _ => [⟨place, initializing, .super id line⟩]

/-- The sites of expressions in order. -/
def Expr.sitesOfAll
    (place : Place)
    (initializing : Option String) :
    List Expr → List Site
  | [] => []
  | first :: rest =>
      first.sites place initializing ++ Expr.sitesOfAll place initializing rest

end

/-- The sites of an expression that may be absent. -/
def Expr.sitesOfOptional
    (place : Place)
    (initializing : Option String) :
    Option Expr → List Site
  | none => []
  | some value => value.sites place initializing

/-- The sites of parameters; each is declared behind the ones before it. -/
def sitesOfParameters (place : Place) : List Identifier → List Site
  | [] => []
  | name :: rest =>
      ⟨place, none, .declares name⟩ ::
        sitesOfParameters (place.declaring [name.text]) rest

/-- The sites in front of the methods of a class, whose name is declared already. -/
def sitesOfSuperclass
    (place : Place)
    (name : Identifier) :
    Option Reference → List Site
  | none => []
  | some parent =>
      [⟨place, none, .inherits name parent.name⟩, ⟨place, none, .reads parent⟩]

mutual

/-- The names that a statement declares in the scope around it. -/
def Stmt.declared : Stmt → List String
  | .varDeclaration name _ => [name.text]
  | .functionDeclaration declaration => [declaration.name.text]
  | .classDeclaration name _ _ => [name.text]
  | .branch _ consequent none => consequent.declared
  | .branch _ consequent (some alternative) =>
      consequent.declared ++ alternative.declared
  | .loop _ body => body.declared
  | .expression _ => []
  | .print _ => []
  | .block _ => []
  | .returnValue _ _ => []

/-- The names that statements declare in the scope around them. -/
def Stmt.declaredByAll : List Stmt → List String
  | [] => []
  | first :: rest => first.declared ++ Stmt.declaredByAll rest

end

mutual

/-- The sites of a statement, in the order in which they are checked. -/
def Stmt.sites (place : Place) : Stmt → List Site
  | .expression value => value.sites place none
  | .print value => value.sites place none
  | .varDeclaration name initializer =>
      ⟨place, none, .declares name⟩ ::
        Expr.sitesOfOptional (place.declaring [name.text]) (some name.text) initializer
  | .block body => Stmt.sitesOfAll place.entering body
  | .branch condition consequent none =>
      condition.sites place none ++ consequent.sites place
  | .branch condition consequent (some alternative) =>
      condition.sites place none ++
        (consequent.sites place ++
          alternative.sites (place.declaring consequent.declared))
  | .loop condition body => condition.sites place none ++ body.sites place
  | .functionDeclaration declaration =>
      ⟨place, none, .declares declaration.name⟩ ::
        declaration.sites .function (place.declaring [declaration.name.text])
  | .returnValue line value =>
      ⟨place, none, .returns line⟩ :: Expr.sitesOfOptional place none value
  | .classDeclaration name superclass methods =>
      ⟨place, none, .declares name⟩ ::
        (sitesOfSuperclass (place.declaring [name.text]) name superclass ++
          FunctionDeclaration.sitesOfAll
            ((place.declaring [name.text]).ofMethods superclass) methods)

/-- The sites of statements in order, each behind what those before it declare. -/
def Stmt.sitesOfAll (place : Place) : List Stmt → List Site
  | [] => []
  | first :: rest =>
      first.sites place ++ Stmt.sitesOfAll (place.declaring first.declared) rest

/-- The sites of a function, whose parameters and body share one scope. -/
def FunctionDeclaration.sites
    (role : FunctionRole)
    (place : Place) :
    FunctionDeclaration → List Site
  | .intro _ parameters body =>
      let start := (place.asFunction role).entering
      sitesOfParameters start parameters ++
        Stmt.sitesOfAll (start.declaring (parameters.map (·.text))) body

/-- The sites of methods in order. -/
def FunctionDeclaration.sitesOfAll (place : Place) : List FunctionDeclaration → List Site
  | [] => []
  | first :: rest =>
      first.sites .method place ++ FunctionDeclaration.sitesOfAll place rest

end

/-- The sites of a program. -/
def programSites (program : List Stmt) : List Site :=
  Stmt.sitesOfAll .outermost program

end Lox
