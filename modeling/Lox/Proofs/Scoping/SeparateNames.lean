import Lox.Proofs.Scoping.Proper
import Mathlib.Data.List.Pairwise

namespace Lox

namespace Scoping

/-!
# Separate names

A program keeps its names apart if what a local declaration introduces is introduced by
no other declaration, and is not the name of an occurrence that resolution leaves
global.
-/

/-- A declaration of a program: the number of local scopes around it, and its name. -/
structure Introduced where
  scopes : Nat
  name : String
  deriving Repr, DecidableEq

/-- If one of two declarations is local, their names differ. -/
def Introduced.Apart (first second : Introduced) : Prop :=
  0 < first.scopes ∨ 0 < second.scopes → first.name ≠ second.name

instance : DecidableRel Introduced.Apart := fun first second =>
  inferInstanceAs (Decidable
    (0 < first.scopes ∨ 0 < second.scopes → first.name ≠ second.name))

instance : Std.Symm Introduced.Apart :=
  ⟨fun _ _ apart isLocal same => apart isLocal.symm same.symm⟩

/-- What a site introduces. -/
def Site.introduced? (site : Site) : Option Introduced :=
  match site.deed with
  | .declares name => some ⟨site.place.scopes.length, name.text⟩
  | _ => none

/-- All that a program introduces, in order. -/
def introducedBy (program : List Stmt) : List Introduced :=
  (programSites program).filterMap Site.introduced?

/--
No name of a local declaration is the name of another declaration, or of an occurrence
that resolution leaves global.
-/
structure SeparateNames (program : List Stmt) : Prop where
  distinct : (introducedBy program).Pairwise Introduced.Apart
  unshadowed :
    ∀ settlement ∈ (resolve program).settled, settlement.depth = none →
      ∀ declared ∈ introducedBy program, 0 < declared.scopes →
        declared.name ≠ settlement.name

instance (program : List Stmt) : Decidable (SeparateNames program) :=
  decidable_of_iff (_ ∧ _)
    ⟨fun both => ⟨both.1, both.2⟩, fun separate => ⟨separate.distinct, separate.unshadowed⟩⟩

/-- An assignment does not stand in the initializer of the variable that it assigns. -/
def Site.OutsideInitializer (site : Site) : Prop :=
  ∀ target, site.deed = .assigns target → site.initializing ≠ some target.name.text

variable {program : List Stmt}

theorem mem_introducedBy
    {site : Site}
    (inSites : site ∈ programSites program)
    {name : Identifier}
    (declares : site.deed = .declares name) :
    ⟨site.place.scopes.length, name.text⟩ ∈ introducedBy program :=
  List.mem_filterMap.mpr ⟨site, inSites, by simp [Site.introduced?, declares]⟩

/-- A name that is introduced locally is introduced at one depth. -/
theorem SeparateNames.scopes_unique
    (separate : SeparateNames program)
    {first second : Nat}
    {name : String}
    (inProgram : ⟨first, name⟩ ∈ introducedBy program)
    (alsoInProgram : ⟨second, name⟩ ∈ introducedBy program)
    (isLocal : 0 < first) :
    first = second := by
  by_contra different
  have notSame : (⟨first, name⟩ : Introduced) ≠ ⟨second, name⟩ := by simpa using different
  exact separate.distinct.forall inProgram alsoInProgram notSame (.inl isLocal) rfl

/-! ## What is introduced is legible -/

/-- The sites in a row declare legible names. -/
def LegibleSites (sites : List Site) : Prop :=
  ∀ site ∈ sites, ∀ name, site.deed = .declares name → name.Legible

namespace LegibleSites

variable {place : Place} {initializing : Option String} {name : Identifier}

theorem append
    {earlier later : List Site}
    (first : LegibleSites earlier)
    (second : LegibleSites later) :
    LegibleSites (earlier ++ later) :=
  List.forall_mem_append.mpr ⟨first, second⟩

theorem declares
    {rest : List Site}
    (legible : name.Legible)
    (behind : LegibleSites rest) :
    LegibleSites (⟨place, initializing, .declares name⟩ :: rest) := by
  refine List.forall_mem_cons.mpr ⟨fun other same => ?_, behind⟩
  obtain rfl := Deed.declares.inj same
  exact legible

theorem of_inExpression
    {sites : List Site}
    (inside : ∀ site ∈ sites, site.InExpression place initializing) :
    LegibleSites sites := by
  intro site member name declares
  have occurs := (inside site member).occurs
  simp [Site.occurrence?, declares] at occurs

theorem expression (value : Expr) : LegibleSites (value.sites place initializing) :=
  of_inExpression (sites_inExpression place initializing value)

theorem optional (value : Option Expr) :
    LegibleSites (Expr.sitesOfOptional place initializing value) :=
  of_inExpression (sitesOfOptional_inExpression place initializing value)

theorem superclass (parent : Option Reference) :
    LegibleSites (sitesOfSuperclass place name parent) := by
  cases parent with
  | none => simp [LegibleSites, sitesOfSuperclass]
  | some parent => simp [LegibleSites, sitesOfSuperclass]

theorem parameters
    (names : List Identifier)
    (legible : ∀ name ∈ names, name.Legible) :
    LegibleSites (sitesOfParameters place names) := by
  induction names generalizing place with
  | nil => simp [LegibleSites, sitesOfParameters]
  | cons first rest inductionHypothesis =>
      obtain ⟨here, behind⟩ := List.forall_mem_cons.mp legible
      exact .declares here (inductionHypothesis behind)

end LegibleSites

mutual

/-- A proper statement declares legible names, at any depth. -/
theorem legibleSites_statement :
    ∀ (statement : Stmt) {place : Place},
      statement.Proper → LegibleSites (statement.sites place)
  | .expression value, _, _ => .expression value
  | .print value, _, _ => .expression value
  | .varDeclaration _ initializer, _, proper => .declares proper.1 (.optional initializer)
  | .block body, _, proper => legibleSites_statements body proper
  | .branch condition consequent none, _, proper =>
      .append (.expression condition) (legibleSites_statement consequent proper.2.1)
  | .branch condition consequent (some alternative), _, proper =>
      .append (.expression condition)
        (.append (legibleSites_statement consequent proper.2.1.1)
          (legibleSites_statement alternative proper.2.2.1))
  | .loop condition body, _, proper =>
      .append (.expression condition) (legibleSites_statement body proper.2.1)
  | .functionDeclaration declaration, _, proper =>
      .declares proper.1 (legibleSites_function declaration .function proper.2)
  | .returnValue _ value, _, _ => by
      refine List.forall_mem_cons.mpr ⟨?_, LegibleSites.optional value⟩
      simp
  | .classDeclaration _ superclass methods, _, proper =>
      .declares proper.1
        (.append (.superclass superclass) (legibleSites_methods methods proper.2))

theorem legibleSites_statements :
    ∀ (body : List Stmt) {place : Place},
      Stmt.AllProper body → LegibleSites (Stmt.sitesOfAll place body)
  | [], _, _ => by simp [LegibleSites, Stmt.sitesOfAll]
  | first :: rest, _, proper =>
      .append (legibleSites_statement first proper.1) (legibleSites_statements rest proper.2)

theorem legibleSites_function :
    ∀ (declaration : FunctionDeclaration) (role : FunctionRole) {place : Place},
      declaration.Proper → LegibleSites (declaration.sites role place)
  | .intro _ parameters body, _, _, proper =>
      .append (.parameters parameters proper.1) (legibleSites_statements body proper.2)

theorem legibleSites_methods :
    ∀ (methods : List FunctionDeclaration) {place : Place},
      FunctionDeclaration.AllProper methods →
      LegibleSites (FunctionDeclaration.sitesOfAll place methods)
  | [], _, _ => by simp [LegibleSites, FunctionDeclaration.sitesOfAll]
  | first :: rest, _, proper =>
      .append (legibleSites_function first .method proper.1)
        (legibleSites_methods rest proper.2)

end

/-- What a proper program introduces is legible. -/
theorem legible_of_introduced
    (proper : Stmt.AllProper program)
    {introduced : Introduced}
    (inProgram : introduced ∈ introducedBy program) :
    introduced.name ≠ receiverName ∧ introduced.name ≠ superclassName := by
  obtain ⟨⟨place, initializing, deed⟩, inSites, known⟩ := List.mem_filterMap.mp inProgram
  cases deed with
  | declares name =>
      obtain rfl := Option.some.inj known
      exact legibleSites_statements program proper _ inSites name rfl
  | _ => simp [Site.introduced?] at known

end Scoping

end Lox
