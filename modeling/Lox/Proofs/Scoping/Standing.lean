import Lox.Proofs.Scoping.Exact
import Lox.Proofs.Syntax.Parts

namespace Lox.Scoping

/-!
# Where statements stand

Every statement of a program stands at a place of its own: in the scopes of the blocks,
functions and classes around it, behind the declarations before it.  The rules that apply
inside of the statement are among those of the program, at the same places.
-/

/-! ## Steps inwards -/

/-- A statement runs another one as a part of itself, and not in a call. -/
inductive RunsPart : Place → Stmt → Place → Stmt → Prop where
  | member {place before single after} :
      RunsPart place (.block (before ++ single :: after))
        (place.entering.declaring (Stmt.declaredByAll before)) single
  | consequent {place condition consequent alternative} :
      RunsPart place (.branch condition consequent alternative) place consequent
  | alternative {place condition consequent alternative} :
      RunsPart place (.branch condition consequent (some alternative))
        (place.declaring consequent.declared) alternative
  | round {place condition body} : RunsPart place (.loop condition body) place body

/-- A statement declares a function, or a class with it as a method, at the place of that. -/
inductive Makes : Place → Stmt → FunctionRole → Place → FunctionDeclaration → Prop where
  | function {place declaration} :
      Makes place (.functionDeclaration declaration) .function
        (place.declaring [declaration.name.text]) declaration
  | method {place name superclass methods declaration} :
      declaration ∈ methods →
      Makes place (.classDeclaration name superclass methods) .method
        ((place.declaring [name.text]).ofMethods superclass) declaration

/-- The place of the first statement in the body of a function. -/
def Place.ofBody
    (place : Place)
    (role : FunctionRole)
    (declaration : FunctionDeclaration) :
    Place :=
  (place.asFunction role).entering.declaring (declaration.parameters.map (·.text))

/-- A statement stands at a place of a program. -/
inductive StandsAt (program : List Stmt) : Place → Stmt → Prop where
  | top {before single after} :
      program = before ++ single :: after →
      StandsAt program (Place.outermost.declaring (Stmt.declaredByAll before)) single
  | inside {place whole inner single} :
      StandsAt program place whole →
      RunsPart place whole inner single →
      StandsAt program inner single
  | called {place whole role around declaration before single after} :
      StandsAt program place whole →
      Makes place whole role around declaration →
      declaration.body = before ++ single :: after →
      StandsAt program
        ((around.ofBody role declaration).declaring (Stmt.declaredByAll before)) single

/-! ## Sites -/

/-- Statements in a row stand behind what those before them declare. -/
theorem sitesOfAll_append (place : Place) (before after : List Stmt) :
    Stmt.sitesOfAll place (before ++ after) =
      Stmt.sitesOfAll place before ++
        Stmt.sitesOfAll (place.declaring (Stmt.declaredByAll before)) after := by
  induction before generalizing place with
  | nil =>
      rw [Stmt.declaredByAll, Place.declaring_nil]
      rfl
  | cons first rest inductionHypothesis =>
      rw [List.cons_append, Stmt.sitesOfAll, Stmt.sitesOfAll, inductionHypothesis,
        Place.declaring_append, List.append_assoc, Stmt.declaredByAll]

theorem sublist_sitesOfAll (place : Place) (before after : List Stmt) (single : Stmt) :
    (single.sites (place.declaring (Stmt.declaredByAll before))).Sublist
      (Stmt.sitesOfAll place (before ++ single :: after)) := by
  rw [sitesOfAll_append]
  exact (List.sublist_append_left _ _).trans (List.sublist_append_right _ _)

theorem sublist_sitesOfMethods
    (place : Place)
    {methods : List FunctionDeclaration}
    {declaration : FunctionDeclaration}
    (isMethod : declaration ∈ methods) :
    (declaration.sites .method place).Sublist
      (FunctionDeclaration.sitesOfAll place methods) := by
  induction isMethod with
  | head => exact List.sublist_append_left _ _
  | tail _ _ inductionHypothesis =>
      exact inductionHypothesis.trans (List.sublist_append_right _ _)

theorem RunsPart.sites_sublist
    {place inner : Place}
    {whole single : Stmt}
    (runs : RunsPart place whole inner single) :
    (single.sites inner).Sublist (whole.sites place) := by
  cases runs with
  | member => exact sublist_sitesOfAll _ _ _ _
  | @consequent _ _ alternative =>
      cases alternative with
      | none => exact List.sublist_append_right _ _
      | some other =>
          exact (List.sublist_append_left _ _).trans (List.sublist_append_right _ _)
  | alternative => exact (List.sublist_append_right _ _).trans (List.sublist_append_right _ _)
  | round => exact List.sublist_append_right _ _

theorem Makes.sites_sublist
    {place around : Place}
    {whole : Stmt}
    {role : FunctionRole}
    {declaration : FunctionDeclaration}
    (makes : Makes place whole role around declaration) :
    (declaration.sites role around).Sublist (whole.sites place) := by
  cases makes with
  | function => exact List.sublist_cons_self _ _
  | method isMethod =>
      refine (sublist_sitesOfMethods _ isMethod).trans (.trans ?_ (List.sublist_cons_self _ _))
      exact List.sublist_append_right _ _

theorem sublist_sites_of_body
    (around : Place)
    (role : FunctionRole)
    (declaration : FunctionDeclaration) :
    (Stmt.sitesOfAll (around.ofBody role declaration) declaration.body).Sublist
      (declaration.sites role around) := by
  cases declaration
  exact List.sublist_append_right _ _

/-- The sites of a statement in a program are some of those of the program, in order. -/
theorem StandsAt.sites_sublist
    {program : List Stmt}
    {place : Place}
    {single : Stmt}
    (stands : StandsAt program place single) :
    (single.sites place).Sublist (programSites program) := by
  induction stands with
  | top shape =>
      rw [programSites, shape]
      exact sublist_sitesOfAll _ _ _ _
  | inside _ runs inductionHypothesis => exact runs.sites_sublist.trans inductionHypothesis
  | @called _ _ role around declaration _ _ _ _ makes shape inductionHypothesis =>
      have inBody := sublist_sites_of_body around role declaration
      rw [shape] at inBody
      exact ((sublist_sitesOfAll _ _ _ _).trans inBody).trans
        (makes.sites_sublist.trans inductionHypothesis)

/-- No identity stands twice in a statement if none does in the program. -/
theorem StandsAt.nodup_ids
    {program : List Stmt}
    {place : Place}
    {single : Stmt}
    (stands : StandsAt program place single)
    (distinct : (idsOf (Stmt.occurrencesOfAll program)).Nodup) :
    single.ids.Nodup := by
  refine List.Sublist.nodup ?_ distinct
  rw [Stmt.ids, idsOf, idsOf, ← occurrencesAt_statement single place,
    ← occurrencesAt_statements program .outermost]
  exact (stands.sites_sublist.filterMap _).map _

/-! ## Scopes around places -/

namespace Place

/-- A scope with some names is a number of scopes up from a place, and there are others
further out. -/
def Within
    (place : Place)
    (names : List String)
    (outer : List (List String))
    (depth : Nat) :
    Prop :=
  ∃ nearer known, place.scopes = nearer ++ known :: outer ∧ nearer.length = depth ∧ names ⊆ known

namespace Within

variable {place : Place} {names : List String} {outer : List (List String)} {depth : Nat}

theorem declaring (within : place.Within names outer depth) (others : List String) :
    (place.declaring others).Within names outer depth := by
  obtain ⟨nearer, known, shape, length, kept⟩ := within
  unfold Place.declaring
  rw [shape]
  cases nearer with
  | nil => exact ⟨[], _, rfl, length, fun _ member => List.mem_append_left _ (kept member)⟩
  | cons innermost rest => exact ⟨(innermost ++ others) :: rest, known, rfl, length, kept⟩

theorem entering (within : place.Within names outer depth) :
    place.entering.Within names outer (depth + 1) := by
  obtain ⟨nearer, known, shape, rfl, kept⟩ := within
  exact ⟨[] :: nearer, known, congrArg ([] :: ·) shape, rfl, kept⟩

/-- The body of a function has the scope of its parameters around it. -/
theorem ofBody
    (within : place.Within names outer depth)
    (role : FunctionRole)
    (declaration : FunctionDeclaration) :
    (place.ofBody role declaration).Within names outer (depth + 1) :=
  have asFunction : (place.asFunction role).Within names outer depth := within
  asFunction.entering.declaring _

/-- A method has the scope of `this` around it, and in a subclass that of `super` as well. -/
theorem ofMethods (within : place.Within names outer depth) (superclass : Option Reference) :
    (place.ofMethods superclass).Within names outer
      ((depth + if superclass.isSome then 1 else 0) + 1) := by
  cases superclass with
  | none =>
      have asClass : (place.asClass .base).Within names outer depth := within
      exact asClass.entering.declaring _
  | some parent =>
      have asClass : (place.asClass .subclass).Within names outer depth := within
      exact (asClass.entering.declaring _).entering.declaring _

/-- A name of the scope is settled there, unless a nearer scope has it as well. -/
theorem depth?_eq
    (within : place.Within names outer depth)
    {name : String}
    (isName : name ∈ names)
    (apart : ∀ nearer ∈ place.scopes.take depth, name ∉ nearer) :
    place.depth? name = some depth := by
  obtain ⟨nearer, known, shape, rfl, kept⟩ := within
  unfold Place.depth?
  rw [shape, List.take_left] at apart
  rw [shape, List.findIdx?_append, List.findIdx?_eq_none_iff.mpr (by simpa using apart)]
  simp [List.findIdx?_cons, kept isName]

end Within

end Place

/-! ## Every statement stands somewhere -/

/-- A node stands in a program; only of statements and functions is the place of interest. -/
def Stands (program : List Stmt) : Node → Prop
  | .expression _ => True
  | .statement single => ∃ place, StandsAt program place single
  | .function declaration =>
      ∃ place whole role around,
        StandsAt program place whole ∧ Makes place whole role around declaration

theorem Stands.part
    {program : List Stmt}
    {part whole : Node}
    (stands : Stands program whole)
    (isPart : Node.Part part whole) :
    Stands program part := by
  cases isPart with
  | member inBody =>
      obtain ⟨place, stands⟩ := stands
      obtain ⟨before, after, rfl⟩ := List.append_of_mem inBody
      exact ⟨_, stands.inside .member⟩
  | consequent =>
      obtain ⟨place, stands⟩ := stands
      exact ⟨_, stands.inside .consequent⟩
  | alternative =>
      obtain ⟨place, stands⟩ := stands
      exact ⟨_, stands.inside .alternative⟩
  | round =>
      obtain ⟨place, stands⟩ := stands
      exact ⟨_, stands.inside .round⟩
  | declared =>
      obtain ⟨place, stands⟩ := stands
      exact ⟨_, _, _, _, stands, .function⟩
  | method isMethod =>
      obtain ⟨place, stands⟩ := stands
      exact ⟨_, _, _, _, stands, .method isMethod⟩
  | run inBody =>
      obtain ⟨place, whole, role, around, stands, makes⟩ := stands
      obtain ⟨before, after, shape⟩ := List.append_of_mem inBody
      exact ⟨_, stands.called makes shape⟩
  | _ => trivial

/-- Every statement that occurs in a program stands in it. -/
theorem exists_standsAt
    {program : List Stmt}
    {single : Stmt}
    (occurs : (Node.statement single).OccursIn (program.map .statement)) :
    ∃ place, StandsAt program place single := by
  obtain ⟨tree, member, occurs⟩ := occurs
  obtain ⟨first, inProgram, rfl⟩ := List.mem_map.mp member
  obtain ⟨before, after, shape⟩ := List.append_of_mem inProgram
  have inwards : ∀ {node tree : Node}, node.Occurs tree → Stands program tree →
      Stands program node := by
    intro node tree occurs stands
    induction occurs with
    | here => exact stands
    | inside _ isPart inductionHypothesis => exact inductionHypothesis (stands.part isPart)
  exact inwards occurs ⟨_, .top shape⟩

end Lox.Scoping
