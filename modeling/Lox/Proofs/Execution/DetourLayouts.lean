import Lox.Proofs.Execution.Coherence
import Lox.Proofs.Execution.Detours
import Lox.Proofs.Scoping.Renumbering

namespace Lox.Execution

open Scoping

/-!
# Where detours come from

A point of a program lies in one scope more if an empty scope is put between those around
it.  What resolution settles there is the same but for this scope, so that code that is
resolved at the one place does the same, without the detour, when it is resolved at the
other one.  A class keeps the scopes of `this` and `super` together: nothing is ever put
between these.
-/

/-! ## Places -/

/-- Scopes around a point, and the same ones without an empty one of them. -/
inductive ScopesShortened : Detour → List (List String) → List (List String) → Prop where
  | same {scopes} : ScopesShortened none scopes scopes
  | here {scopes} : ScopesShortened (some 0) ([] :: scopes) scopes
  | further {skipped : Nat} {names scopes scopes'} :
      ScopesShortened (some skipped) scopes scopes' →
      ScopesShortened (some (skipped + 1)) (names :: scopes) (names :: scopes')

/-- Places with one of them inside of an empty scope more. -/
def PlaceShortened (detour : Detour) (left right : Place) : Prop :=
  ScopesShortened detour left.scopes right.scopes

namespace ScopesShortened

variable {detour : Detour} {scopes scopes' : List (List String)}

/-- A scope inside is the same with and without the detour. -/
theorem inside (shortened : ScopesShortened detour scopes scopes') (names : List String) :
    ScopesShortened detour.inside (names :: scopes) (names :: scopes') := by
  cases detour with
  | none =>
      cases shortened
      exact .same
  | some skipped => exact .further shortened

/-- A name is found without the empty scope, in which it is never found. -/
theorem findIdx? (shortened : ScopesShortened detour scopes scopes') (name : String) :
    scopes'.findIdx? (name ∈ ·) = (scopes.findIdx? (name ∈ ·)).map detour.shorten ∧
      ∀ depth, scopes.findIdx? (name ∈ ·) = some depth → detour ≠ some depth := by
  induction shortened with
  | same => exact ⟨Option.map_id'.symm, by simp⟩
  | @here scopes =>
      have outside : ∀ depth : Nat, Detour.shorten (some 0) (depth + 1) = depth :=
        Detour.shorten_here
      rw [List.findIdx?_cons]
      cases scopes.findIdx? (name ∈ ·) <;> simp [outside]
  | @further skipped names scopes scopes' _ inductionHypothesis =>
      obtain ⟨found, avoids⟩ := inductionHypothesis
      have start : Detour.shorten (some (skipped + 1)) 0 = 0 := Detour.shorten_zero _
      have inside : ∀ depth : Nat, Detour.shorten (some (skipped + 1)) (depth + 1) =
          Detour.shorten (some skipped) depth + 1 :=
        Detour.shorten_inside (some skipped)
      rw [List.findIdx?_cons, List.findIdx?_cons]
      by_cases member : name ∈ names
      · simp [member, start]
      · rw [found]
        cases known : scopes.findIdx? (name ∈ ·) with
        | none => simp [member]
        | some depth =>
            have apart := avoids depth known
            simp only [ne_eq, Option.some.injEq] at apart
            simp [member, inside, apart]

end ScopesShortened

namespace PlaceShortened

variable {detour : Detour} {left right : Place}

theorem entering (shortened : PlaceShortened detour left right) :
    PlaceShortened detour.inside left.entering right.entering :=
  ScopesShortened.inside shortened []

theorem asFunction (shortened : PlaceShortened detour left right) (role : FunctionRole) :
    PlaceShortened detour (left.asFunction role) (right.asFunction role) :=
  shortened

theorem asClass (shortened : PlaceShortened detour left right) (role : ClassRole) :
    PlaceShortened detour (left.asClass role) (right.asClass role) :=
  shortened

/-- Declarations stand in the innermost scope; in the empty one there are none. -/
theorem declaring
    (shortened : PlaceShortened detour left right)
    {names : List String}
    (nothing : detour = some 0 → names = []) :
    PlaceShortened detour (left.declaring names) (right.declaring names) := by
  obtain ⟨scopes, _, _⟩ := left
  obtain ⟨scopes', _, _⟩ := right
  unfold PlaceShortened at *
  cases shortened with
  | same =>
      cases scopes with
      | nil => exact .same
      | cons innermost outer => exact .same
  | here =>
      rw [nothing rfl, Place.declaring_nil, Place.declaring_nil]
      exact .here
  | further further => exact .further further

/-- Anything may be declared in a scope that is not the empty one. -/
theorem declaringAny
    (shortened : PlaceShortened detour left right)
    (apart : detour ≠ some 0)
    (names : List String) :
    PlaceShortened detour (left.declaring names) (right.declaring names) :=
  shortened.declaring fun here => absurd here apart

/-- A scope with one name inside is the same with and without the detour. -/
theorem holding (shortened : PlaceShortened detour left right) (name : String) :
    PlaceShortened detour.inside (left.holding name) (right.holding name) :=
  shortened.entering.declaringAny detour.inside_ne_here [name]

/-- A name is found at a depth that is shortened by the detour. -/
theorem depth? (shortened : PlaceShortened detour left right) (name : String) :
    right.depth? name = (left.depth? name).map detour.shorten :=
  (ScopesShortened.findIdx? shortened name).1

/-- No name has the depth of the empty scope. -/
theorem avoids
    (shortened : PlaceShortened detour left right)
    {name : String}
    {depth : Nat}
    (known : left.depth? name = some depth) :
    detour ≠ some depth :=
  (ScopesShortened.findIdx? shortened name).2 depth known

end PlaceShortened

/-! ## Occurrences -/

/-- The distances of some sites are recorded, each under another identity. -/
def RecordedAs (number : NodeId → NodeId) (distances : Distances) (sites : List Site) : Prop :=
  ∀ site ∈ sites, ∀ id name, site.occurrence? = some (id, name) →
    distances.get? (number id) = site.place.depth? name

section

variable {number : NodeId → NodeId} {long short : Distances} {resolved : Settlement → Prop}
  {detour : Detour} {left right : Place} {initializing : Option String}

/-- An occurrence that is recorded at both places has both distances. -/
theorem distance_of_settled
    {deed deed' : Deed}
    {id : NodeId}
    {name : String}
    (shortened : PlaceShortened detour left right)
    (settled : AllSettled long resolved [⟨left, initializing, deed⟩])
    (recorded : RecordedAs number short [⟨right, initializing, deed'⟩])
    (occurs : Site.occurrence? ⟨left, initializing, deed⟩ = some (id, name))
    (occurs' : Site.occurrence? ⟨right, initializing, deed'⟩ = some (id, name)) :
    long.get? id = left.depth? name ∧
      short.get? (number id) = (long.get? id).map detour.shorten := by
  have known : long.get? id = left.depth? name :=
    ((settled _ (List.mem_singleton.mpr rfl)).recorded id name occurs).2
  refine ⟨known, ?_⟩
  rw [recorded _ (List.mem_singleton.mpr rfl) id name occurs', known]
  exact shortened.depth? name

/-- An occurrence that is settled at corresponding sites gets corresponding distances. -/
theorem reference_shortened
    {occurrence : Reference}
    {deed : Deed}
    (shortened : PlaceShortened detour left right)
    (settled : AllSettled long resolved [⟨left, initializing, deed⟩])
    (recorded : RecordedAs number short [⟨right, initializing, deed⟩])
    (occurs : ∀ place, Site.occurrence? ⟨place, initializing, deed⟩ =
      some (occurrence.id, occurrence.name.text)) :
    ReferenceShortened long short detour occurrence (occurrence.renumbered number) := by
  obtain ⟨known, distance⟩ :=
    distance_of_settled shortened settled recorded (occurs left) (occurs right)
  exact ⟨rfl, distance, fun depth found => shortened.avoids (known ▸ found)⟩

/-- The scope of `this` is right inside that of `super`, so it is not the empty one. -/
theorem super_shortened
    {id : NodeId}
    {line : Nat}
    (shortened : PlaceShortened detour left right)
    (settled : AllSettled long resolved [⟨left, initializing, .super id line⟩])
    (recorded : RecordedAs number short [⟨right, initializing, .super id line⟩]) :
    SuperShortened long short detour id (number id) := by
  obtain ⟨known, distance⟩ := distance_of_settled shortened settled recorded rfl rfl
  refine ⟨distance, fun depth found => shortened.avoids (known ▸ found), fun depth found => ?_⟩
  have site := settled _ (List.mem_singleton.mpr rfl)
  have inside := subclass_of_faultless site.faultless
  obtain ⟨nearer, _, superclass, receiver, -⟩ := site.sound.exists_receiver inside
  obtain rfl : nearer = depth := by
    rw [known, superclass] at found
    simpa using found
  exact shortened.avoids receiver

/-! ## Expressions -/

/-- Sites in a row are settled if all of them are. -/
theorem AllSettled.append {earlier later : List Site} :
    AllSettled long resolved (earlier ++ later) ↔
      AllSettled long resolved earlier ∧ AllSettled long resolved later :=
  List.forall_mem_append

/-- Sites in a row are recorded if all of them are. -/
theorem RecordedAs.append {earlier later : List Site} :
    RecordedAs number short (earlier ++ later) ↔
      RecordedAs number short earlier ∧ RecordedAs number short later :=
  List.forall_mem_append

mutual

/-- An expression that is settled at both places does the same without the detour. -/
theorem ExprShortened.of_settled :
    ∀ value : Expr,
      PlaceShortened detour left right →
      AllSettled long resolved (value.sites left initializing) →
      RecordedAs number short (value.sites right initializing) →
      ExprShortened long short detour value (value.renumbered number)
  | .literal _, _, _, _ => .literal
  | .grouping inner, shortened, settled, recorded =>
      .grouping (.of_settled inner shortened settled recorded)
  | .unary _ _ operand, shortened, settled, recorded =>
      .unary (.of_settled operand shortened settled recorded)
  | .binary _ _ first second, shortened, settled, recorded => by
      obtain ⟨settledFirst, settledSecond⟩ := AllSettled.append.mp settled
      obtain ⟨recordedFirst, recordedSecond⟩ := RecordedAs.append.mp recorded
      exact .binary (.of_settled first shortened settledFirst recordedFirst)
        (.of_settled second shortened settledSecond recordedSecond)
  | .logical _ first second, shortened, settled, recorded => by
      obtain ⟨settledFirst, settledSecond⟩ := AllSettled.append.mp settled
      obtain ⟨recordedFirst, recordedSecond⟩ := RecordedAs.append.mp recorded
      exact .logical (.of_settled first shortened settledFirst recordedFirst)
        (.of_settled second shortened settledSecond recordedSecond)
  | .reference _, shortened, settled, recorded =>
      .reference (reference_shortened shortened settled recorded fun _ => rfl)
  | .assign _ value, shortened, settled, recorded => by
      obtain ⟨settledValue, settledTarget⟩ := AllSettled.append.mp settled
      obtain ⟨recordedValue, recordedTarget⟩ := RecordedAs.append.mp recorded
      exact .assign (reference_shortened shortened settledTarget recordedTarget fun _ => rfl)
        (.of_settled value shortened settledValue recordedValue)
  | .call callee arguments _, shortened, settled, recorded => by
      obtain ⟨settledCallee, settledArguments⟩ := AllSettled.append.mp settled
      obtain ⟨recordedCallee, recordedArguments⟩ := RecordedAs.append.mp recorded
      exact .call (.of_settled callee shortened settledCallee recordedCallee)
        (ExprShortened.allOfSettled arguments shortened settledArguments recordedArguments)
  | .property object _, shortened, settled, recorded =>
      .property (.of_settled object shortened settled recorded)
  | .setProperty object _ value, shortened, settled, recorded => by
      obtain ⟨settledValue, settledObject⟩ := AllSettled.append.mp settled
      obtain ⟨recordedValue, recordedObject⟩ := RecordedAs.append.mp recorded
      exact .setProperty (.of_settled object shortened settledObject recordedObject)
        (.of_settled value shortened settledValue recordedValue)
  | .this id line, shortened, settled, recorded => by
      have receiver : ReferenceShortened long short detour ⟨id, ⟨receiverName, line⟩⟩
          (Reference.renumbered number ⟨id, ⟨receiverName, line⟩⟩) :=
        reference_shortened shortened settled recorded fun _ => rfl
      exact .this receiver
  | .super _ _ _, shortened, settled, recorded =>
      .super (super_shortened shortened settled recorded)

/-- Expressions that are settled at corresponding places correspond. -/
theorem ExprShortened.allOfSettled :
    ∀ values : List Expr,
      PlaceShortened detour left right →
      AllSettled long resolved (Expr.sitesOfAll left initializing values) →
      RecordedAs number short (Expr.sitesOfAll right initializing values) →
      List.Forall₂ (ExprShortened long short detour) values (Expr.allRenumbered number values)
  | [], _, _, _ => .nil
  | first :: rest, shortened, settled, recorded => by
      obtain ⟨settledFirst, settledRest⟩ := AllSettled.append.mp settled
      obtain ⟨recordedFirst, recordedRest⟩ := RecordedAs.append.mp recorded
      exact .cons (.of_settled first shortened settledFirst recordedFirst)
        (ExprShortened.allOfSettled rest shortened settledRest recordedRest)

end

/-- An expression that may be left out corresponds to its renumbered one. -/
theorem ExprShortened.optionalOfSettled
    (value : Option Expr)
    (shortened : PlaceShortened detour left right)
    (settled : AllSettled long resolved (Expr.sitesOfOptional left initializing value))
    (recorded : RecordedAs number short (Expr.sitesOfOptional right initializing value)) :
    Option.Rel (ExprShortened long short detour) value (value.map (·.renumbered number)) := by
  cases value with
  | none => exact .none
  | some value => exact .some (.of_settled value shortened settled recorded)

/-! ## Statements -/

theorem AllSettled.cons {first : Site} {rest : List Site} :
    AllSettled long resolved (first :: rest) ↔
      AllSettled long resolved [first] ∧ AllSettled long resolved rest := by
  rw [← List.singleton_append, AllSettled.append]

theorem RecordedAs.cons {first : Site} {rest : List Site} :
    RecordedAs number short (first :: rest) ↔
      RecordedAs number short [first] ∧ RecordedAs number short rest := by
  rw [← List.singleton_append, RecordedAs.append]

/-- Where something is declared there is no detour through the current scope. -/
theorem apart_of_declared
    {names : List String}
    (nothing : detour = some 0 → names = [])
    {name : String}
    (declared : name ∈ names) :
    detour ≠ some 0 := by
  intro here
  rw [nothing here] at declared
  cases declared

mutual

/--
A statement that is settled at both places does the same without the detour.  In the empty
scope there must be no declaration.
-/
theorem StmtShortened.of_settled :
    ∀ (single : Stmt) {detour : Detour} {left right : Place},
      PlaceShortened detour left right →
      (detour = some 0 → single.declared = []) →
      AllSettled long resolved (single.sites left) →
      RecordedAs number short (single.sites right) →
      StmtShortened long short detour single (single.renumbered number)
  | .expression value, _, _, _, shortened, _, settled, recorded =>
      .expression (.of_settled value shortened settled recorded)
  | .print value, _, _, _, shortened, _, settled, recorded =>
      .print (.of_settled value shortened settled recorded)
  | .varDeclaration name initializer, _, _, _, shortened, nothing, settled, recorded => by
      have apart := apart_of_declared nothing (List.mem_singleton.mpr rfl)
      obtain ⟨-, settled⟩ := AllSettled.cons.mp settled
      obtain ⟨-, recorded⟩ := RecordedAs.cons.mp recorded
      have inside := shortened.declaringAny apart [name.text]
      exact .varDeclaration apart
        (ExprShortened.optionalOfSettled initializer inside settled recorded)
  | .block body, detour, _, _, shortened, _, settled, recorded =>
      .block (BodyShortened.of_settled body shortened.entering detour.inside_ne_here settled
        recorded)
  | .branch condition consequent none, _, _, _, shortened, nothing, settled, recorded => by
      obtain ⟨settledCondition, settledConsequent⟩ := AllSettled.append.mp settled
      obtain ⟨recordedCondition, recordedConsequent⟩ := RecordedAs.append.mp recorded
      exact .conditional (.of_settled condition shortened settledCondition recordedCondition)
        (.of_settled consequent shortened nothing settledConsequent recordedConsequent)
  | .branch condition consequent (some alternative), detour, _, _, shortened, nothing, settled,
      recorded => by
      obtain ⟨settledCondition, settledBoth⟩ := AllSettled.append.mp settled
      obtain ⟨recordedCondition, recordedBoth⟩ := RecordedAs.append.mp recorded
      obtain ⟨settledConsequent, settledAlternative⟩ := AllSettled.append.mp settledBoth
      obtain ⟨recordedConsequent, recordedAlternative⟩ := RecordedAs.append.mp recordedBoth
      have nowhere : detour = some 0 → consequent.declared = [] ∧ alternative.declared = [] :=
        fun here => List.append_eq_nil_iff.mp (nothing here)
      have behind := shortened.declaring fun here => (nowhere here).1
      exact .alternative (.of_settled condition shortened settledCondition recordedCondition)
        (.of_settled consequent shortened (fun here => (nowhere here).1) settledConsequent
          recordedConsequent)
        (.of_settled alternative behind (fun here => (nowhere here).2) settledAlternative
          recordedAlternative)
  | .loop condition body, _, _, _, shortened, nothing, settled, recorded => by
      obtain ⟨settledCondition, settledBody⟩ := AllSettled.append.mp settled
      obtain ⟨recordedCondition, recordedBody⟩ := RecordedAs.append.mp recorded
      exact .loop (.of_settled condition shortened settledCondition recordedCondition)
        (.of_settled body shortened nothing settledBody recordedBody)
  | .functionDeclaration declaration, _, _, _, shortened, nothing, settled, recorded => by
      have apart := apart_of_declared nothing (List.mem_singleton.mpr rfl)
      obtain ⟨-, settled⟩ := AllSettled.cons.mp settled
      obtain ⟨-, recorded⟩ := RecordedAs.cons.mp recorded
      have inside := shortened.declaringAny apart [declaration.name.text]
      exact .functionDeclaration apart (.of_settled declaration inside settled recorded)
  | .returnValue _ value, _, _, _, shortened, _, settled, recorded => by
      obtain ⟨-, settled⟩ := AllSettled.cons.mp settled
      obtain ⟨-, recorded⟩ := RecordedAs.cons.mp recorded
      exact .returnValue (ExprShortened.optionalOfSettled value shortened settled recorded)
  | .classDeclaration name none methods, _, _, _, shortened, nothing, settled, recorded => by
      have apart := apart_of_declared nothing (List.mem_singleton.mpr rfl)
      obtain ⟨-, settled⟩ := AllSettled.cons.mp settled
      obtain ⟨-, recorded⟩ := RecordedAs.cons.mp recorded
      have inside := shortened.declaringAny apart [name.text]
      exact .baseClass apart
        (MethodsShortened.of_settled methods ((inside.asClass .base).holding receiverName)
          settled recorded)
  | .classDeclaration name (some parent) methods, _, _, _, shortened, nothing, settled,
      recorded => by
      have apart := apart_of_declared nothing (List.mem_singleton.mpr rfl)
      obtain ⟨-, settled⟩ := AllSettled.cons.mp settled
      obtain ⟨-, recorded⟩ := RecordedAs.cons.mp recorded
      have inside := shortened.declaringAny apart [name.text]
      obtain ⟨settledParent, settledMethods⟩ := AllSettled.append.mp settled
      obtain ⟨recordedParent, recordedMethods⟩ := RecordedAs.append.mp recorded
      obtain ⟨-, settledParent⟩ := AllSettled.cons.mp settledParent
      obtain ⟨-, recordedParent⟩ := RecordedAs.cons.mp recordedParent
      have methods := MethodsShortened.of_settled methods
        (((inside.asClass .subclass).holding superclassName).holding receiverName)
        settledMethods recordedMethods
      exact .subclass apart
        (reference_shortened inside settledParent recordedParent fun _ => rfl) methods

/-- Statements that are settled at corresponding places correspond. -/
theorem BodyShortened.of_settled :
    ∀ (body : List Stmt) {detour : Detour} {left right : Place},
      PlaceShortened detour left right →
      detour ≠ some 0 →
      AllSettled long resolved (Stmt.sitesOfAll left body) →
      RecordedAs number short (Stmt.sitesOfAll right body) →
      BodyShortened long short detour body (Stmt.allRenumbered number body)
  | [], _, _, _, _, _, _, _ => .nil
  | first :: rest, _, _, _, shortened, apart, settled, recorded => by
      obtain ⟨settledFirst, settledRest⟩ := AllSettled.append.mp settled
      obtain ⟨recordedFirst, recordedRest⟩ := RecordedAs.append.mp recorded
      have behind := shortened.declaringAny apart first.declared
      exact .cons
        (.of_settled first shortened (fun here => absurd here apart) settledFirst recordedFirst)
        (BodyShortened.of_settled rest behind apart settledRest recordedRest)

/-- A function that is settled at corresponding places corresponds to its renumbered one. -/
theorem FunctionShortened.of_settled :
    ∀ (declaration : FunctionDeclaration) {role : FunctionRole} {detour : Detour}
      {left right : Place},
      PlaceShortened detour left right →
      AllSettled long resolved (declaration.sites role left) →
      RecordedAs number short (declaration.sites role right) →
      FunctionShortened long short detour declaration (declaration.renumbered number)
  | .intro _ parameters body, role, detour, left, right, shortened, settled, recorded => by
      obtain ⟨-, settled⟩ := AllSettled.append.mp settled
      obtain ⟨-, recorded⟩ := RecordedAs.append.mp recorded
      have start := (shortened.asFunction role).entering
      have inside := start.declaringAny detour.inside_ne_here (parameters.map (·.text))
      exact .intro
        (BodyShortened.of_settled body inside detour.inside_ne_here settled recorded)

/-- Methods that are settled at corresponding places correspond. -/
theorem MethodsShortened.of_settled :
    ∀ (methods : List FunctionDeclaration) {detour : Detour} {left right : Place},
      PlaceShortened detour left right →
      AllSettled long resolved (FunctionDeclaration.sitesOfAll left methods) →
      RecordedAs number short (FunctionDeclaration.sitesOfAll right methods) →
      MethodsShortened long short detour methods
        (FunctionDeclaration.allRenumbered number methods)
  | [], _, _, _, _, _, _ => .nil
  | first :: rest, _, _, _, shortened, settled, recorded => by
      obtain ⟨settledFirst, settledRest⟩ := AllSettled.append.mp settled
      obtain ⟨recordedFirst, recordedRest⟩ := RecordedAs.append.mp recorded
      exact .cons (.of_settled first shortened settledFirst recordedFirst)
        (MethodsShortened.of_settled rest shortened settledRest recordedRest)

end

end

end Lox.Execution
