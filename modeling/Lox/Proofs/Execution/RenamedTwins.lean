import Lox.Proofs.Execution.Twins
import Lox.Proofs.Scoping.RenamedSites

namespace Lox.Execution

open Scoping

/-!
# Renamed programs are twins

A program and the program with a renamed variable are twins.  The scope of the variable
has a label that exchanges the two names; in all other scopes names are called the same.
-/

/-- Two runs whose occurrences are settled at the same depths under the same identities. -/
def sameOccurrences (settled : NodeId → Option Nat → Prop) : Pairing where
  settled id id' depth := id = id' ∧ settled id depth
  admits _ _ _ := True
  lines := Eq
  names _ _ := True
  receiver := .identity
  receiver_renames := Label.identity_renames receiverName
  superclass := .identity
  superclass_renames := Label.identity_renames superclassName
  globals := 0

/-- The label of a scope, which is that of the variable or not. -/
def labelOf (naming : Renaming) (marked : Bool) : Label :=
  if marked then .exchange naming.old naming.new else .identity

/-- The labels of the scopes around a point. -/
def labelsOf (naming : Renaming) (around : List Bool) : List Label :=
  around.map (labelOf naming)

variable {settled : NodeId → Option Nat → Prop} {naming : Renaming} {around : List Bool}
  {place : Place}

/-! ## Names -/

/-- Every name but the new one has its new text in a scope. -/
theorem labelOf_renames
    {name : String}
    (other : name ≠ naming.new)
    (marked : Bool) :
    (labelOf naming marked).renames name (naming.text marked name) := by
  cases marked with
  | false => simp [labelOf, Label.identity, Label.only, Renaming.text]
  | true =>
      by_cases isOld : name = naming.old
      · simp [labelOf, Label.exchange, Renaming.text, isOld]
      · simp [labelOf, Label.exchange, Renaming.text, isOld, other]

/-- A name that is declared has its new text in the innermost scope. -/
theorem declares_labelsOf
    {name : String}
    (other : name ≠ naming.new)
    (around : List Bool) :
    Declares (labelsOf naming around) name (naming.text (inMarked around (some 0)) name) := by
  cases around with
  | nil => simp [labelsOf, Declares, inMarked]
  | cons marked around => exact labelOf_renames other marked

/-- A name that is found at a depth has its new text there. -/
theorem renames_labelsOf
    {name : String}
    (other : name ≠ naming.new)
    (suits : naming.Suits around place) :
    Renames (labelsOf naming around) (place.depth? name) name
      (naming.text (inMarked around (place.depth? name)) name) := by
  cases found : place.depth? name with
  | none => simp [Renames, inMarked]
  | some depth =>
      have within : depth < around.length := by
        rw [suits.length]
        exact (List.findIdx?_eq_some_iff_getElem.mp found).1
      refine ⟨labelOf naming around[depth], by simp [labelsOf, within], ?_⟩
      simpa [inMarked, within] using labelOf_renames other around[depth]

/-- The keywords that scopes hold are called the same in all of them. -/
theorem renames_keyword
    {keyword : String}
    (isKeyword : keyword = receiverName ∨ keyword = superclassName)
    (suits : naming.Suits around place)
    {depth : Nat}
    (within : depth < place.scopes.length) :
    Renames (labelsOf naming around) (some depth) keyword keyword := by
  rw [← suits.length] at within
  have other : keyword ≠ naming.new := by
    rintro rfl
    exact isKeyword.elim suits.newLegible.1 suits.newLegible.2
  have kept : naming.text around[depth] keyword = keyword := by
    unfold Renaming.text
    split
    · next both =>
        obtain ⟨marked, rfl⟩ := both
        obtain ⟨notReceiver, notSuperclass⟩ :=
          suits.oldLegible (marked ▸ List.getElem_mem within)
        exact (isKeyword.elim notReceiver notSuperclass).elim
    · rfl
  refine ⟨labelOf naming around[depth], by simp [labelsOf, within], ?_⟩
  have renames := labelOf_renames other around[depth]
  rwa [kept] at renames

theorem reports_reference (occurrence : Reference) :
    (sameOccurrences settled).Reports occurrence.name
      (naming.reference around occurrence).name :=
  ⟨rfl, trivial⟩

theorem reports_refl (name : Identifier) : (sameOccurrences settled).Reports name name :=
  ⟨rfl, trivial⟩

/-! ## Expressions -/

/-- Every occurrence at sites is settled at its depth. -/
def SettlesAll (settled : NodeId → Option Nat → Prop) (sites : List Site) : Prop :=
  ∀ site ∈ sites, ∀ id name, site.occurrence? = some (id, name) →
    settled id (site.place.depth? name)

theorem SettlesAll.append
    {earlier later : List Site}
    (settles : SettlesAll settled (earlier ++ later)) :
    SettlesAll settled earlier ∧ SettlesAll settled later :=
  List.forall_mem_append.mp settles

theorem SettlesAll.behind
    {site : Site}
    {rest : List Site}
    (settles : SettlesAll settled (site :: rest)) :
    SettlesAll settled rest :=
  (List.forall_mem_cons.mp settles).2

theorem SettlesAll.head
    {site : Site}
    {rest : List Site}
    (settles : SettlesAll settled (site :: rest))
    {id : NodeId}
    {name : String}
    (known : site.occurrence? = some (id, name)) :
    settled id (site.place.depth? name) :=
  settles site List.mem_cons_self id name known

theorem twins_reference
    (suits : naming.Suits around place)
    {occurrence : Reference}
    (other : occurrence.name.text ≠ naming.new)
    (depth : naming.depths occurrence.id = place.depth? occurrence.name.text)
    (known : settled occurrence.id (place.depth? occurrence.name.text)) :
    ReferenceTwins (sameOccurrences settled) (labelsOf naming around) occurrence
      (naming.reference around occurrence) := by
  refine ⟨⟨_, ⟨rfl, known⟩, ?_⟩, reports_reference occurrence⟩
  have renames := renames_labelsOf other suits
  rwa [← depth] at renames ⊢

theorem twins_this
    (suits : naming.Suits around place)
    {id : NodeId}
    (line : Nat)
    (known : settled id (place.depth? receiverName)) :
    ReferenceTwins (sameOccurrences settled) (labelsOf naming around)
      ⟨id, receiverName, line⟩ ⟨id, receiverName, line⟩ := by
  refine ⟨⟨_, ⟨rfl, known⟩, ?_⟩, reports_refl _⟩
  cases found : place.depth? receiverName with
  | none => rfl
  | some depth =>
      exact renames_keyword (.inl rfl) suits (List.findIdx?_eq_some_iff_getElem.mp found).1

theorem twins_super
    (suits : naming.Suits around place)
    {id : NodeId}
    (known : settled id (place.depth? superclassName)) :
    SuperTwins (sameOccurrences settled) (labelsOf naming around) id id := by
  refine ⟨_, ⟨rfl, known⟩, fun depth found => ?_, fun nearer found => ?_⟩
  · exact renames_keyword (.inr rfl) suits (List.findIdx?_eq_some_iff_getElem.mp found).1
  · have within := (List.findIdx?_eq_some_iff_getElem.mp found).1
    exact renames_keyword (.inl rfl) suits (Nat.lt_of_succ_lt within)

section

variable {initializing initializing' : Option String}

mutual

/-- An expression and the renamed expression are twins. -/
theorem twins_expression
    (suits : naming.Suits around place) :
    ∀ value : Expr, AllAllowed naming (value.sites place initializing) →
      SettlesAll settled (value.sites place initializing) →
      ExprTwins (sameOccurrences settled) (labelsOf naming around) initializing' value
        (value.renamed naming around)
  | .literal _, _, _ => .literal
  | .grouping inner, allowed, settles =>
      .grouping (twins_expression suits inner allowed settles)
  | .unary _ _ operand, allowed, settles =>
      .unary rfl (twins_expression suits operand allowed settles)
  | .binary _ _ left right, allowed, settles =>
      .binary rfl
        (twins_expression suits left (AllAllowed.append allowed).1 (SettlesAll.append settles).1)
        (twins_expression suits right (AllAllowed.append allowed).2
          (SettlesAll.append settles).2)
  | .logical _ left right, allowed, settles =>
      .logical
        (twins_expression suits left (AllAllowed.append allowed).1 (SettlesAll.append settles).1)
        (twins_expression suits right (AllAllowed.append allowed).2
          (SettlesAll.append settles).2)
  | .reference _, allowed, settles => by
      obtain ⟨here, -⟩ := AllAllowed.cons allowed
      exact .reference
        (twins_reference suits here.unused (here.settled _ _ rfl) (settles.head rfl)) trivial
  | .assign _ value, allowed, settles => by
      obtain ⟨inValue, inTarget⟩ := AllAllowed.append allowed
      obtain ⟨settlesValue, settlesTarget⟩ := SettlesAll.append settles
      obtain ⟨here, -⟩ := AllAllowed.cons inTarget
      exact .assign (twins_expression suits value inValue settlesValue)
        (twins_reference suits here.unused (here.settled _ _ rfl) (settlesTarget.head rfl))
        trivial
  | .call callee arguments _, allowed, settles =>
      .call rfl
        (twins_expression suits callee (AllAllowed.append allowed).1
          (SettlesAll.append settles).1)
        (twins_expressions suits arguments (AllAllowed.append allowed).2
          (SettlesAll.append settles).2)
  | .property object name, allowed, settles =>
      .property (twins_expression suits object allowed settles) rfl (reports_refl name)
  | .setProperty object name value, allowed, settles =>
      .setProperty
        (twins_expression suits object (AllAllowed.append allowed).2
          (SettlesAll.append settles).2)
        rfl (reports_refl name)
        (twins_expression suits value (AllAllowed.append allowed).1
          (SettlesAll.append settles).1)
  | .this _ line, _, settles => .this (twins_this suits line (settles.head rfl)) trivial
  | .super _ _ method, _, settles =>
      .super (twins_super suits (settles.head rfl)) trivial (reports_refl _) rfl
        (reports_refl method)

theorem twins_expressions
    (suits : naming.Suits around place) :
    ∀ values : List Expr, AllAllowed naming (Expr.sitesOfAll place initializing values) →
      SettlesAll settled (Expr.sitesOfAll place initializing values) →
      List.Forall₂ (ExprTwins (sameOccurrences settled) (labelsOf naming around) initializing')
        values (Expr.renamedAll naming around values)
  | [], _, _ => .nil
  | first :: rest, allowed, settles =>
      .cons
        (twins_expression suits first (AllAllowed.append allowed).1
          (SettlesAll.append settles).1)
        (twins_expressions suits rest (AllAllowed.append allowed).2
          (SettlesAll.append settles).2)

end

end

/-! ## Statements -/

/-- The name of a function or class is called the same in its scope. -/
theorem declares_definition
    {name : Identifier}
    (spares : naming.Spares around [.definition name.text])
    (allows : naming.Allows ⟨place, none, .declares name⟩) :
    Declares (labelsOf naming around) name.text name.text := by
  have other : name.text ≠ naming.new := allows.unused
  have declares := declares_labelsOf other around
  rwa [spares.text] at declares

/-- Parameters have their new texts in the scope of their function. -/
theorem renames_parameters
    {marked : Bool}
    (parameters : List Identifier)
    (unused : naming.new ∉ parameters.map (·.text)) :
    List.Forall₂ (fun parameter parameter' =>
        (labelOf naming marked).renames parameter.text parameter'.text)
      parameters (parameters.map (naming.declared (marked :: around))) := by
  induction parameters with
  | nil => exact .nil
  | cons first rest inductionHypothesis =>
      simp only [List.map_cons, List.mem_cons, not_or] at unused
      exact .cons (labelOf_renames (Ne.symm unused.1) marked) (inductionHypothesis unused.2)

mutual

/-- A statement and the renamed statement are twins. -/
theorem twins_statement :
    ∀ (statement : Stmt) (target : Option Address) {around : List Bool} {place : Place},
      naming.Suits around place → naming.Spares around statement.declarations →
      statement.Proper → AllAllowed naming (statement.sites place) →
      SettlesAll settled (statement.sites place) →
      StmtTwins (sameOccurrences settled) (labelsOf naming around) statement
        (statement.renamed naming target around)
  | .expression value, _, _, _, suits, _, _, allowed, settles =>
      .expression (twins_expression suits value allowed settles)
  | .print value, _, _, _, suits, _, _, allowed, settles =>
      .print (twins_expression suits value allowed settles)
  | .varDeclaration name none, _, around, _, _, _, _, allowed, _ => by
      obtain ⟨here, -⟩ := AllAllowed.cons allowed
      exact .uninitialized (declares_labelsOf here.unused around)
  | .varDeclaration name (some value), _, around, _, suits, _, _, allowed, settles => by
      obtain ⟨here, behind⟩ := AllAllowed.cons allowed
      exact .initialized (declares_labelsOf here.unused around)
        (twins_expression (suits.declaring (Renaming.unused_one here)) value behind
          (SettlesAll.behind settles))
  | .block body, target, _, _, suits, _, proper, allowed, settles => by
      obtain ⟨opened, spares⟩ := opened_block suits proper allowed target
      exact .block (twins_statements body target 0 opened spares proper allowed settles)
  | .branch condition consequent none, _, _, _, suits, spares, proper, allowed, settles => by
      obtain ⟨inCondition, inConsequent⟩ := AllAllowed.append allowed
      obtain ⟨settlesCondition, settlesConsequent⟩ := SettlesAll.append settles
      exact .conditional (twins_expression suits condition inCondition settlesCondition)
        (twins_statement consequent _ suits spares proper.2.1 inConsequent settlesConsequent)
  | .branch condition consequent (some alternative), target, _, _, suits, spares, proper,
      allowed, settles => by
      obtain ⟨inCondition, inBranches⟩ := AllAllowed.append allowed
      obtain ⟨inConsequent, inAlternative⟩ := AllAllowed.append inBranches
      obtain ⟨settlesCondition, settlesBranches⟩ := SettlesAll.append settles
      obtain ⟨settlesConsequent, settlesAlternative⟩ := SettlesAll.append settlesBranches
      obtain ⟨sparesFirst, sparesSecond⟩ := Renaming.Spares.append spares
      exact .alternative (twins_expression suits condition inCondition settlesCondition)
        (twins_statement consequent _ suits sparesFirst proper.2.1.1 inConsequent
          settlesConsequent)
        (twins_statement alternative (below target 1)
          (suits.declaring (unused_declared consequent inConsequent.unused)) sparesSecond
          proper.2.2.1 inAlternative settlesAlternative)
  | .loop condition body, _, _, _, suits, spares, proper, allowed, settles => by
      obtain ⟨inCondition, inBody⟩ := AllAllowed.append allowed
      obtain ⟨settlesCondition, settlesBody⟩ := SettlesAll.append settles
      exact .loop (twins_expression suits condition inCondition settlesCondition)
        (twins_statement body _ suits spares proper.2.1 inBody settlesBody)
  | .functionDeclaration declaration, target, _, _, suits, spares, proper, allowed,
      settles => by
      obtain ⟨here, behind⟩ := AllAllowed.cons allowed
      refine .functionDeclaration ?_ (twins_function declaration .function target
        (suits.declaring (Renaming.unused_one here)) proper.2 behind
        (SettlesAll.behind settles))
      rw [name_renamed]
      exact declares_definition spares here
  | .returnValue _ none, _, _, _, _, _, _, _, _ => .returnNothing rfl
  | .returnValue _ (some value), _, _, _, suits, _, _, allowed, settles =>
      .returnValue rfl (twins_expression suits value (AllAllowed.cons allowed).2
        (SettlesAll.behind settles))
  | .classDeclaration name none methods, target, _, _, suits, spares, proper, allowed,
      settles => by
      obtain ⟨here, behind⟩ := AllAllowed.cons allowed
      have named := suits.declaring (Renaming.unused_one here)
      exact .baseClass rfl (declares_definition spares here)
        (twins_methods methods target 0 ((named.asClass .base).holding (.inl rfl)) proper.2
          behind (SettlesAll.behind settles))
  | .classDeclaration name (some parent) methods, target, _, _, suits, spares, proper,
      allowed, settles => by
      obtain ⟨here, behind⟩ := AllAllowed.cons allowed
      obtain ⟨-, inRest⟩ := AllAllowed.cons behind
      obtain ⟨reads, inMethods⟩ := AllAllowed.cons inRest
      have settlesParent := SettlesAll.behind (SettlesAll.behind settles)
      have named := suits.declaring (Renaming.unused_one here)
      exact .subclass rfl (declares_definition spares here)
        (twins_reference named reads.unused (reads.settled _ _ rfl)
          (SettlesAll.head settlesParent rfl))
        trivial
        (twins_methods methods target 0
          (((named.asClass .subclass).holding (.inr rfl)).holding (.inl rfl)) proper.2
          inMethods (SettlesAll.behind settlesParent))

theorem twins_statements :
    ∀ (body : List Stmt) (target : Option Address) (position : Nat) {around : List Bool}
      {place : Place},
      naming.Suits around place → naming.Spares around (Stmt.declarationsOfAll body) →
      Stmt.AllProper body → AllAllowed naming (Stmt.sitesOfAll place body) →
      SettlesAll settled (Stmt.sitesOfAll place body) →
      BodyTwins (sameOccurrences settled) (labelsOf naming around) body
        (Stmt.renamedAll naming target position around body)
  | [], _, _, _, _, _, _, _, _, _ => .nil
  | first :: rest, target, position, _, _, suits, spares, proper, allowed, settles => by
      obtain ⟨inFirst, inRest⟩ := AllAllowed.append allowed
      obtain ⟨settlesFirst, settlesRest⟩ := SettlesAll.append settles
      obtain ⟨sparesFirst, sparesRest⟩ := Renaming.Spares.append spares
      exact .cons (twins_statement first _ suits sparesFirst proper.1 inFirst settlesFirst)
        (twins_statements rest target (position + 1)
          (suits.declaring (unused_declared first inFirst.unused)) sparesRest proper.2 inRest
          settlesRest)

/-- A function and the renamed function are twins. -/
theorem twins_function :
    ∀ (declaration : FunctionDeclaration) (role : FunctionRole) (target : Option Address)
      {around : List Bool} {place : Place},
      naming.Suits around place → declaration.Proper →
      AllAllowed naming (declaration.sites role place) →
      SettlesAll settled (declaration.sites role place) →
      FunctionTwins (sameOccurrences settled) (labelsOf naming around) declaration
        (declaration.renamed naming target around)
  | .intro name parameters body, role, target, around, place, suits, proper, allowed,
      settles => by
      obtain ⟨opened, spares⟩ := opened_function suits proper allowed target
      obtain ⟨inParameters, inBody⟩ := AllAllowed.append allowed
      have unused := unused_parameters parameters inParameters.unused
      exact .intro rfl (renames_parameters parameters unused)
        (twins_statements body target 0 (opened.declaring unused)
          (Renaming.Spares.append spares).2 proper.2 inBody (SettlesAll.append settles).2)

/-- Methods and the renamed methods are twins. -/
theorem twins_methods :
    ∀ (methods : List FunctionDeclaration) (target : Option Address) (position : Nat)
      {around : List Bool} {place : Place},
      naming.Suits around place → FunctionDeclaration.AllProper methods →
      AllAllowed naming (FunctionDeclaration.sitesOfAll place methods) →
      SettlesAll settled (FunctionDeclaration.sitesOfAll place methods) →
      MethodsTwins (sameOccurrences settled) (labelsOf naming around) methods
        (FunctionDeclaration.renamedAll naming target position around methods)
  | [], _, _, _, _, _, _, _, _ => .nil
  | first :: rest, target, position, _, _, suits, proper, allowed, settles => by
      obtain ⟨inFirst, inRest⟩ := AllAllowed.append allowed
      obtain ⟨settlesFirst, settlesRest⟩ := SettlesAll.append settles
      exact .cons (twins_function first .method _ suits proper.1 inFirst settlesFirst)
        (twins_methods rest target (position + 1) suits proper.2 inRest settlesRest)

end

/-! ## Errors up to names -/

/-- A type fault in which only the line of a name is left. -/
def TypeFault.unnamed : TypeFault → TypeFault
  | .propertyOfNonInstance name => .propertyOfNonInstance { name with text := "" }
  | .fieldOfNonInstance name => .fieldOfNonInstance { name with text := "" }
  | .superclassNotClass name => .superclassNotClass { name with text := "" }
  | fault => fault

/-- A runtime error in which only the line of a name is left. -/
def RuntimeError.unnamed : RuntimeError → RuntimeError
  | .undefinedVariable name => .undefinedVariable { name with text := "" }
  | .undefinedProperty name => .undefinedProperty { name with text := "" }
  | .typeFault fault => .typeFault fault.unnamed
  | error => error

/-- Names that are reported in each other's place are on the same line. -/
theorem unnamed_of_reports
    {name name' : Identifier}
    (reports : (sameOccurrences settled).Reports name name') :
    ({ name with text := "" } : Identifier) = { name' with text := "" } := by
  obtain ⟨line, -⟩ := reports
  exact congrArg (Identifier.mk "") line

theorem unnamed_of_alike_faults
    {fault fault' : TypeFault}
    (alike : fault.Alike (sameOccurrences settled) fault') :
    fault.unnamed = fault'.unnamed := by
  cases fault <;> cases fault' <;> first | exact alike.elim | skip
  case operandNotNumber => exact congrArg TypeFault.operandNotNumber alike
  case operandsNotAddable => exact congrArg TypeFault.operandsNotAddable alike
  case notCallable => exact congrArg TypeFault.notCallable alike
  case returnOutsideFunction => exact congrArg TypeFault.returnOutsideFunction alike
  case operandsNotNumbers => exact congrArg₂ TypeFault.operandsNotNumbers alike.1 alike.2
  case propertyOfNonInstance =>
      exact congrArg TypeFault.propertyOfNonInstance (unnamed_of_reports alike)
  case fieldOfNonInstance =>
      exact congrArg TypeFault.fieldOfNonInstance (unnamed_of_reports alike)
  case superclassNotClass =>
      exact congrArg TypeFault.superclassNotClass (unnamed_of_reports alike)

/-- Runtime errors of one kind are the same up to the name that they record. -/
theorem unnamed_of_alike
    {error error' : RuntimeError}
    (alike : error.Alike (sameOccurrences settled) error') :
    error.unnamed = error'.unnamed := by
  cases error <;> cases error' <;> first | exact alike.elim | skip
  case undefinedVariable => exact congrArg RuntimeError.undefinedVariable (unnamed_of_reports alike)
  case undefinedProperty => exact congrArg RuntimeError.undefinedProperty (unnamed_of_reports alike)
  case typeFault => exact congrArg RuntimeError.typeFault (unnamed_of_alike_faults alike)
  case divisionByZero => exact congrArg RuntimeError.divisionByZero alike
  case arityMismatch =>
      obtain ⟨rfl, rfl, line⟩ := alike
      exact congrArg (RuntimeError.arityMismatch _ _) line

end Lox.Execution
