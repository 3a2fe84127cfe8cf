import Lox.Execution.State
import Lox.Syntax.Occurrences
import Lox.Proofs.Syntax.Identities
import Mathlib.Data.List.Forall2
import Mathlib.Data.Option.Defs

namespace Lox.Execution

/-!
# Detours

Two runs of one program may differ in that the scopes of the first one are reached by a
detour: through a scope that binds nothing, which the second run does without.  What is
found beyond such a scope is found one scope nearer in the second run.  The code of the
second run is that of the first one with these distances, under identities of its own.
-/

/-- How many scopes up a scope lies that the second run does without, if there is one. -/
abbrev Detour := Option Nat

namespace Detour

/-- The same detour, seen from a scope further inside. -/
def inside (detour : Detour) : Detour :=
  detour.map (· + 1)

/-- How far away something is without the detour. -/
def shorten (detour : Detour) (depth : Nat) : Nat :=
  match detour with
  | none => depth
  | some skipped => if skipped < depth then depth - 1 else depth

@[simp] theorem shorten_none (depth : Nat) : shorten none depth = depth :=
  rfl

theorem inside_ne_here (detour : Detour) : detour.inside ≠ some 0 := by
  cases detour <;> simp [inside]

theorem shorten_zero (detour : Detour) : detour.shorten 0 = 0 := by
  cases detour <;> simp [shorten]

/-- Everything outside of the scope to be left out is one scope nearer. -/
theorem shorten_here (depth : Nat) : shorten (some 0) (depth + 1) = depth := by
  simp [shorten]

/-- One scope up, both what is looked for and the detour are one scope nearer. -/
theorem shorten_inside (detour : Detour) (depth : Nat) :
    detour.inside.shorten (depth + 1) = detour.shorten depth + 1 := by
  cases detour with
  | none => rfl
  | some skipped =>
      simp only [inside, shorten, Option.map_some]
      split <;> split <;> omega

/-- What is right outside of something else stays there, unless the detour is between them. -/
theorem shorten_succ
    {detour : Detour}
    {depth : Nat}
    (apart : detour ≠ some depth) :
    detour.shorten (depth + 1) = detour.shorten depth + 1 := by
  cases detour with
  | none => rfl
  | some skipped =>
      have other : skipped ≠ depth := fun same => apart (congrArg some same)
      simp only [shorten]
      split <;> split <;> omega

end Detour

/-! ## Code without the detour -/

section

variable (long short : Distances)

/-- Occurrences of one name, the second of which is found without the detour. -/
structure ReferenceShortened (detour : Detour) (left right : Reference) : Prop where
  name : left.name = right.name
  distance : short.get? right.id = (long.get? left.id).map detour.shorten
  avoids : ∀ depth, long.get? left.id = some depth → detour ≠ some depth

/-- Occurrences of `super`; between its scope and that of `this` there is no detour. -/
structure SuperShortened (detour : Detour) (left right : NodeId) : Prop where
  distance : short.get? right = (long.get? left).map detour.shorten
  avoids : ∀ depth, long.get? left = some depth → detour ≠ some depth
  together : ∀ depth, long.get? left = some (depth + 1) → detour ≠ some depth

/-- Expressions that do the same, the second one without the detour. -/
inductive ExprShortened (detour : Detour) : Expr → Expr → Prop where
  | literal {value} : ExprShortened detour (.literal value) (.literal value)
  | grouping {inner inner'} :
      ExprShortened detour inner inner' →
      ExprShortened detour (.grouping inner) (.grouping inner')
  | unary {operator line operand operand'} :
      ExprShortened detour operand operand' →
      ExprShortened detour (.unary operator line operand) (.unary operator line operand')
  | binary {operator line left left' right right'} :
      ExprShortened detour left left' →
      ExprShortened detour right right' →
      ExprShortened detour (.binary operator line left right)
        (.binary operator line left' right')
  | logical {operator left left' right right'} :
      ExprShortened detour left left' →
      ExprShortened detour right right' →
      ExprShortened detour (.logical operator left right) (.logical operator left' right')
  | reference {occurrence occurrence'} :
      ReferenceShortened long short detour occurrence occurrence' →
      ExprShortened detour (.reference occurrence) (.reference occurrence')
  | assign {target target' value value'} :
      ReferenceShortened long short detour target target' →
      ExprShortened detour value value' →
      ExprShortened detour (.assign target value) (.assign target' value')
  | call {callee callee' arguments arguments' line} :
      ExprShortened detour callee callee' →
      List.Forall₂ (ExprShortened detour) arguments arguments' →
      ExprShortened detour (.call callee arguments line) (.call callee' arguments' line)
  | property {object object' name} :
      ExprShortened detour object object' →
      ExprShortened detour (.property object name) (.property object' name)
  | setProperty {object object' name value value'} :
      ExprShortened detour object object' →
      ExprShortened detour value value' →
      ExprShortened detour (.setProperty object name value) (.setProperty object' name value')
  | this {id id' line} :
      ReferenceShortened long short detour ⟨id, ⟨receiverName, line⟩⟩
        ⟨id', ⟨receiverName, line⟩⟩ →
      ExprShortened detour (.this id line) (.this id' line)
  | super {id id' line method} :
      SuperShortened long short detour id id' →
      ExprShortened detour (.super id line method) (.super id' line method)

mutual

/-- Statements that do the same; in the scope that the second run does without, none declares. -/
inductive StmtShortened : Detour → Stmt → Stmt → Prop where
  | expression {detour : Detour} {value value'} :
      ExprShortened long short detour value value' →
      StmtShortened detour (.expression value) (.expression value')
  | print {detour : Detour} {value value'} :
      ExprShortened long short detour value value' →
      StmtShortened detour (.print value) (.print value')
  | varDeclaration {detour : Detour} {name initializer initializer'} :
      detour ≠ some 0 →
      Option.Rel (ExprShortened long short detour) initializer initializer' →
      StmtShortened detour (.varDeclaration name initializer) (.varDeclaration name initializer')
  | block {detour : Detour} {body body'} :
      BodyShortened detour.inside body body' →
      StmtShortened detour (.block body) (.block body')
  | conditional {detour : Detour} {condition condition' consequent consequent'} :
      ExprShortened long short detour condition condition' →
      StmtShortened detour consequent consequent' →
      StmtShortened detour (.branch condition consequent none)
        (.branch condition' consequent' none)
  | alternative
      {detour : Detour} {condition condition' consequent consequent' alternative alternative'} :
      ExprShortened long short detour condition condition' →
      StmtShortened detour consequent consequent' →
      StmtShortened detour alternative alternative' →
      StmtShortened detour (.branch condition consequent (some alternative))
        (.branch condition' consequent' (some alternative'))
  | loop {detour : Detour} {condition condition' body body'} :
      ExprShortened long short detour condition condition' →
      StmtShortened detour body body' →
      StmtShortened detour (.loop condition body) (.loop condition' body')
  | functionDeclaration {detour : Detour} {declaration declaration'} :
      detour ≠ some 0 →
      FunctionShortened detour declaration declaration' →
      StmtShortened detour (.functionDeclaration declaration)
        (.functionDeclaration declaration')
  | returnValue {detour : Detour} {line value value'} :
      Option.Rel (ExprShortened long short detour) value value' →
      StmtShortened detour (.returnValue line value) (.returnValue line value')
  | baseClass {detour : Detour} {name methods methods'} :
      detour ≠ some 0 →
      MethodsShortened detour.inside methods methods' →
      StmtShortened detour (.classDeclaration name none methods)
        (.classDeclaration name none methods')
  | subclass {detour : Detour} {name parent parent' methods methods'} :
      detour ≠ some 0 →
      ReferenceShortened long short detour parent parent' →
      MethodsShortened detour.inside.inside methods methods' →
      StmtShortened detour (.classDeclaration name (some parent) methods)
        (.classDeclaration name (some parent') methods')

/-- Statements in a row that do the same, one by one. -/
inductive BodyShortened : Detour → List Stmt → List Stmt → Prop where
  | nil {detour : Detour} : BodyShortened detour [] []
  | cons {detour : Detour} {first first' rest rest'} :
      StmtShortened detour first first' →
      BodyShortened detour rest rest' →
      BodyShortened detour (first :: rest) (first' :: rest')

/-- Functions that do the same, seen from the scope around them. -/
inductive FunctionShortened : Detour → FunctionDeclaration → FunctionDeclaration → Prop where
  | intro {detour : Detour} {name parameters body body'} :
      BodyShortened detour.inside body body' →
      FunctionShortened detour (.intro name parameters body) (.intro name parameters body')

/-- Methods that do the same, one by one, seen from the scope of `this` around them. -/
inductive MethodsShortened :
    Detour → List FunctionDeclaration → List FunctionDeclaration → Prop where
  | nil {detour : Detour} : MethodsShortened detour [] []
  | cons {detour : Detour} {first first' rest rest'} :
      FunctionShortened detour first first' →
      MethodsShortened detour rest rest' →
      MethodsShortened detour (first :: rest) (first' :: rest')

end

end

section

variable {long short : Distances} {detour : Detour}

namespace FunctionShortened

variable {left right : FunctionDeclaration}

/-- Both functions have one name. -/
theorem name (shortened : FunctionShortened long short detour left right) :
    left.name = right.name := by
  cases shortened with
  | intro _ => rfl

/-- Both functions have the same parameters. -/
theorem parameters (shortened : FunctionShortened long short detour left right) :
    left.parameters = right.parameters := by
  cases shortened with
  | intro _ => rfl

/-- The bodies of both functions correspond, one scope further inside. -/
theorem body (shortened : FunctionShortened long short detour left right) :
    BodyShortened long short detour.inside left.body right.body := by
  cases shortened with
  | intro body => exact body

end FunctionShortened

/-- Both bodies have corresponding statements, one for one. -/
theorem BodyShortened.forall₂
    {body body' : List Stmt}
    (shortened : BodyShortened long short detour body body') :
    List.Forall₂ (StmtShortened long short detour) body body' := by
  induction body generalizing body' with
  | nil =>
      cases shortened
      exact .nil
  | cons first rest inductionHypothesis =>
      cases shortened with
      | cons statement others => exact .cons statement (inductionHypothesis others)

/-- Both classes have corresponding methods, one for one. -/
theorem MethodsShortened.forall₂
    {methods methods' : List FunctionDeclaration}
    (shortened : MethodsShortened long short detour methods methods') :
    List.Forall₂ (FunctionShortened long short detour) methods methods' := by
  induction methods generalizing methods' with
  | nil =>
      cases shortened
      exact .nil
  | cons first rest inductionHypothesis =>
      cases shortened with
      | cons function others => exact .cons function (inductionHypothesis others)

/-! ## Code where there is no detour -/

/-- Some occurrences have the same distance in both runs. -/
def SameDistances (long short : Distances) (occurrences : List Occurrence) : Prop :=
  ∀ id ∈ idsOf occurrences, short.get? id = long.get? id

/-- Distances are the same for occurrences in a row if they are for all of them. -/
theorem sameDistances_append {earlier later : List Occurrence} :
    SameDistances long short (earlier ++ later) ↔
      SameDistances long short earlier ∧ SameDistances long short later := by
  unfold SameDistances
  rw [idsOf_append, List.forall_mem_append]

theorem sameDistances_cons {occurrence : Occurrence} {rest : List Occurrence} :
    SameDistances long short (occurrence :: rest) ↔
      short.get? occurrence.1 = long.get? occurrence.1 ∧ SameDistances long short rest :=
  List.forall_mem_cons

/-- An occurrence with the same distance corresponds to itself without a detour. -/
theorem ReferenceShortened.self
    {occurrence : Reference}
    (same : short.get? occurrence.id = long.get? occurrence.id) :
    ReferenceShortened long short none occurrence occurrence :=
  ⟨rfl, by rw [same]; exact Option.map_id'.symm, by simp⟩

/-- An access to a superclass with the same distance corresponds to itself without a detour. -/
theorem SuperShortened.self
    {id : NodeId}
    (same : short.get? id = long.get? id) :
    SuperShortened long short none id id :=
  ⟨by rw [same]; exact Option.map_id'.symm, by simp, by simp⟩

mutual

/-- Without a detour, code does the same as itself. -/
theorem ExprShortened.self :
    ∀ value : Expr, SameDistances long short value.occurrences →
      ExprShortened long short none value value
  | .literal _, _ => .literal
  | .grouping inner, same => .grouping (.self inner same)
  | .unary _ _ operand, same => .unary (.self operand same)
  | .binary _ _ left right, same => by
      obtain ⟨first, second⟩ := sameDistances_append.mp same
      exact .binary (.self left first) (.self right second)
  | .logical _ left right, same => by
      obtain ⟨first, second⟩ := sameDistances_append.mp same
      exact .logical (.self left first) (.self right second)
  | .reference _, same => .reference (.self (sameDistances_cons.mp same).1)
  | .assign _ value, same => by
      obtain ⟨inValue, inTarget⟩ := sameDistances_append.mp same
      exact .assign (.self (sameDistances_cons.mp inTarget).1) (.self value inValue)
  | .call callee arguments _, same => by
      obtain ⟨inCallee, inArguments⟩ := sameDistances_append.mp same
      exact .call (.self callee inCallee) (ExprShortened.allSelf arguments inArguments)
  | .property object _, same => .property (.self object same)
  | .setProperty object _ value, same => by
      obtain ⟨inValue, inObject⟩ := sameDistances_append.mp same
      exact .setProperty (.self object inObject) (.self value inValue)
  | .this _ _, same => .this (.self (sameDistances_cons.mp same).1)
  | .super _ _ _, same => .super (.self (sameDistances_cons.mp same).1)

/-- Expressions correspond to themselves without a detour where all distances are the same. -/
theorem ExprShortened.allSelf :
    ∀ values : List Expr, SameDistances long short (Expr.occurrencesOfAll values) →
      List.Forall₂ (ExprShortened long short none) values values
  | [], _ => .nil
  | first :: rest, same => by
      obtain ⟨inFirst, inRest⟩ := sameDistances_append.mp same
      exact .cons (.self first inFirst) (ExprShortened.allSelf rest inRest)

end

/-- An expression that may be left out corresponds to itself without a detour. -/
theorem ExprShortened.optionalSelf
    (value : Option Expr)
    (same : SameDistances long short (Expr.occurrencesOfOptional value)) :
    Option.Rel (ExprShortened long short none) value value := by
  cases value with
  | none => exact .none
  | some value => exact .some (.self value same)

mutual

/-- A statement corresponds to itself without a detour where all distances are the same. -/
theorem StmtShortened.self :
    ∀ single : Stmt, SameDistances long short single.occurrences →
      StmtShortened long short none single single
  | .expression value, same => .expression (.self value same)
  | .print value, same => .print (.self value same)
  | .varDeclaration _ initializer, same =>
      .varDeclaration (by simp) (ExprShortened.optionalSelf initializer same)
  | .block body, same => .block (BodyShortened.self body same)
  | .branch condition consequent none, same => by
      obtain ⟨inCondition, inConsequent⟩ := sameDistances_append.mp same
      exact .conditional (.self condition inCondition) (.self consequent inConsequent)
  | .branch condition consequent (some alternative), same => by
      obtain ⟨inFront, inAlternative⟩ := sameDistances_append.mp same
      obtain ⟨inCondition, inConsequent⟩ := sameDistances_append.mp inFront
      exact .alternative (.self condition inCondition) (.self consequent inConsequent)
        (.self alternative inAlternative)
  | .loop condition body, same => by
      obtain ⟨inCondition, inBody⟩ := sameDistances_append.mp same
      exact .loop (.self condition inCondition) (.self body inBody)
  | .functionDeclaration declaration, same =>
      .functionDeclaration (by simp) (.self declaration same)
  | .returnValue _ value, same =>
      .returnValue (ExprShortened.optionalSelf value same)
  | .classDeclaration _ none methods, same =>
      .baseClass (by simp) (MethodsShortened.self methods same)
  | .classDeclaration _ (some _) methods, same => by
      obtain ⟨ofParent, inMethods⟩ := sameDistances_cons.mp same
      exact .subclass (by simp) (.self ofParent) (MethodsShortened.self methods inMethods)

/-- Statements correspond to themselves without a detour where all distances are the same. -/
theorem BodyShortened.self :
    ∀ body : List Stmt, SameDistances long short (Stmt.occurrencesOfAll body) →
      BodyShortened long short none body body
  | [], _ => .nil
  | first :: rest, same => by
      obtain ⟨inFirst, inRest⟩ := sameDistances_append.mp same
      exact .cons (.self first inFirst) (BodyShortened.self rest inRest)

/-- A function corresponds to itself without a detour where all distances are the same. -/
theorem FunctionShortened.self :
    ∀ declaration : FunctionDeclaration, SameDistances long short declaration.occurrences →
      FunctionShortened long short none declaration declaration
  | .intro _ _ body, same => .intro (BodyShortened.self body same)

/-- Methods correspond to themselves without a detour where all distances are the same. -/
theorem MethodsShortened.self :
    ∀ methods : List FunctionDeclaration,
      SameDistances long short (FunctionDeclaration.occurrencesOfAll methods) →
      MethodsShortened long short none methods methods
  | [], _ => .nil
  | first :: rest, same => by
      obtain ⟨inFirst, inRest⟩ := sameDistances_append.mp same
      exact .cons (.self first inFirst) (MethodsShortened.self rest inRest)

end

end

end Lox.Execution
