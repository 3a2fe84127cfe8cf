import Lox.Proofs.Execution.TwinStates

namespace Lox.Execution

open Scoping

/-!
# Twins stay twins

When further occurrences are settled and more is admitted at them, programs and states
that were twins before are still twins.
-/

namespace Pairing

/-- A pairing in which other occurrences correspond, with something else admitted at them. -/
def settling
    (pairing : Pairing)
    (settled : NodeId → NodeId → Option Nat → Prop)
    (admits : List Label → Option String → Deed → Prop) :
    Pairing :=
  { pairing with settled := settled, admits := admits }

/-- Nothing that corresponds or is admitted is given up. -/
structure Extends
    (pairing : Pairing)
    (settled : NodeId → NodeId → Option Nat → Prop)
    (admits : List Label → Option String → Deed → Prop) :
    Prop where
  settled : ∀ {id id' depth}, pairing.settled id id' depth → settled id id' depth
  admits :
    ∀ {levels initializing deed},
      pairing.admits levels initializing deed → admits levels initializing deed

end Pairing

variable {pairing : Pairing} {settled : NodeId → NodeId → Option Nat → Prop}
  {admits : List Label → Option String → Deed → Prop} {levels : List Label}

/-- Settling further occurrences keeps pairs of occurrences. -/
theorem ReferenceTwins.settling
    (kept : pairing.Extends settled admits)
    {left right : Reference}
    (twins : ReferenceTwins pairing levels left right) :
    ReferenceTwins (pairing.settling settled admits) levels left right := by
  obtain ⟨⟨depth, known, renames⟩, reports⟩ := twins
  exact ⟨⟨depth, kept.settled known, renames⟩, reports.line, reports.text⟩

/-- Settling further occurrences keeps pairs of accesses to a superclass. -/
theorem SuperTwins.settling
    (kept : pairing.Extends settled admits)
    {left right : NodeId}
    (twins : SuperTwins pairing levels left right) :
    SuperTwins (pairing.settling settled admits) levels left right := by
  obtain ⟨depth, known, renames⟩ := twins.renames
  exact ⟨depth, kept.settled known, renames⟩

theorem Pairing.Reports.settling
    {left right : Identifier}
    (reports : pairing.Reports left right) :
    (pairing.settling settled admits).Reports left right :=
  ⟨reports.line, reports.text⟩

mutual

/-- Settling further occurrences keeps pairs of expressions. -/
theorem settling_expression
    (kept : pairing.Extends settled admits)
    {initializing : Option String} :
    ∀ (value : Expr) {value' : Expr},
      ExprTwins pairing levels initializing value value' →
      ExprTwins (pairing.settling settled admits) levels initializing value value'
  | .literal _, _, .literal => .literal
  | .grouping inner, _, .grouping same => .grouping (settling_expression kept inner same)
  | .unary _ _ operand, _, .unary lines same =>
      .unary lines (settling_expression kept operand same)
  | .binary _ _ left right, _, .binary lines first second =>
      .binary lines (settling_expression kept left first) (settling_expression kept right second)
  | .logical _ left right, _, .logical first second =>
      .logical (settling_expression kept left first) (settling_expression kept right second)
  | .reference _, _, .reference same admitted =>
      .reference (same.settling kept) (kept.admits admitted)
  | .assign _ value, _, .assign same target admitted =>
      .assign (settling_expression kept value same) (target.settling kept)
        (kept.admits admitted)
  | .call callee arguments _, _, .call lines same others =>
      .call lines (settling_expression kept callee same)
        (settling_expressions kept arguments others)
  | .property object _, _, .property same name reports =>
      .property (settling_expression kept object same) name reports.settling
  | .setProperty object _ value, _, .setProperty same name reports others =>
      .setProperty (settling_expression kept object same) name reports.settling
        (settling_expression kept value others)
  | .this _ _, _, .this same admitted =>
      .this (same.settling kept) (kept.admits admitted)
  | .super _ _ _, _, .super same admitted reports method reportsMethod =>
      .super (same.settling kept) (kept.admits admitted) reports.settling method
        reportsMethod.settling

/-- Settling further occurrences keeps pairs of expressions in a row. -/
theorem settling_expressions
    (kept : pairing.Extends settled admits)
    {initializing : Option String} :
    ∀ (values : List Expr) {values' : List Expr},
      List.Forall₂ (ExprTwins pairing levels initializing) values values' →
      List.Forall₂ (ExprTwins (pairing.settling settled admits) levels initializing) values values'
  | [], _, .nil => .nil
  | first :: rest, _, .cons same others =>
      .cons (settling_expression kept first same) (settling_expressions kept rest others)

end

mutual

/-- Settling further occurrences keeps pairs of statements. -/
theorem settling_statement
    (kept : pairing.Extends settled admits) :
    ∀ (statement : Stmt) {levels : List Label} {statement' : Stmt},
      StmtTwins pairing levels statement statement' →
      StmtTwins (pairing.settling settled admits) levels statement statement'
  | .expression value, _, _, .expression same => .expression (settling_expression kept value same)
  | .print value, _, _, .print same => .print (settling_expression kept value same)
  | .varDeclaration _ none, _, _, .uninitialized declares => .uninitialized declares
  | .varDeclaration _ (some value), _, _, .initialized declares same =>
      .initialized declares (settling_expression kept value same)
  | .block body, _, _, .block same => .block (settling_statements kept body same)
  | .branch condition consequent none, _, _, .conditional same first =>
      .conditional (settling_expression kept condition same)
        (settling_statement kept consequent first)
  | .branch condition consequent (some alternative), _, _, .alternative same first second =>
      .alternative (settling_expression kept condition same)
        (settling_statement kept consequent first) (settling_statement kept alternative second)
  | .loop condition body, _, _, .loop same inside =>
      .loop (settling_expression kept condition same) (settling_statement kept body inside)
  | .functionDeclaration declaration, _, _, .functionDeclaration declares same =>
      .functionDeclaration declares (settling_function kept declaration same)
  | .returnValue _ none, _, _, .returnNothing lines => .returnNothing lines
  | .returnValue _ (some value), _, _, .returnValue lines same =>
      .returnValue lines (settling_expression kept value same)
  | .classDeclaration _ none methods, _, _, .baseClass name declares same =>
      .baseClass name declares (settling_methods kept methods same)
  | .classDeclaration _ (some _) methods, _, _, .subclass name declares parent admitted same =>
      .subclass name declares (parent.settling kept) (kept.admits admitted)
        (settling_methods kept methods same)

/-- Settling further occurrences keeps pairs of statements in a row. -/
theorem settling_statements
    (kept : pairing.Extends settled admits) :
    ∀ (body : List Stmt) {levels : List Label} {body' : List Stmt},
      BodyTwins pairing levels body body' →
      BodyTwins (pairing.settling settled admits) levels body body'
  | [], _, _, .nil => .nil
  | first :: rest, _, _, .cons same others =>
      .cons (settling_statement kept first same) (settling_statements kept rest others)

/-- Settling further occurrences keeps pairs of functions. -/
theorem settling_function
    (kept : pairing.Extends settled admits) :
    ∀ (declaration : FunctionDeclaration) {levels : List Label}
      {declaration' : FunctionDeclaration},
      FunctionTwins pairing levels declaration declaration' →
      FunctionTwins (pairing.settling settled admits) levels declaration declaration'
  | .intro _ _ body, _, _, .intro name parameters same =>
      .intro name parameters (settling_statements kept body same)

/-- Settling further occurrences keeps pairs of methods. -/
theorem settling_methods
    (kept : pairing.Extends settled admits) :
    ∀ (methods : List FunctionDeclaration) {levels : List Label}
      {methods' : List FunctionDeclaration},
      MethodsTwins pairing levels methods methods' →
      MethodsTwins (pairing.settling settled admits) levels methods methods'
  | [], _, _, .nil => .nil
  | first :: rest, _, _, .cons same others =>
      .cons (settling_function kept first same) (settling_methods kept rest others)

end

/-! ## States -/

variable {labels : List Label} {heap left right : Heap}

/-- Labels of scopes do not depend on what is settled. -/
theorem Layered.settling
    {scope : ScopeId}
    (layered : Layered pairing labels heap scope levels) :
    Layered (pairing.settling settled admits) labels heap scope levels := by
  induction layered with
  | outermost => exact .outermost
  | inner isLabel enclosing older _ inductionHypothesis =>
      exact .inner isLabel enclosing older inductionHypothesis

/-- Settling further occurrences keeps pairs of closures. -/
theorem ClosureTwins.settling
    (kept : pairing.Extends settled admits)
    {first second : Function}
    (twins : ClosureTwins pairing labels heap first second) :
    ClosureTwins (pairing.settling settled admits) labels heap first second := by
  obtain ⟨levels, layered, same⟩ := twins.declaration
  exact ⟨twins.closure, twins.isConstructor, twins.receiver, levels, layered.settling,
    settling_function kept _ same⟩

theorem MethodTwins.settling
    (kept : pairing.Extends settled admits)
    {first second : Function}
    (twins : MethodTwins pairing labels heap first second) :
    MethodTwins (pairing.settling settled admits) labels heap first second := by
  obtain ⟨levels, layered, same⟩ := twins.declaration
  exact ⟨twins.closure, twins.isConstructor, levels, layered.settling,
    settling_function kept _ same⟩

/-- Settling further occurrences keeps pairs of classes. -/
theorem ClassTwins.settling
    (kept : pairing.Extends settled admits)
    {first second : Class}
    (twins : ClassTwins pairing labels heap first second) :
    ClassTwins (pairing.settling settled admits) labels heap first second := by
  refine ⟨twins.name, twins.superclass, fun name => ?_⟩
  obtain ⟨none, none'⟩ | ⟨method, method', known, known', methods⟩ :=
    eq_none_or_some_of_rel (twins.methods name)
  · rw [none, none']
    exact .none
  · rw [known, known']
    exact .some (methods.settling kept)

/-- Settling further occurrences keeps pairs of heaps. -/
theorem HeapTwins.settling
    (kept : pairing.Extends settled admits)
    (twins : HeapTwins pairing labels left right) :
    HeapTwins (pairing.settling settled admits) labels left right :=
  ⟨twins.leftSize, twins.rightSize, twins.scopes, twins.globals, twins.outermost,
    twins.functions.imp fun _ _ same => same.settling kept,
    twins.classes.imp fun _ _ same => same.settling kept, twins.instances⟩

/-- States stay twins when further distances are recorded, also others than before. -/
theorem StateTwins.recording
    (kept : pairing.Extends settled admits)
    {first second : State}
    (twins : StateTwins pairing labels first second)
    (leftDistances rightDistances : Distances)
    (recorded :
      ∀ id id' depth, settled id id' depth →
        leftDistances.get? id = depth ∧ rightDistances.get? id' = depth) :
    StateTwins (pairing.settling settled admits) labels { first with distances := leftDistances }
      { second with distances := rightDistances } :=
  ⟨twins.heap.settling kept, twins.scope, twins.leftGlobals, twins.rightGlobals, recorded,
    twins.transcript, twins.clock⟩

/-! ## Before the first program -/

/-- The initial state is its own twin as long as no occurrence is settled. -/
theorem initial_twins
    (outermost : pairing.globals = 0)
    (clock : Clock)
    (none : ∀ id id' depth, ¬pairing.settled id id' depth) :
    StateTwins pairing [.identity] (State.initial clock) (State.initial clock) where
  heap := by
    refine ⟨rfl, rfl, ?_, by simp [outermost], by rw [outermost]; rfl, .empty, .empty, rfl⟩
    intro id label first second isLabel isFirst isSecond
    obtain rfl := Option.some.inj (isFirst.symm.trans isSecond)
    obtain rfl : label = .identity := by
      cases id with
      | zero => simpa using isLabel.symm
      | succ id => simp at isLabel
    exact ⟨rfl, .refl _⟩
  scope := rfl
  leftGlobals := outermost.symm
  rightGlobals := outermost.symm
  distances id id' depth settled := absurd settled (none id id' depth)
  transcript := rfl
  clock := rfl

end Lox.Execution
