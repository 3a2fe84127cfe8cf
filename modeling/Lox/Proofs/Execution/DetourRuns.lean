import Lox.Proofs.Execution.DetourSteps

namespace Lox.Execution

/-!
# Runs with and without detours

Code that is run with a detour, and the same code without it, end alike.  The induction is
on fuel, of which both runs use the same amount.  What is around a function that is called
is the scope in which the function was made, with the detour that is seen from there.
-/

section

variable (long short : Distances) (fuel : Nat)

/-- Expressions do the same with and without a detour, with some fuel. -/
def ExpressionsShadow : Prop :=
  ∀ {detour : Detour} {value value' : Expr} {marks : List Counterpart},
    ExprShortened long short detour value value' →
      Shadows long short marks detour Equal (evaluate fuel value) (evaluate fuel value')

/-- Statements do the same with and without a detour, with some fuel. -/
def StatementsShadow : Prop :=
  ∀ {detour : Detour} {single single' : Stmt} {marks : List Counterpart},
    StmtShortened long short detour single single' →
      Shadows long short marks detour Equal (execute fuel single) (execute fuel single')

/-- Calls of callees that do the same do so, whatever the detour at the call is. -/
def CallsShadow : Prop :=
  ∀ {detour : Detour} {callee callee' : Callee} {marks : List Counterpart},
    CalleeAlike (ClosureShortened long short marks) callee callee' →
      ∀ arguments,
        Shadows long short marks detour Equal (call fuel callee arguments)
          (call fuel callee' arguments)

end

variable {long short : Distances} {fuel : Nat}

/-- Bodies run one statement after another. -/
theorem body_shadows
    (statements : StatementsShadow long short fuel)
    {detour : Detour}
    {body body' : List Stmt}
    (same : BodyShortened long short detour body body')
    {marks : List Counterpart} :
    Shadows long short marks detour Equal (body.forM (execute fuel))
      (body'.forM (execute fuel)) := by
  have related := same.forall₂
  induction related generalizing marks with
  | nil => exact .pure rfl
  | cons first _ inductionHypothesis =>
      cases same with
      | cons _ rest => exact (statements first).bind fun _ _ _ _ _ => inductionHypothesis rest

/-- The arguments of both calls have the same values. -/
theorem arguments_shadow
    (expressions : ExpressionsShadow long short fuel)
    {detour : Detour}
    {values values' : List Expr}
    (same : List.Forall₂ (ExprShortened long short detour) values values')
    {marks : List Counterpart} :
    Shadows long short marks detour Equal (values.mapM (evaluate fuel))
      (values'.mapM (evaluate fuel)) := by
  refine .mapM ?_ same
  exact fun _ _ _ => expressions

/-- Expressions do the same if everything with less fuel does. -/
theorem expressions_shadow
    (expressions : ExpressionsShadow long short fuel)
    (calls : CallsShadow long short fuel) :
    ExpressionsShadow long short (fuel + 1) := by
  intro detour value value' marks same
  cases same with
  | literal => exact .pure rfl
  | grouping inner => exact expressions inner
  | unary operand =>
      refine (expressions operand).bind ?_
      rintro later found _ - rfl
      exact lift_shadows _
  | binary left right =>
      refine (expressions left).bind ?_
      rintro later first _ - rfl
      refine (expressions right).bind ?_
      rintro last second _ - rfl
      exact lift_shadows _
  | logical left right =>
      refine (expressions left).bind ?_
      rintro later first _ - rfl
      exact .either (.pure rfl) (expressions right)
  | reference occurrence => exact lookUp_shadows occurrence
  | assign target value =>
      refine (expressions value).bind ?_
      rintro later assigned _ - rfl
      exact (assignTo_shadows target assigned).bind fun _ _ _ _ _ => .pure rfl
  | call callee arguments =>
      refine (expressions callee).bind ?_
      rintro later subject _ - rfl
      refine (arguments_shadow expressions arguments).bind ?_
      rintro last values _ - rfl
      exact (calleeFor_shadows subject _ _).bind fun _ _ _ _ found => calls found values
  | property object =>
      refine (expressions object).bind ?_
      rintro later found _ - rfl
      exact propertyOf_shadows found _
  | setProperty object value =>
      refine (expressions object).bind ?_
      rintro later found _ - rfl
      refine (fieldOwner_shadows found _).bind ?_
      rintro further owner _ - rfl
      refine (expressions value).bind ?_
      rintro last assigned _ - rfl
      exact (writeField_shadows owner _ assigned).bind fun _ _ _ _ _ => .pure rfl
  | this receiver => exact lookUp_shadows receiver
  | super parent => exact superMethod_shadows parent _ _

/-- Statements do the same if everything with less fuel does. -/
theorem statements_shadow
    (expressions : ExpressionsShadow long short fuel)
    (statements : StatementsShadow long short fuel) :
    StatementsShadow long short (fuel + 1) := by
  intro detour single single' marks same
  cases same with
  | expression value => exact (expressions value).discard
  | print value =>
      refine (expressions value).bind ?_
      rintro later found _ - rfl
      exact printValue_shadows found
  | varDeclaration apart initializer =>
      cases initializer with
      | none => exact defineHere_shadows apart _ _
      | some value =>
          refine (expressions value).bind ?_
          rintro later found _ - rfl
          exact defineHere_shadows apart _ found
  | block body =>
      refine .get fun left right related => ?_
      unfold inNewScope
      refine (newScope_shadows related.scope _).bind fun later scope scope' _ placed => ?_
      exact (body_shadows statements body).within placed
  | conditional condition consequent =>
      refine (expressions condition).bind ?_
      rintro later found _ - rfl
      exact .either (statements consequent) (.pure rfl)
  | alternative condition consequent alternative =>
      refine (expressions condition).bind ?_
      rintro later found _ - rfl
      exact .either (statements consequent) (statements alternative)
  | loop condition body =>
      refine (expressions condition).bind ?_
      rintro later found _ - rfl
      refine .either ?_ (.pure rfl)
      -- Another round is the same loop with less fuel.
      exact (statements body).bind fun _ _ _ _ _ => statements (.loop condition body)
  | functionDeclaration apart declaration => exact declareFunction_shadows apart declaration
  | returnValue value =>
      cases value with
      | none => exact .throw .returned
      | some value =>
          refine (expressions value).bind ?_
          rintro later found _ - rfl
          exact .throw .returned
  | baseClass apart methods => exact declareBaseClass_shadows apart _ methods
  | subclass apart parent methods => exact declareSubclass_shadows apart _ parent methods

/-- Calls do the same if everything with less fuel does. -/
theorem calls_shadow
    (statements : StatementsShadow long short fuel)
    (calls : CallsShadow long short fuel) :
    CallsShadow long short (fuel + 1) := by
  intro detour callee callee' marks same arguments
  cases same with
  | native => exact readClock_shadows
  | function functions =>
      obtain ⟨around, placed, declaration⟩ := functions.declaration
      refine (activate_shadows placed declaration arguments).bind ?_
      intro later scope scope' longer inside
      refine ((body_shadows statements declaration.body).within inside).returning.bind ?_
      rintro last result _ further rfl
      exact callResult_shadows (functions.grows (longer.trans further)) result
  | @classObject classId =>
      refine (newInstance_shadows classId).bind ?_
      rintro later object _ - rfl
      refine .get fun left right related => ?_
      rcases eq_none_or_some_of_rel
          (related.heap.tables.findMethod? classId constructorName) with
        ⟨none, none'⟩ | ⟨method, method', known, known', methods⟩
      · rw [none, none']
        exact .pure rfl
      · rw [known, known']
        refine (bindMethod_shadows methods object).bind fun _ bound bound' _ functions => ?_
        exact (calls (.function functions) arguments).discard.bind fun _ _ _ _ _ => .pure rfl

/-- Whatever is run, with any fuel, does the same with and without detours. -/
theorem everything_shadows (long short : Distances) (fuel : Nat) :
    ExpressionsShadow long short fuel ∧
      StatementsShadow long short fuel ∧
      CallsShadow long short fuel := by
  induction fuel with
  | zero =>
      exact ⟨fun _ => .throw .exhausted, fun _ => .throw .exhausted,
        fun _ _ => .throw .exhausted⟩
  | succ fuel inductionHypothesis =>
      obtain ⟨expressions, statements, calls⟩ := inductionHypothesis
      exact ⟨expressions_shadow expressions calls, statements_shadow expressions statements,
        calls_shadow statements calls⟩

end Lox.Execution
