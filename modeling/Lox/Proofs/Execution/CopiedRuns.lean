import Lox.Proofs.Execution.Copies
import Lox.Proofs.Execution.LockstepRuns

namespace Lox.Execution

/-!
# Runs of copies

Copies of a program that are run from states of runs of copies end alike, whatever
distances are recorded, if only they are the same for occurrences that stand for each
other.  The induction is on fuel, of which both runs use the same amount.
-/

variable {matching : Matching} {fuel : Nat}

/-- Runs inside the same scope, which both leave again. -/
theorem within_mirror
    {α : Type}
    {values : α → α → Prop}
    {first second : Eval α}
    (scope : ScopeId)
    (same : Mirror matching values first second) :
    Mirror matching values (within scope first) (within scope second) := by
  intro left right copies
  have inside := same { left with scope := scope } { right with scope := scope }
    { copies with scope := rfl }
  unfold within
  generalize first { left with scope := scope } = outcome at inside ⊢
  generalize second { right with scope := scope } = outcome' at inside ⊢
  cases inside with
  | ok fine further => exact .ok fine { further with scope := copies.scope }
  | error alike further => exact .error alike { further with scope := copies.scope }

/-- Bodies that may be left by a return give the same value. -/
theorem returning_mirror
    {first second : Eval Unit}
    {values : Unit → Unit → Prop}
    (same : Mirror matching values first second) :
    Mirror matching Eq (returning first) (returning second) := by
  intro left right copies
  have ended := same left right copies
  unfold returning
  generalize first left = outcome at ended ⊢
  generalize second right = outcome' at ended ⊢
  cases ended with
  | ok _ further => exact .ok rfl further
  | error alike further =>
      cases alike with
      | returned _ => exact .ok rfl further
      | error raised => exact .error (.error raised) further
      | mismatch => exact .error .mismatch further
      | exhausted => exact .error .exhausted further

/-- Copies of expressions mirror each other, with some fuel. -/
def ExpressionsMirror (matching : Matching) (fuel : Nat) : Prop :=
  ∀ value value', ExprCopies matching value value' →
    Mirror matching Eq (evaluate fuel value) (evaluate fuel value')

/-- Copies of statements mirror each other, with some fuel. -/
def StatementsMirror (matching : Matching) (fuel : Nat) : Prop :=
  ∀ statement statement', StmtCopies matching statement statement' →
    Mirror matching Eq (execute fuel statement) (execute fuel statement')

/-- Calls of copies with the same arguments mirror each other, with some fuel. -/
def CallsMirror (matching : Matching) (fuel : Nat) : Prop :=
  ∀ callee callee', CalleeCopies matching callee callee' → ∀ arguments,
    Mirror matching Eq (call fuel callee arguments) (call fuel callee' arguments)

/-- The arguments of both calls have the same values. -/
theorem arguments_mirror
    (expressions : ExpressionsMirror matching fuel)
    {values values' : List Expr}
    (same : List.Forall₂ (ExprCopies matching) values values') :
    Mirror matching Eq (values.mapM (evaluate fuel)) (values'.mapM (evaluate fuel)) :=
  fun left right copies =>
    (Mirrors.mapM same expressions left right copies).imp (fun _ _ related => related)
      (fun _ _ alike => alike) fun _ _ => eq_of_forall₂ fun _ _ => id

/-- Copies of expressions mirror each other if everything with less fuel does. -/
theorem expressions_mirror
    (expressions : ExpressionsMirror matching fuel)
    (calls : CallsMirror matching fuel) :
    ExpressionsMirror matching (fuel + 1) := by
  intro value value' copies
  cases copies with
  | literal => exact .pure rfl
  | grouping inner => exact expressions _ _ inner
  | unary lines operand =>
      refine (expressions _ _ operand).bind ?_
      rintro found _ rfl
      exact applyUnary_mirror lines _ found
  | binary lines left right =>
      refine (expressions _ _ left).bind ?_
      rintro first _ rfl
      refine (expressions _ _ right).bind ?_
      rintro second _ rfl
      exact applyBinary_mirror lines _ first second
  | logical left right =>
      refine (expressions _ _ left).bind ?_
      rintro first _ rfl
      exact .either Iff.rfl (.pure rfl) (expressions _ _ right)
  | reference occurrence => exact lookUp_mirror occurrence
  | assign target value =>
      refine (expressions _ _ value).bind ?_
      rintro assigned _ rfl
      exact (assignTo_mirror target assigned).bind fun _ _ _ => .pure rfl
  | call callee arguments lines =>
      refine (expressions _ _ callee).bind ?_
      rintro subject _ rfl
      refine (arguments_mirror expressions arguments).bind ?_
      rintro values _ rfl
      exact (calleeFor_mirror lines subject _).bind fun found found' same =>
        calls found found' same values
  | property object name =>
      refine (expressions _ _ object).bind ?_
      rintro found _ rfl
      exact propertyOf_mirror name found
  | setProperty object name value =>
      refine (expressions _ _ object).bind ?_
      rintro found _ rfl
      refine (fieldOwner_mirror name found).bind ?_
      rintro owner _ rfl
      refine (expressions _ _ value).bind ?_
      rintro assigned _ rfl
      rw [name.text]
      exact (writeField_mirror owner _ assigned).bind fun _ _ _ => .pure rfl
  | @this id id' line line' ids lines =>
      have same : ReferenceCopies matching ⟨id, receiverName, line⟩
          ⟨id', receiverName, line'⟩ := ⟨ids, rfl, lines⟩
      exact lookUp_mirror same
  | super id lines method => exact superMethod_mirror id lines method

/-- Copies of statements mirror each other if everything with less fuel does. -/
theorem statements_mirror
    (expressions : ExpressionsMirror matching fuel)
    (statements : StatementsMirror matching fuel) :
    StatementsMirror matching (fuel + 1) := by
  intro statement statement' copies
  cases copies with
  | expression value => exact (expressions _ _ value).discard
  | print value =>
      refine (expressions _ _ value).bind ?_
      rintro found _ rfl
      exact printValue_mirror found
  | varDeclaration name initializer =>
      cases initializer with
      | none =>
          unfold execute
          rw [name.text]
          exact defineHere_mirror _ _
      | some value =>
          refine (expressions _ _ value).bind ?_
          rintro found _ rfl
          rw [name.text]
          exact defineHere_mirror _ _
  | block body =>
      refine .get fun left right copies => ?_
      unfold inNewScope
      rw [copies.scope]
      refine (newScope_mirror _ _).bind ?_
      rintro scope _ rfl
      exact within_mirror scope (.forM body statements)
  | branch condition consequent alternative =>
      refine (expressions _ _ condition).bind ?_
      rintro found _ rfl
      refine .either Iff.rfl (statements _ _ consequent) ?_
      cases alternative with
      | none => exact .pure rfl
      | some other => exact statements _ _ other
  | loop condition body =>
      refine (expressions _ _ condition).bind ?_
      rintro found _ rfl
      refine .either Iff.rfl ?_ (.pure rfl)
      -- Another round is the same loop with less fuel.
      exact (statements _ _ body).bind fun _ _ _ => statements _ _ (.loop condition body)
  | functionDeclaration declaration => exact declareFunction_mirror declaration
  | returnValue lines value =>
      cases value with
      | none => exact .throw (.returned lines)
      | some value =>
          refine (expressions _ _ value).bind ?_
          rintro found _ rfl
          exact .throw (.returned lines)
  | classDeclaration name superclass methods => exact declareClass_mirror name superclass methods

/-- Calls of copies mirror each other if everything with less fuel does. -/
theorem calls_mirror
    (statements : StatementsMirror matching fuel)
    (calls : CallsMirror matching fuel) :
    CallsMirror matching (fuel + 1) := by
  intro callee callee' same arguments
  cases same with
  | native => exact readClock_mirror
  | function functions =>
      refine (activate_mirror functions arguments).bind ?_
      rintro scope _ rfl
      have bodies := within_mirror scope (Mirrors.forM functions.declaration.body statements)
      refine (returning_mirror bodies).bind ?_
      rintro result _ rfl
      exact callResult_mirror functions result
  | @classObject classId =>
      refine (newInstance_mirror classId).bind ?_
      rintro object _ rfl
      refine .get fun left right copies => ?_
      rcases eq_none_or_some_of_rel (copies.heap.findMethod? classId constructorName) with
        ⟨none, none'⟩ | ⟨method, method', known, known', methods⟩
      · rw [none, none']
        exact .pure rfl
      · rw [known, known']
        refine (bindMethod_mirror methods object).bind fun bound bound' functions => ?_
        have constructed := (calls _ _ (.function functions) arguments).discard
        exact constructed.bind fun _ _ _ => .pure rfl

/-- Whatever copies are run, with any fuel, they mirror each other. -/
theorem everything_mirror (matching : Matching) (fuel : Nat) :
    ExpressionsMirror matching fuel ∧
      StatementsMirror matching fuel ∧
      CallsMirror matching fuel := by
  induction fuel with
  | zero =>
      exact ⟨fun _ _ _ => .throw .exhausted, fun _ _ _ => .throw .exhausted,
        fun _ _ _ _ => .throw .exhausted⟩
  | succ fuel inductionHypothesis =>
      obtain ⟨expressions, statements, calls⟩ := inductionHypothesis
      exact ⟨expressions_mirror expressions calls, statements_mirror expressions statements,
        calls_mirror statements calls⟩

/-- Copies of a program end alike, also where a return stops both of them. -/
theorem interpret_mirror
    {program program' : List Stmt}
    (copies : List.Forall₂ (StmtCopies matching) program program')
    (fuel : Nat) :
    Mirror matching Eq (interpret fuel program) (interpret fuel program') := by
  intro left right related
  have ended := Mirrors.forM copies (everything_mirror matching fuel).2.1 left right related
  unfold interpret executeAll
  generalize program.forM (execute fuel) left = outcome at ended ⊢
  generalize program'.forM (execute fuel) right = outcome' at ended ⊢
  cases ended with
  | ok same further => exact .ok same further
  | error alike further =>
      cases alike with
      | returned lines => exact .error (.error (.typeFault (.returnOutsideFunction lines))) further
      | error raised => exact .error (.error raised) further
      | mismatch => exact .error .mismatch further
      | exhausted => exact .error .exhausted further

end Lox.Execution
