import Lox.Proofs.Execution.Endings

namespace Lox.Execution

/-!
# More fuel

A run that does not use up its fuel is the same with more of it.  Of the ways in which a
run can end, only the want of fuel depends on how much of it there was.
-/

/-- A run has been broken off for want of fuel. -/
def Exhausted {α : Type} (outcome : EStateM.Result Exit State α) : Prop :=
  ∃ after, outcome = .error .exhausted after

/-- What lacks fuel inside of another scope lacks it outside. -/
theorem Exhausted.within
    {α : Type}
    {action : Eval α}
    {scope : ScopeId}
    (state : State)
    (lacks : Exhausted (action { state with scope := scope })) :
    Exhausted (within scope action state) := by
  obtain ⟨after, short⟩ := lacks
  exact ⟨{ after with scope := state.scope }, by simp [Execution.within, short]⟩

/-- A computation that ends like another one, unless that is broken off for want of fuel. -/
def Continues {α : Type} (first second : Eval α) : Prop :=
  ∀ state, Exhausted (first state) ∨ second state = first state

namespace Continues

variable {α β : Type}

theorem refl (action : Eval α) : Continues action action :=
  fun _ => .inr rfl

/-- What has no fuel at all is continued by everything. -/
theorem exhausted (action : Eval α) : Continues (throw .exhausted) action :=
  fun state => .inl ⟨state, rfl⟩

/-! ## Steps in a row -/

theorem bind
    {first second : Eval α}
    {next next' : α → Eval β}
    (head : Continues first second)
    (tail : ∀ value, Continues (next value) (next' value)) :
    Continues (first >>= next) (second >>= next') := by
  intro state
  rw [bind_apply, bind_apply]
  rcases head state with ⟨after, short⟩ | same
  · exact .inl ⟨after, by rw [short]⟩
  rw [same]
  cases first state with
  | ok value middle => exact tail value middle
  | error exit middle => exact .inr rfl

theorem read
    {next next' : State → Eval α}
    (tail : ∀ state, Continues (next state) (next' state)) :
    Continues (get >>= next) (get >>= next') :=
  bind (.refl get) tail

theorem map
    {first second : Eval α}
    (head : Continues first second)
    (convert : α → β) :
    Continues (convert <$> first) (convert <$> second) := by
  rw [map_eq_pure_bind, map_eq_pure_bind]
  exact head.bind fun value => .refl (pure (convert value))

theorem either
    {condition : Prop}
    [Decidable condition]
    {first second other other' : Eval α}
    (consequent : Continues first second)
    (alternative : Continues other other') :
    Continues (if condition then first else other) (if condition then second else other') := by
  by_cases holds : condition
  · rw [if_pos holds, if_pos holds]
    exact consequent
  · rw [if_neg holds, if_neg holds]
    exact alternative

theorem mapM
    {step step' : α → Eval β}
    (steps : ∀ value, Continues (step value) (step' value))
    (values : List α) :
    Continues (values.mapM step) (values.mapM step') := by
  induction values with
  | nil => exact .refl _
  | cons first rest inductionHypothesis =>
      rw [List.mapM_cons, List.mapM_cons]
      refine (steps first).bind fun value => ?_
      exact inductionHypothesis.bind fun values => .refl _

theorem forM
    {step step' : α → Eval PUnit}
    (steps : ∀ value, Continues (step value) (step' value))
    (values : List α) :
    Continues (values.forM step) (values.forM step') := by
  induction values with
  | nil => exact .refl _
  | cons first rest inductionHypothesis =>
      exact (steps first).bind fun _ => inductionHypothesis

theorem within
    {first second : Eval α}
    (inner : Continues first second)
    (scope : ScopeId) :
    Continues (within scope first) (within scope second) := by
  intro state
  rcases inner { state with scope := scope } with lacks | same
  · exact .inl (.within state lacks)
  · exact .inr (by rw [Execution.within, Execution.within, same])

/-- A body that has no fuel left does not end at a return. -/
theorem returning
    {first second : Eval Unit}
    (inner : Continues first second) :
    Continues (returning first) (returning second) := by
  intro state
  unfold Execution.returning
  rcases inner state with ⟨after, short⟩ | same
  · exact .inl ⟨after, by rw [short]⟩
  · exact .inr (by rw [same])

end Continues

/-! ## Runs -/

section

variable {fuel more : Nat}

/-- With one more round of fuel an expression goes on, if everything inside of it does. -/
theorem evaluate_continues
    (expressions : ∀ value, Continues (evaluate fuel value) (evaluate more value))
    (calls : ∀ callee arguments,
      Continues (call fuel callee arguments) (call more callee arguments))
    (value : Expr) :
    Continues (evaluate (fuel + 1) value) (evaluate (more + 1) value) := by
  cases value with
  | literal _ => exact .refl _
  | grouping inner => exact expressions inner
  | unary _ _ operand => exact (expressions operand).bind fun _ => .refl _
  | binary _ _ left right =>
      refine (expressions left).bind fun _ => ?_
      exact (expressions right).bind fun _ => .refl _
  | logical _ left right =>
      exact (expressions left).bind fun _ => .either (.refl _) (expressions right)
  | reference _ => exact .refl _
  | assign _ value => exact (expressions value).bind fun _ => .refl _
  | call callee arguments _ =>
      refine (expressions callee).bind fun subject => ?_
      refine (Continues.mapM expressions arguments).bind fun values => ?_
      exact (Continues.refl _).bind fun found => calls found values
  | property object _ => exact (expressions object).bind fun _ => .refl _
  | setProperty object _ value =>
      refine (expressions object).bind fun found => ?_
      refine (Continues.refl _).bind fun owner => ?_
      exact (expressions value).bind fun _ => .refl _
  | this _ _ => exact .refl _
  | super _ _ _ => exact .refl _

/-- With one more round of fuel a statement goes on, if everything inside of it does. -/
theorem execute_continues
    (expressions : ∀ value, Continues (evaluate fuel value) (evaluate more value))
    (statements : ∀ single, Continues (execute fuel single) (execute more single))
    (single : Stmt) :
    Continues (execute (fuel + 1) single) (execute (more + 1) single) := by
  cases single with
  | expression value => exact (expressions value).map _
  | print value => exact (expressions value).bind fun _ => .refl _
  | varDeclaration _ initializer =>
      cases initializer with
      | none => exact .refl _
      | some value => exact (expressions value).bind fun _ => .refl _
  | block body =>
      refine .read fun state => ?_
      exact (Continues.refl _).bind fun scope => (Continues.forM statements body).within scope
  | branch condition consequent alternative =>
      refine (expressions condition).bind fun _ => .either (statements consequent) ?_
      cases alternative with
      | none => exact .refl _
      | some other => exact statements other
  | loop condition body =>
      refine (expressions condition).bind fun _ => .either ?_ (.refl _)
      -- Another round is the same loop with less fuel.
      exact (statements body).bind fun _ => statements (.loop condition body)
  | functionDeclaration _ => exact .refl _
  | returnValue _ value =>
      cases value with
      | none => exact .refl _
      | some value => exact (expressions value).bind fun _ => .refl _
  | classDeclaration _ _ _ => exact .refl _

/-- With one more round of fuel a call goes on, if everything inside of it does. -/
theorem call_continues
    (statements : ∀ single, Continues (execute fuel single) (execute more single))
    (calls : ∀ callee arguments,
      Continues (call fuel callee arguments) (call more callee arguments))
    (callee : Callee)
    (arguments : List Value) :
    Continues (call (fuel + 1) callee arguments) (call (more + 1) callee arguments) := by
  cases callee with
  | native _ => exact .refl _
  | function function =>
      refine (Continues.refl _).bind fun scope => ?_
      have body := Continues.forM statements function.declaration.body
      exact (body.within scope).returning.bind fun _ => .refl _
  | classObject classId =>
      refine (Continues.refl _).bind fun object => .read fun state => ?_
      cases state.heap.findMethod? classId constructorName with
      | none => exact .refl _
      | some constructor =>
          refine (Continues.refl _).bind fun bound => ?_
          exact ((calls (.function bound) arguments).map _).bind fun _ => .refl _

/-- Whatever is run goes on in the same way when there is more fuel. -/
theorem everything_continues (enough : fuel ≤ more) :
    (∀ value, Continues (evaluate fuel value) (evaluate more value)) ∧
      (∀ single, Continues (execute fuel single) (execute more single)) ∧
      ∀ callee arguments,
        Continues (call fuel callee arguments) (call more callee arguments) := by
  induction fuel generalizing more with
  | zero =>
      exact ⟨fun _ => .exhausted _, fun _ => .exhausted _, fun _ _ => .exhausted _⟩
  | succ fuel inductionHypothesis =>
      cases more with
      | zero => exact absurd enough (Nat.not_succ_le_zero fuel)
      | succ more =>
          obtain ⟨expressions, statements, calls⟩ :=
            inductionHypothesis (Nat.le_of_succ_le_succ enough)
          exact ⟨evaluate_continues expressions calls,
            execute_continues expressions statements, call_continues statements calls⟩

end

end Lox.Execution
