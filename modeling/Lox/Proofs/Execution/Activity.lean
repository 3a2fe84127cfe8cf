import Lox.Proofs.Execution.Courses
import Lox.Proofs.Execution.Origins
import Lox.Proofs.Execution.Returns

namespace Lox.Execution

/-!
# The activity of a function

The statements that a body begins, in their order, without those of the functions that it
calls.  As a return leaves the body, the only return that is completed is the last
statement of all.
-/

/-! ## Statements that are begun -/

/-- A statement, begun with some fuel in some state. -/
structure Begun where
  fuel : Nat
  single : Stmt
  state : State

/-- A return that is begun gives its value, and is over. -/
def Begun.Returns (begun : Begun) (value : Value) : Prop :=
  ∃ line result final, begun.single = .returnValue line result ∧
    execute begun.fuel begun.single begun.state = .error (.returned line value) final

/-- What is begun behind an action, if that has a value. -/
def begunBehind (outcome : EStateM.Result Exit State α) (next : α → State → List β) :
    List β :=
  match outcome with
  | .ok value after => next value after
  | .error _ _ => []

/-- What statements in a row begin, as each of them begins it. -/
def activityOf (each : Stmt → State → List Begun) (run : Stmt → Eval Unit) :
    List Stmt → State → List Begun
  | [], _ => []
  | first :: rest, state =>
      each first state ++
        begunBehind (run first state) fun _ after => activityOf each run rest after

/-- No return is completed. -/
def NoneReturns (log : List Begun) : Prop :=
  ∀ begun ∈ log, ∀ value, ¬ begun.Returns value

/-- The last statement is a return that is completed with a value, and the only one. -/
def LastReturns (log : List Begun) (value : Value) : Prop :=
  ∃ before last, log = before ++ [last] ∧ last.Returns value ∧ NoneReturns before

/-- An action is left by a return exactly if this is the last statement that has been begun. -/
def Logged (log : List Begun) : EStateM.Result Exit State α → Prop
  | .error (.returned _ value) _ => LastReturns log value
  | _ => NoneReturns log

section

variable {α β : Type} {log : List Begun} {fuel : Nat} {state : State}

/-! ## The activity of actions in a row -/

theorem noneReturns_nil : NoneReturns [] :=
  nofun

theorem NoneReturns.append {more : List Begun} (first : NoneReturns log)
    (second : NoneReturns more) :
    NoneReturns (log ++ more) := by
  intro begun member
  rcases List.mem_append.mp member with before | behind
  · exact first begun before
  · exact second begun behind

theorem LastReturns.behind {more : List Begun} {value : Value} (first : NoneReturns log)
    (second : LastReturns more value) :
    LastReturns (log ++ more) value := by
  obtain ⟨before, last, rfl, returns, none⟩ := second
  exact ⟨log ++ before, last, (List.append_assoc _ _ _).symm, returns, first.append none⟩

theorem Logged.behind {more : List Begun} {outcome : EStateM.Result Exit State α}
    (first : NoneReturns log)
    (second : Logged more outcome) :
    Logged (log ++ more) outcome := by
  cases outcome with
  | ok value after => exact first.append second
  | error exit after =>
      cases exit with
      | returned line value => exact LastReturns.behind first second
      | _ => exact NoneReturns.append first second

/-- What is begun by two actions in a row is begun by the first, and then by the second. -/
theorem Logged.bind
    {first : Eval α}
    {next : α → Eval β}
    {more : α → State → List Begun}
    (head : Logged log (first state))
    (tail : ∀ value after, first state = .ok value after →
      Logged (more value after) (next value after)) :
    Logged (log ++ begunBehind (first state) more) ((first >>= next) state) := by
  rw [bind_apply]
  cases given : first state with
  | ok value after =>
      rw [given] at head
      exact (tail value after given).behind head
  | error exit after =>
      rw [given] at head
      rw [begunBehind, List.append_nil]
      cases exit <;> exact head

theorem Logged.mapState
    {outcome : EStateM.Result Exit State α}
    (logged : Logged log outcome)
    (change : State → State) :
    Logged log (mapState change outcome) := by
  cases outcome with
  | ok value after => exact logged
  | error exit after => cases exit <;> exact logged

/-- A statement that is no return is begun before all that it begins. -/
theorem Logged.cons
    {begun : Begun}
    {outcome : EStateM.Result Exit State α}
    (logged : Logged log outcome)
    (noReturn : ∀ line result, begun.single ≠ .returnValue line result) :
    Logged (begun :: log) outcome := by
  have none : NoneReturns [begun] := by
    intro other member value
    obtain rfl := List.mem_singleton.mp member
    rintro ⟨line, result, -, isReturn, -⟩
    exact noReturn line result isReturn
  exact logged.behind none

theorem Logged.activityOf
    {each : Stmt → State → List Begun}
    {run : Stmt → Eval Unit}
    (logged : ∀ single state, Logged (each single state) (run single state))
    (body : List Stmt)
    (state : State) :
    Logged (activityOf each run body state) (body.forM run state) := by
  induction body generalizing state with
  | nil => exact noneReturns_nil
  | cons first rest inductionHypothesis =>
      exact (logged first state).bind fun _ after _ => inductionHypothesis after

/-! ## The activity of a statement -/

/-- The task of a statement that is begun. -/
def Begun.task (begun : Begun) : Task :=
  .statement begun.fuel begun.single

variable {task later : Task} {middle after : State} {begun : Begun} {body : List Stmt}

theorem mem_begunBehind
    {outcome : EStateM.Result Exit State α}
    {next : α → State → List β}
    {begun : β} :
    begun ∈ begunBehind outcome next ↔
      ∃ value after, outcome = .ok value after ∧ begun ∈ next value after := by
  cases outcome with
  | ok value after => simp [begunBehind]
  | error exit after => simp [begunBehind]

end

end Lox.Execution
