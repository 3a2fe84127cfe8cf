import Lox.Proofs.Execution.LockstepRuns
import Lox.Proofs.Execution.Agreement

namespace Lox.Execution

/-!
# Tasks of a run that is its own twin

A run that is its own twin consists of tasks that are.  So what a pairing admits at an
occurrence holds wherever the run comes to it, with the labels of the scopes that are
around it then.
-/

/-- A state that is its own twin, with the labels of the scopes around. -/
def TwinPoint (pairing : Pairing) (levels : List Label) (state : State) : Prop :=
  ∃ labels,
    StateTwins pairing labels state state ∧
      Layered pairing labels state.heap state.scope levels

/-- A task that is its own twin, in the initializer of a given variable. -/
def TaskTwins (pairing : Pairing) (state : State) (initializing : Option String) : Task → Prop
  | .expression _ value =>
      ∃ levels, TwinPoint pairing levels state ∧
        ExprTwins pairing levels initializing value value
  | .arguments _ values =>
      ∃ levels, TwinPoint pairing levels state ∧
        List.Forall₂ (ExprTwins pairing levels initializing) values values
  | .statement _ statement =>
      ∃ levels, TwinPoint pairing levels state ∧ StmtTwins pairing levels statement statement
  | .statements _ body =>
      ∃ levels, TwinPoint pairing levels state ∧ BodyTwins pairing levels body body
  | .call _ callee _ =>
      ∃ labels, StateTwins pairing labels state state ∧
        CalleeTwins pairing labels state.heap callee callee

section

variable {pairing : Pairing} {levels : List Label} {initializing : Option String}
  {fuel : Nat} {state after : State} {first : Task}

/-! ## Behind a step -/

/-- Behind a step that is in lockstep with itself, a state is still its own twin. -/
theorem Lockstep.self
    {α : Type}
    {labels : List Label}
    {step : Eval α}
    {good : List Label → State → α → α → Prop}
    {value : α}
    (steps : Lockstep pairing labels step state step state good)
    (given : step state = .ok value after) :
    ∃ later, Onward pairing labels state later after after ∧ good later after value value := by
  obtain ⟨later, value', after', given', onward, fine⟩ := steps.ok given
  rw [given] at given'
  obtain ⟨rfl, rfl⟩ := EStateM.Result.ok.inj given'
  exact ⟨later, onward, fine⟩

theorem TwinPoint.behind
    {α : Type}
    {step : Eval α}
    {good : List Label → State → α → α → Prop}
    {value : α}
    (point : TwinPoint pairing levels state)
    (steps : ∀ labels, StateTwins pairing labels state state →
      Layered pairing labels state.heap state.scope levels →
      Lockstep pairing labels step state step state good)
    (given : step state = .ok value after) :
    TwinPoint pairing levels after := by
  obtain ⟨labels, twins, layered⟩ := point
  obtain ⟨later, onward, -⟩ := (steps labels twins layered).self given
  exact ⟨later, onward.twins, onward.layered layered⟩

theorem TwinPoint.evaluated
    {value : Expr}
    {found : Value}
    (point : TwinPoint pairing levels state)
    (same : ExprTwins pairing levels initializing value value)
    (given : evaluate fuel value state = .ok found after) :
    TwinPoint pairing levels after :=
  point.behind
    (fun _ twins layered => (everything_lockstep pairing fuel).1 twins layered same) given

theorem TwinPoint.executed
    {statement : Stmt}
    (point : TwinPoint pairing levels state)
    (same : StmtTwins pairing levels statement statement)
    (given : execute fuel statement state = .ok () after) :
    TwinPoint pairing levels after :=
  point.behind
    (fun _ twins layered => (everything_lockstep pairing fuel).2.1 twins layered same) given

/-! ## What a task starts -/

theorem argumentsTwins_starts
    {values : List Expr}
    (starts : Starts (.arguments fuel values) state first after)
    (same : TaskTwins pairing state initializing (.arguments fuel values)) :
    TaskTwins pairing after initializing first := by
  obtain ⟨levels, point, both⟩ := same
  cases starts with
  | firstArgument =>
      cases both with
      | cons one _ => exact ⟨levels, point, one⟩
  | otherArguments given =>
      cases both with
      | cons one others => exact ⟨levels, point.evaluated one given, others⟩

theorem expressionTwins_starts
    {value : Expr}
    (starts : Starts (.expression fuel value) state first after)
    (same : TaskTwins pairing state initializing (.expression fuel value)) :
    TaskTwins pairing after initializing first := by
  obtain ⟨levels, point, both⟩ := same
  cases starts with
  | grouping =>
      cases both with
      | grouping inner => exact ⟨levels, point, inner⟩
  | operand =>
      cases both with
      | unary _ operand => exact ⟨levels, point, operand⟩
  | leftOperand =>
      cases both with
      | binary _ left _ => exact ⟨levels, point, left⟩
  | rightOperand given =>
      cases both with
      | binary _ left right => exact ⟨levels, point.evaluated left given, right⟩
  | leftCondition =>
      cases both with
      | logical left _ => exact ⟨levels, point, left⟩
  | rightCondition given _ =>
      cases both with
      | logical left right => exact ⟨levels, point.evaluated left given, right⟩
  | assigned =>
      cases both with
      | assign value _ _ => exact ⟨levels, point, value⟩
  | callee =>
      cases both with
      | call _ callee _ => exact ⟨levels, point, callee⟩
  | arguments given =>
      cases both with
      | call _ callee others => exact ⟨levels, point.evaluated callee given, others⟩
  | call givenCallee givenArguments givenFound =>
      cases both with
      | call lines callee others =>
          obtain ⟨labels, twins, layered⟩ := (point.evaluated callee givenCallee).behind
            (fun _ twins layered =>
              arguments_lockstep (everything_lockstep pairing _).1 twins layered others)
            givenArguments
          obtain ⟨later, onward, found⟩ :=
            (calleeFor_lockstep twins lines _ _).self givenFound
          exact ⟨later, onward.twins, found⟩
  | object =>
      cases both with
      | property object _ _ => exact ⟨levels, point, object⟩
  | owner =>
      cases both with
      | setProperty object _ _ _ => exact ⟨levels, point, object⟩
  | field givenObject givenOwner =>
      cases both with
      | setProperty object _ reports value =>
          have owned := (point.evaluated object givenObject).behind
            (fun _ twins _ => fieldOwner_lockstep twins reports _) givenOwner
          exact ⟨levels, owned, value⟩

theorem statementTwins_starts
    {statement : Stmt}
    (starts : Starts (.statement fuel statement) state first after)
    (same : TaskTwins pairing state initializing (.statement fuel statement)) :
    TaskTwins pairing after ((Task.statement fuel statement).initializing initializing)
      first := by
  obtain ⟨levels, point, both⟩ := same
  cases starts with
  | effect =>
      cases both with
      | expression value => exact ⟨levels, point, value⟩
  | printed =>
      cases both with
      | print value => exact ⟨levels, point, value⟩
  | initializer =>
      cases both with
      | initialized _ value => exact ⟨levels, point, value⟩
  | block given =>
      cases both with
      | block body =>
          obtain ⟨labels, twins, layered⟩ := point
          obtain ⟨later, onward, -, inside⟩ :=
            (newScope_lockstep twins layered (.empty _)).self given
          exact ⟨_, ⟨later, { onward.twins with scope := rfl }, inside⟩, body⟩
  | condition =>
      cases both with
      | conditional condition _ => exact ⟨levels, point, condition⟩
      | alternative condition _ _ => exact ⟨levels, point, condition⟩
  | consequent given _ =>
      cases both with
      | conditional condition consequent =>
          exact ⟨levels, point.evaluated condition given, consequent⟩
      | alternative condition consequent _ =>
          exact ⟨levels, point.evaluated condition given, consequent⟩
  | alternative given _ =>
      cases both with
      | alternative condition _ alternative =>
          exact ⟨levels, point.evaluated condition given, alternative⟩
  | loopCondition =>
      cases both with
      | loop condition _ => exact ⟨levels, point, condition⟩
  | round given _ =>
      cases both with
      | loop condition body => exact ⟨levels, point.evaluated condition given, body⟩
  | nextRound given _ givenRound =>
      cases both with
      | loop condition body =>
          have behind := (point.evaluated condition given).executed body givenRound
          exact ⟨levels, behind, .loop condition body⟩
  | returned =>
      cases both with
      | returnValue _ value => exact ⟨levels, point, value⟩
  | superclass =>
      cases both with
      | subclass _ _ parent admits _ => exact ⟨levels, point, .reference parent admits⟩

theorem statementsTwins_starts
    {body : List Stmt}
    (starts : Starts (.statements fuel body) state first after)
    (same : TaskTwins pairing state initializing (.statements fuel body)) :
    TaskTwins pairing after none first := by
  obtain ⟨levels, point, both⟩ := same
  cases starts with
  | firstStatement =>
      cases both with
      | cons one _ => exact ⟨levels, point, one⟩
  | otherStatements given =>
      cases both with
      | cons one others => exact ⟨levels, point.executed one given, others⟩

theorem callTwins_starts
    {callee : Callee}
    {arguments : List Value}
    (starts : Starts (.call fuel callee arguments) state first after)
    (same : TaskTwins pairing state initializing (.call fuel callee arguments)) :
    TaskTwins pairing after none first := by
  obtain ⟨labels, twins, both⟩ := same
  cases starts with
  | functionBody given =>
      cases both with
      | function functions =>
          obtain ⟨inside, body, activated⟩ := activate_lockstep twins functions arguments
          obtain ⟨later, onward, -, layered⟩ := activated.self given
          exact ⟨inside, ⟨later, { onward.twins with scope := rfl }, layered⟩, body⟩
  | @construction _ classId _ _ _ _ _ _ _ givenObject found givenMethod =>
      obtain ⟨middle, created, -⟩ := (newInstance_lockstep twins _).self givenObject
      have methods := created.twins.heap.findMethod? classId constructorName
      rw [found] at methods
      cases methods with
      | some method =>
          obtain ⟨later, onward, function⟩ :=
            (bindMethod_lockstep created.twins method _).self givenMethod
          exact ⟨later, onward.twins, .function function⟩

/-- What a task starts is its own twin if the task is. -/
theorem TaskTwins.of_starts
    {task : Task}
    (starts : Starts task state first after)
    (same : TaskTwins pairing state initializing task) :
    TaskTwins pairing after (task.initializing initializing) first := by
  cases task with
  | expression _ _ => exact expressionTwins_starts starts same
  | arguments _ _ => exact argumentsTwins_starts starts same
  | statement _ _ => exact statementTwins_starts starts same
  | statements _ _ => exact statementsTwins_starts starts same
  | call _ _ _ => exact callTwins_starts starts same

/-- Whatever is reached from a task is ready and its own twin if the task is. -/
theorem ready_and_twins_of_reaches
    {resolved : Scoping.Settlement → Prop}
    {task later : Task}
    (reaches : Reaches task state later after)
    (ready : TaskReadyIn resolved state initializing task)
    (same : TaskTwins pairing state initializing task) :
    ∃ inside,
      TaskReadyIn resolved after inside later ∧ TaskTwins pairing after inside later := by
  induction reaches generalizing initializing with
  | here => exact ⟨initializing, ready, same⟩
  | inside starts _ inductionHypothesis =>
      exact inductionHypothesis (ready.of_starts starts) (same.of_starts starts)

end

end Lox.Execution
