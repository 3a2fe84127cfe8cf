import Lox.Proofs.Execution.CourseRuns
import Lox.Proofs.Execution.Endings
import Lox.Proofs.Execution.Restoration

namespace Lox.Execution

/-!
# What a task reaches ends before it

A task goes on behind everything that it starts.  So a relation that every change of the
heap satisfies holds between the heap in which an inner task ends and the one in which the
task around it ends, however either of them does.
-/

section

variable {relation : State → State → Prop} {α β : Type}

/-- What is done first comes to its end before what is done next. -/
theorem Steady.behind
    (steady : Steady relation)
    {first : Eval α}
    {next : α → Eval β}
    (leaves : ∀ value, Leaves relation (next value))
    (state : State) :
    relation (endState (first state)) (endState ((first >>= next) state)) := by
  rw [bind_apply]
  cases first state with
  | ok value middle => exact leaves value middle
  | error exit middle => exact steady.refl middle

end

/-- A relation between heaps, as one between the states that have them. -/
def BetweenHeaps (relation : Heap → Heap → Prop) (before after : State) : Prop :=
  relation before.heap after.heap

/-- A task leaves the states before and after it as its run does. -/
theorem Steady.run
    {relation : State → State → Prop}
    (steady : Steady relation)
    (task : Task) :
    Leaves relation task.run := by
  cases task with
  | expression fuel value => exact steady.map (steady.evaluate fuel value)
  | arguments fuel values => exact steady.mapM (steady.evaluate fuel) values
  | statement fuel single => exact steady.map (steady.execute fuel single)
  | statements fuel body => exact steady.map (steady.executeAll fuel body)
  | call fuel callee passed => exact steady.map (steady.call fuel callee passed)

/-- A run inside another scope leaves the heap as it is left there. -/
theorem heap_within
    {α : Type}
    (scope : ScopeId)
    (action : Eval α)
    (state : State) :
    (endState (within scope action state)).heap =
      (endState (action { state with scope := scope })).heap := by
  rw [within_apply]
  cases action { state with scope := scope } <;> rfl

/-! ## What a task starts -/

section

variable {relation : Heap → Heap → Prop} {fuel : Nat} {state after : State} {first : Task}

theorem endState_expression (fuel : Nat) (value : Expr) (state : State) :
    endState ((Task.expression fuel value).run state) = endState (evaluate fuel value state) :=
  endState_map _ _ state

theorem endState_statement (fuel : Nat) (single : Stmt) (state : State) :
    endState ((Task.statement fuel single).run state) = endState (execute fuel single state) :=
  endState_map _ _ state

theorem endState_statements (fuel : Nat) (body : List Stmt) (state : State) :
    endState ((Task.statements fuel body).run state) = endState (executeAll fuel body state) :=
  endState_map _ _ state

theorem endState_call (fuel : Nat) (callee : Callee) (passed : List Value) (state : State) :
    endState ((Task.call fuel callee passed).run state) =
      endState (call fuel callee passed state) :=
  endState_map _ _ state

variable (steady : Steady (BetweenHeaps relation))

include steady

/-- Where a part of an expression ends is related to where the expression ends. -/
theorem expression_ends
    {value : Expr}
    (starts : Starts (.expression fuel value) state first after) :
    BetweenHeaps relation (endState (first.run after)) (endState (evaluate fuel value state)) := by
  have composes := steady.composes
  cases starts with
  | grouping =>
      rw [endState_expression]
      exact steady.refl _
  | operand =>
      rw [endState_expression]
      exact steady.behind (fun _ => composes.lift _) state
  | leftOperand =>
      rw [endState_expression]
      exact steady.behind
        (fun _ => composes.bind (composes.evaluate _ _) fun _ => composes.lift _) state
  | rightOperand given =>
      rw [endState_expression, evaluate, bind_of_ok given]
      exact steady.behind (fun _ => composes.lift _) after
  | leftCondition =>
      rw [endState_expression]
      refine steady.behind (fun found => ?_) state
      split
      · exact composes.pure found
      · exact composes.evaluate _ _
  | rightCondition given unsettled =>
      rw [endState_expression, evaluate, bind_of_ok given, unsettled]
      exact steady.refl _
  | assigned =>
      rw [endState_expression]
      exact steady.behind
        (fun _ => composes.bind (composes.assignTo _ _) fun _ => composes.pure _) state
  | callee =>
      rw [endState_expression]
      exact steady.behind (fun _ => composes.bind (composes.mapM (composes.evaluate _) _)
        fun _ => composes.bind (composes.calleeFor _ _ _) fun _ => composes.call _ _ _) state
  | arguments given =>
      rw [evaluate, bind_of_ok given]
      exact steady.behind
        (fun _ => composes.bind (composes.calleeFor _ _ _) fun _ => composes.call _ _ _) after
  | call givenCallee givenArguments givenFound =>
      rw [endState_call, evaluate, bind_of_ok givenCallee, bind_of_ok givenArguments,
        bind_of_ok givenFound]
      exact steady.refl _
  | object =>
      rw [endState_expression]
      exact steady.behind (fun _ => composes.propertyOf _ _) state
  | owner =>
      rw [endState_expression]
      exact steady.behind (fun _ => composes.bind (composes.fieldOwner _ _)
        fun _ => composes.bind (composes.evaluate _ _)
          fun _ => composes.bind (composes.writeField _ _ _) fun _ => composes.pure _) state
  | field givenObject givenOwner =>
      rw [endState_expression, evaluate, bind_of_ok givenObject, bind_of_ok givenOwner]
      exact steady.behind
        (fun _ => composes.bind (composes.writeField _ _ _) fun _ => composes.pure _) after

/-- Where one of the expressions in a row ends is related to where the last one ends. -/
theorem arguments_ends
    {values : List Expr}
    (starts : Starts (.arguments fuel values) state first after) :
    BetweenHeaps relation (endState (first.run after))
      (endState (values.mapM (evaluate fuel) state)) := by
  have composes := steady.composes
  cases starts with
  | firstArgument =>
      rw [endState_expression, List.mapM_cons]
      exact steady.behind (fun _ => composes.bind (composes.mapM (composes.evaluate _) _)
        fun _ => composes.pure _) state
  | otherArguments given =>
      rw [List.mapM_cons, bind_of_ok given]
      exact steady.behind (fun _ => composes.pure _) after

/-- Where a part of a statement ends is related to where the statement ends. -/
theorem statement_ends
    {statement : Stmt}
    (starts : Starts (.statement fuel statement) state first after) :
    BetweenHeaps relation (endState (first.run after))
      (endState (execute fuel statement state)) := by
  have composes := steady.composes
  cases starts with
  | effect =>
      rw [endState_expression]
      exact steady.behind (fun _ => composes.pure _) state
  | printed =>
      rw [endState_expression]
      exact steady.behind composes.printValue state
  | initializer =>
      rw [endState_expression]
      exact steady.behind (fun _ => composes.defineHere _ _) state
  | block given =>
      rw [endState_statements, execute, bind_of_ok (get_apply state), inNewScope,
        bind_of_ok given, BetweenHeaps, heap_within]
      exact steady.refl _
  | condition =>
      rw [endState_expression]
      refine steady.behind (fun found => ?_) state
      split
      · exact composes.execute _ _
      split
      · exact composes.execute _ _
      · exact composes.pure ()
  | @consequent fuel condition consequent alternative _ _ _ given truthy =>
      have ran : execute (fuel + 1) (.branch condition consequent alternative) state =
          execute fuel consequent after := by
        cases alternative <;> rw [execute, bind_of_ok given, if_pos truthy]
      rw [endState_statement, ran]
      exact steady.refl _
  | alternative given falsy =>
      rw [endState_statement, execute, bind_of_ok given, if_neg (by simp [falsy])]
      exact steady.refl _
  | loopCondition =>
      rw [endState_expression]
      refine steady.behind (fun found => ?_) state
      split
      · exact composes.bind (composes.execute _ _) fun _ => composes.execute _ _
      · exact composes.pure ()
  | round given truthy =>
      rw [endState_statement, execute, bind_of_ok given, if_pos truthy]
      exact steady.behind (fun _ => composes.execute _ _) after
  | nextRound given truthy givenRound =>
      rw [endState_statement, execute, bind_of_ok given, if_pos truthy, bind_of_ok givenRound]
      exact steady.refl _
  | returned =>
      rw [endState_expression]
      exact steady.behind (fun _ => composes.throw _) state
  | @superclass _ name parent methods =>
      rw [endState_expression]
      have named : BetweenHeaps relation (endState (lookUp parent.id parent.name state))
          (endState (superclassOf parent state)) := by
        refine steady.behind (fun found => ?_) state
        split
        · exact composes.pure _
        · exact composes.throw _
      refine steady.trans named ?_
      rw [execute, declareClass_some]
      refine steady.behind (fun id => ?_) state
      refine composes.bind (composes.defineHere _ _) fun _ => ?_
      exact composes.read (fun _ _ => rfl) fun _ =>
        composes.bind (composes.newScope _ _) fun _ => composes.defineClass _ _

/-- Where one of the statements in a row ends is related to where the last one ends. -/
theorem statements_ends
    {body : List Stmt}
    (starts : Starts (.statements fuel body) state first after) :
    BetweenHeaps relation (endState (first.run after)) (endState (executeAll fuel body state)) := by
  have composes := steady.composes
  cases starts with
  | firstStatement =>
      rw [endState_statement]
      exact steady.behind (fun _ => composes.executeAll _ _) state
  | @otherStatements _ single rest _ _ given =>
      have ran : executeAll fuel (single :: rest) state = executeAll fuel rest after :=
        bind_of_ok given _
      rw [endState_statements, ran]
      exact steady.refl _

/-- Where a part of a call ends is related to where the call ends. -/
theorem call_ends
    {callee : Callee}
    {passed : List Value}
    (starts : Starts (.call fuel callee passed) state first after) :
    BetweenHeaps relation
      (endState (first.run after)) (endState (call fuel callee passed state)) := by
  have composes := steady.composes
  cases starts with
  | @functionBody fuel function _ _ scope after given =>
      have inside := heap_within scope (executeAll fuel function.declaration.body) after
      rw [endState_statements, call, bind_of_ok given, BetweenHeaps, ← inside, ← endState_returning]
      exact steady.behind (fun _ => composes.callResult _ _) after
  | construction givenObject found givenMethod =>
      rw [endState_call, call, bind_of_ok givenObject, bind_of_ok (get_apply _), found]
      dsimp only
      rw [bind_of_ok givenMethod]
      -- The result of the constructor is dropped before the instance is given.
      refine steady.trans ?_ (steady.behind (fun _ => composes.pure _) after)
      exact steady.behind (fun _ => composes.pure _) after

/-- The heap that an inner task leaves behind comes before that of the task around it. -/
theorem Starts.ends {task : Task} (starts : Starts task state first after) :
    BetweenHeaps relation (endState (first.run after)) (endState (task.run state)) := by
  cases task with
  | expression _ _ =>
      rw [endState_expression]
      exact expression_ends steady starts
  | arguments _ _ => exact arguments_ends steady starts
  | statement _ _ =>
      rw [endState_statement]
      exact statement_ends steady starts
  | statements _ _ =>
      rw [endState_statements]
      exact statements_ends steady starts
  | call _ _ _ =>
      rw [endState_call]
      exact call_ends steady starts

/-- Where a reached task ends is related to where the task that reaches it ends. -/
theorem Reaches.ends {task later : Task} (reaches : Reaches task state later after) :
    BetweenHeaps relation (endState (later.run after)) (endState (task.run state)) := by
  induction reaches with
  | here => exact steady.refl _
  | inside starts _ inductionHypothesis =>
      exact steady.trans inductionHypothesis (starts.ends steady)

end

end Lox.Execution
