import Lox.Proofs.Execution.Preservation

namespace Lox.Execution

open Scoping

/-!
# Resolution and evaluation agree on the scopes

Every task that is reached from one at a covered place is itself at a covered
place.  So where a node is evaluated, the scope at the distance that resolution
has recorded for it holds what the node looks for.
-/

/-- A task is ready to run at some place of the program it belongs to. -/
def TaskReady (resolved : Settlement → Prop) (state : State) : Task → Prop
  | .expression _ value =>
      ∃ place initializing, value.Proper ∧
        Ready resolved place initializing (value.sites place initializing) state
  | .arguments _ values =>
      ∃ place initializing, Expr.AllProper values ∧
        Ready resolved place initializing (Expr.sitesOfAll place initializing values) state
  | .statement _ statement =>
      ∃ place, statement.Proper ∧
        Ready resolved place none (statement.sites place) state
  | .statements _ body =>
      ∃ place, Stmt.AllProper body ∧
        Ready resolved place none (Stmt.sitesOfAll place body) state
  | .call _ callee arguments =>
      Coherent state.distances resolved state.heap ∧
        LiveCallee state.distances resolved state.heap arguments.length callee

/--
The variable in whose initializer the expressions stand that a task starts, if the task
itself stands in a given one.  The superclass of a class stands in that of its name.
-/
def Task.initializing : Task → Option String → Option String
  | .expression _ _, outer => outer
  | .arguments _ _, outer => outer
  | .statement _ (.varDeclaration name _), _ => some name.text
  | .statement _ (.classDeclaration name _ _), _ => some name.text
  | _, _ => none

/-- A task is ready to run in the initializer of a given variable, if it is an expression. -/
def TaskReadyIn (resolved : Settlement → Prop) (state : State) (initializing : Option String) :
    Task → Prop
  | .expression _ value =>
      ∃ place, value.Proper ∧
        Ready resolved place initializing (value.sites place initializing) state
  | .arguments _ values =>
      ∃ place, Expr.AllProper values ∧
        Ready resolved place initializing (Expr.sitesOfAll place initializing values) state
  | .statement fuel statement => TaskReady resolved state (.statement fuel statement)
  | .statements fuel body => TaskReady resolved state (.statements fuel body)
  | .call fuel callee arguments => TaskReady resolved state (.call fuel callee arguments)

section

variable {resolved : Settlement → Prop} {fuel : Nat} {state after : State}
  {first : Task} {initializing : Option String}

theorem taskReady_iff {task : Task} :
    TaskReady resolved state task ↔
      ∃ initializing, TaskReadyIn resolved state initializing task := by
  cases task with
  | expression _ _ => exact exists_comm
  | arguments _ _ => exact exists_comm
  | _ => exact ⟨fun ready => ⟨none, ready⟩, fun ⟨_, ready⟩ => ready⟩

/-! ## What a task starts is ready -/

/-- What is ready before an expression is ready behind it. -/
theorem Ready.behind
    {place : Place}
    {initializing : Option String}
    {value : Expr}
    {others : List Site}
    {found : Value}
    (ready : Ready resolved place initializing others state)
    (proper : value.Proper)
    (evaluated : Ready resolved place initializing (value.sites place initializing) state)
    (given : evaluate fuel value state = .ok found after) :
    Ready resolved place initializing others after := by
  have keeps := (everything_keeps resolved fuel).1 proper evaluated
  exact ready.later (keeps.ok given).1 (keeps.ok given).2.1

/-- A statement that has ended stands behind itself. -/
theorem Ready.ended
    {place : Place}
    {statement : Stmt}
    (ready : Ready resolved place none (statement.sites place) state)
    (proper : statement.Proper)
    (given : execute fuel statement state = .ok () after) :
    Evolves state after ∧ Coherent after.distances resolved after.heap ∧
      Covers after.heap after.scope (place.declaring statement.declared) none := by
  have keeps := (everything_keeps resolved fuel).2.1 proper ready
  exact keeps.ok given

/-- A found callee is live. -/
theorem live_of_calleeFor
    {subject : Value}
    {count line : Nat}
    {found : Callee}
    (coherent : Coherent state.distances resolved state.heap)
    (given : calleeFor subject count line state = .ok found after) :
    Coherent after.distances resolved after.heap ∧
      LiveCallee after.distances resolved after.heap count found := by
  have keeps : Keeps resolved (calleeFor subject count line) state
      (fun callee after => LiveCallee after.distances resolved after.heap count callee)
      (MayStop (.arguments 0 []) state) :=
    calleeFor_keeps coherent subject count line
  exact (keeps.ok given).2

theorem state_of_fieldOwner
    {object : Value}
    {name : Identifier}
    {owner : InstanceId}
    (given : fieldOwner object name state = .ok owner after) :
    after = state := by
  cases object with
  | instanceObject id => exact (EStateM.Result.ok.inj given).2.symm
  | _ => exact nomatch given

/-- Arguments are ready one after another. -/
theorem argumentsReady_starts
    {values : List Expr}
    (starts : Starts (.arguments fuel values) state first after)
    (ready : TaskReadyIn resolved state initializing (.arguments fuel values)) :
    TaskReadyIn resolved after initializing first := by
  obtain ⟨place, proper, inside⟩ := ready
  cases starts with
  | firstArgument => exact ⟨place, proper.1, inside.left⟩
  | otherArguments given =>
      exact ⟨place, proper.2, inside.right.behind proper.1 inside.left given⟩

/-- What an expression starts is ready. -/
theorem expressionReady_starts
    {value : Expr}
    (starts : Starts (.expression fuel value) state first after)
    (ready : TaskReadyIn resolved state initializing (.expression fuel value)) :
    TaskReadyIn resolved after initializing first := by
  obtain ⟨place, proper, inside⟩ := ready
  cases starts with
  | grouping => exact ⟨place, proper, inside⟩
  | operand => exact ⟨place, proper, inside⟩
  | leftOperand => exact ⟨place, proper.1, inside.left⟩
  | rightOperand given =>
      exact ⟨place, proper.2, inside.right.behind proper.1 inside.left given⟩
  | leftCondition => exact ⟨place, proper.1, inside.left⟩
  | rightCondition given _ =>
      exact ⟨place, proper.2, inside.right.behind proper.1 inside.left given⟩
  | assigned => exact ⟨place, proper.2, inside.left⟩
  | callee => exact ⟨place, proper.1, inside.left⟩
  | arguments given =>
      exact ⟨place, proper.2, inside.right.behind proper.1 inside.left given⟩
  | call givenCallee givenArguments givenFound =>
      have before := inside.right.behind proper.1 inside.left givenCallee
      have evaluated :=
        (arguments_keep (everything_keeps resolved _).1 proper.2 before).ok givenArguments
      exact live_of_calleeFor evaluated.2.1 givenFound
  | object => exact ⟨place, proper, inside⟩
  | owner => exact ⟨place, proper.1, inside.right⟩
  | field givenObject givenOwner =>
      obtain rfl := state_of_fieldOwner givenOwner
      exact ⟨place, proper.2, inside.left.behind proper.1 inside.right givenObject⟩

/-- What a statement starts is ready. -/
theorem statementReady_starts
    {statement : Stmt}
    (starts : Starts (.statement fuel statement) state first after)
    (ready : TaskReady resolved state (.statement fuel statement)) :
    TaskReadyIn resolved after ((Task.statement fuel statement).initializing initializing)
      first := by
  obtain ⟨place, proper, inside⟩ := ready
  cases starts with
  | effect => exact ⟨place, proper, inside⟩
  | printed => exact ⟨place, proper, inside⟩
  | initializer => exact ⟨_, proper.2, initializer_ready proper.1 inside⟩
  | block given => exact ⟨_, proper, block_ready inside given⟩
  | @condition _ _ _ alternative _ =>
      cases alternative with
      | none => exact ⟨place, proper.1, inside.left⟩
      | some other => exact ⟨place, proper.1, inside.left⟩
  | @consequent _ _ _ alternative _ _ _ given _ =>
      cases alternative with
      | none => exact ⟨place, proper.2.1, inside.right.behind proper.1 inside.left given⟩
      | some other =>
          exact ⟨place, proper.2.1.1,
            inside.right.left.behind proper.1 inside.left given⟩
  | alternative given _ =>
      have other := inside.right.right.behind proper.1 inside.left given
      rw [proper.2.1.2, Place.declaring_nil] at other
      exact ⟨place, proper.2.2.1, other⟩
  | loopCondition => exact ⟨place, proper.1, inside.left⟩
  | round given _ =>
      exact ⟨place, proper.2.1, inside.right.behind proper.1 inside.left given⟩
  | nextRound given _ givenRound =>
      have round := inside.right.behind proper.1 inside.left given
      have again := inside.behind proper.1 inside.left given
      have ended := round.ended proper.2.1 givenRound
      exact ⟨place, proper, again.later ended.1 ended.2.1⟩
  | returned => exact ⟨place, proper, result_ready inside⟩
  | superclass => exact ⟨_, trivial, superclass_ready proper.1 inside⟩

/-- Statements are ready one after another. -/
theorem statementsReady_starts
    {body : List Stmt}
    (starts : Starts (.statements fuel body) state first after)
    (ready : TaskReady resolved state (.statements fuel body)) :
    TaskReadyIn resolved after none first := by
  obtain ⟨place, proper, inside⟩ := ready
  cases starts with
  | firstStatement => exact ⟨place, proper.1, inside.left⟩
  | otherStatements given =>
      have ended := inside.left.ended proper.1 given
      have next := inside.right.later ended.1 ended.2.1
      exact ⟨_, proper.2, next.coherent, ended.2.2, next.settled, next.legible⟩

/-- What a call starts is ready. -/
theorem callReady_starts
    {callee : Callee}
    {arguments : List Value}
    (starts : Starts (.call fuel callee arguments) state first after)
    (ready : TaskReady resolved state (.call fuel callee arguments)) :
    TaskReadyIn resolved after none first := by
  obtain ⟨coherent, live⟩ := ready
  cases starts with
  | functionBody given =>
      obtain ⟨start, proper, activated⟩ := activate_ready coherent live.1 live.2
      exact ⟨start, proper, ((activated (fun _ => True)).ok given).2.2⟩
  | construction givenObject found givenMethod =>
      exact constructor_ready coherent live givenObject found givenMethod

/-- What a ready task starts is ready, in the initializer in which it stands. -/
theorem TaskReadyIn.of_starts
    {task : Task}
    (starts : Starts task state first after)
    (ready : TaskReadyIn resolved state initializing task) :
    TaskReadyIn resolved after (task.initializing initializing) first := by
  cases task with
  | expression _ _ => exact expressionReady_starts starts ready
  | arguments _ _ => exact argumentsReady_starts starts ready
  | statement _ _ => exact statementReady_starts starts ready
  | statements _ _ => exact statementsReady_starts starts ready
  | call _ _ _ => exact callReady_starts starts ready

/-- What a ready task starts is ready. -/
theorem TaskReady.of_starts
    {task : Task}
    (starts : Starts task state first after)
    (ready : TaskReady resolved state task) :
    TaskReady resolved after first := by
  obtain ⟨initializing, inside⟩ := taskReady_iff.mp ready
  exact taskReady_iff.mpr ⟨_, inside.of_starts starts⟩

/-- Whatever a ready task reaches is ready. -/
theorem TaskReady.of_reaches
    {task later : Task}
    (reaches : Reaches task state later after)
    (ready : TaskReady resolved state task) :
    TaskReady resolved after later := by
  induction reaches with
  | here => exact ready
  | inside starts _ inductionHypothesis =>
      exact inductionHypothesis (ready.of_starts starts)

/-! ## What the scopes hold -/

/-- There is a scope a number of steps up. -/
def State.HasScope (state : State) (depth : Nat) : Prop :=
  ∃ scope found,
    state.heap.ancestor? depth state.scope = some scope ∧
      state.heap.scopes[scope]? = some found

/-- A name is bound in the scope a number of steps up. -/
def State.HasValue (state : State) (depth : Nat) (name : String) : Prop :=
  ∃ value, state.heap.getAt? state.scope depth name = some value

/--
The scopes hold what the node of a task looks for.  A variable with a distance is
bound there, and an assigned one has a scope there, also once its value is given.
Both `this` and `super` have a distance: `this` is bound there, and `super` is a
class, with the instance that is `this` one scope nearer.
-/
def Agrees (state : State) : Task → Prop
  | .expression _ (.reference occurrence) =>
      ∀ depth, state.distances.get? occurrence.id = some depth →
        state.HasValue depth occurrence.name.text
  | .expression _ (.assign target value) =>
      ∀ depth, state.distances.get? target.id = some depth →
        state.HasScope depth ∧
          ∀ fuel found after, evaluate fuel value state = .ok found after →
            after.HasScope depth
  | .expression _ (.this id _) =>
      ∃ depth, state.distances.get? id = some depth ∧ state.HasValue depth receiverName
  | .expression _ (.super id _ _) =>
      ∃ depth parent object,
        state.distances.get? id = some (depth + 1) ∧
          state.heap.getAt? state.scope (depth + 1) superclassName =
            some (.classObject parent) ∧
          state.heap.getAt? state.scope depth receiverName =
            some (.instanceObject object)
  | _ => True

/-- The scopes agree with every ready task. -/
theorem agrees_of_ready
    {task : Task}
    (ready : TaskReady resolved state task) :
    Agrees state task := by
  cases task with
  | expression fuel value =>
      obtain ⟨place, initializing, proper, inside⟩ := ready
      cases value with
      | reference occurrence =>
          intro depth known
          have settled := inside.settled _ (List.mem_singleton.mpr rfl)
          have declared := (settled.recorded _ _ rfl).2.symm.trans known
          -- A variable with a distance is local, so it is not read in its own initializer.
          have within : place.scopes ≠ [] := by
            intro outermost
            simp [Place.depth?, outermost] at declared
          exact getAt?_of_covers inside.covers declared
            (initialized_of_reads settled within)
      | assign target value =>
          intro depth known
          have settled := inside.right.settled _ (List.mem_singleton.mpr rfl)
          have declared := (settled.recorded _ _ rfl).2.symm.trans known
          refine ⟨inside.covers.exists_scope declared, ?_⟩
          intro fuel found after given
          have behind := inside.right.behind proper.2 inside.left given
          exact behind.covers.exists_scope declared
      | this id line =>
          have settled := inside.settled _ (List.mem_singleton.mpr rfl)
          obtain ⟨depth, known, declared⟩ := depth?_of_this settled
          exact ⟨depth, known, getAt?_of_covers inside.covers declared inside.legible.1⟩
      | super id line method =>
          have settled := inside.settled _ (List.mem_singleton.mpr rfl)
          obtain ⟨depth, parent, object, declared, isClass, isInstance⟩ :=
            super_of_covers inside.coherent inside.covers settled.sound
              (subclass_of_super settled) inside.legible
          exact ⟨depth, parent, object, (settled.recorded _ _ rfl).2.trans declared,
            isClass, isInstance⟩
      | _ => trivial
  | _ => trivial

/-- A variable that a ready task looks up has been settled at its distance. -/
theorem settled_of_lookedUp
    {task : Task}
    {occurrence : Reference}
    (ready : TaskReady resolved state task)
    (looksUp : task.lookedUp? = some occurrence) :
    resolved
      ⟨occurrence.id, occurrence.name.text, state.distances.get? occurrence.id⟩ := by
  cases task with
  | expression fuel value =>
      obtain ⟨place, initializing, proper, inside⟩ := ready
      cases value with
      | reference found =>
          obtain rfl : found = occurrence := by simpa [Task.lookedUp?] using looksUp
          have settled := inside.settled _ (List.mem_singleton.mpr rfl)
          obtain ⟨isResolved, distance⟩ := settled.recorded _ _ rfl
          rwa [distance]
      | assign target value =>
          obtain rfl : target = occurrence := by simpa [Task.lookedUp?] using looksUp
          have settled := inside.right.settled _ (List.mem_singleton.mpr rfl)
          obtain ⟨isResolved, distance⟩ := settled.recorded _ _ rfl
          rwa [distance]
      | _ => simp [Task.lookedUp?] at looksUp
  | _ => simp [Task.lookedUp?] at looksUp

end

end Lox.Execution
