import Lox.Execution.Evaluation

namespace Lox.Execution

/-!
# What a run reaches

Evaluation calls itself on parts of a program, on the bodies of functions, and on
itself again.  A task is one such call with its fuel, and a task starts another
one in the state that the calls before it have left.  What is reached from a task
is whatever is started from it, directly or not.
-/

/-- A call of evaluation, to be run from some state. -/
inductive Task where
  | expression (fuel : Nat) (value : Expr)
  | arguments (fuel : Nat) (values : List Expr)
  | statement (fuel : Nat) (statement : Stmt)
  | statements (fuel : Nat) (body : List Stmt)
  | call (fuel : Nat) (callee : Callee) (arguments : List Value)

/-- A task starts another one, each in its state. -/
inductive Starts : Task → State → Task → State → Prop where
  | grouping {fuel inner state} :
      Starts (.expression (fuel + 1) (.grouping inner)) state
        (.expression fuel inner) state
  | operand {fuel operator line operand state} :
      Starts (.expression (fuel + 1) (.unary operator line operand)) state
        (.expression fuel operand) state
  | leftOperand {fuel operator line left right state} :
      Starts (.expression (fuel + 1) (.binary operator line left right)) state
        (.expression fuel left) state
  | rightOperand {fuel operator line left right state first after} :
      evaluate fuel left state = .ok first after →
      Starts (.expression (fuel + 1) (.binary operator line left right)) state
        (.expression fuel right) after
  | leftCondition {fuel operator left right state} :
      Starts (.expression (fuel + 1) (.logical operator left right)) state
        (.expression fuel left) state
  | rightCondition {fuel operator left right state first after} :
      evaluate fuel left state = .ok first after →
      isSettledBy operator first = false →
      Starts (.expression (fuel + 1) (.logical operator left right)) state
        (.expression fuel right) after
  | assigned {fuel target value state} :
      Starts (.expression (fuel + 1) (.assign target value)) state
        (.expression fuel value) state
  | callee {fuel callee arguments line state} :
      Starts (.expression (fuel + 1) (.call callee arguments line)) state
        (.expression fuel callee) state
  | arguments {fuel callee arguments line state subject after} :
      evaluate fuel callee state = .ok subject after →
      Starts (.expression (fuel + 1) (.call callee arguments line)) state
        (.arguments fuel arguments) after
  | call {fuel callee arguments line state subject middle values later found after} :
      evaluate fuel callee state = .ok subject middle →
      arguments.mapM (evaluate fuel) middle = .ok values later →
      calleeFor subject values.length line later = .ok found after →
      Starts (.expression (fuel + 1) (.call callee arguments line)) state
        (.call fuel found values) after
  | object {fuel object name state} :
      Starts (.expression (fuel + 1) (.property object name)) state
        (.expression fuel object) state
  | owner {fuel object name value state} :
      Starts (.expression (fuel + 1) (.setProperty object name value)) state
        (.expression fuel object) state
  | field {fuel object name value state found middle owner after} :
      evaluate fuel object state = .ok found middle →
      fieldOwner found name middle = .ok owner after →
      Starts (.expression (fuel + 1) (.setProperty object name value)) state
        (.expression fuel value) after
  | firstArgument {fuel first rest state} :
      Starts (.arguments fuel (first :: rest)) state (.expression fuel first) state
  | otherArguments {fuel first rest state value after} :
      evaluate fuel first state = .ok value after →
      Starts (.arguments fuel (first :: rest)) state (.arguments fuel rest) after
  | effect {fuel value state} :
      Starts (.statement (fuel + 1) (.expression value)) state
        (.expression fuel value) state
  | printed {fuel value state} :
      Starts (.statement (fuel + 1) (.print value)) state (.expression fuel value) state
  | initializer {fuel name value state} :
      Starts (.statement (fuel + 1) (.varDeclaration name (some value))) state
        (.expression fuel value) state
  | block {fuel body state scope after} :
      newScope Bindings.empty state.scope state = .ok scope after →
      Starts (.statement (fuel + 1) (.block body)) state
        (.statements fuel body) { after with scope := scope }
  | condition {fuel condition consequent alternative state} :
      Starts (.statement (fuel + 1) (.branch condition consequent alternative)) state
        (.expression fuel condition) state
  | consequent {fuel condition consequent alternative state found after} :
      evaluate fuel condition state = .ok found after →
      found.isTruthy = true →
      Starts (.statement (fuel + 1) (.branch condition consequent alternative)) state
        (.statement fuel consequent) after
  | alternative {fuel condition consequent alternative state found after} :
      evaluate fuel condition state = .ok found after →
      found.isTruthy = false →
      Starts (.statement (fuel + 1) (.branch condition consequent (some alternative)))
        state (.statement fuel alternative) after
  | loopCondition {fuel condition body state} :
      Starts (.statement (fuel + 1) (.loop condition body)) state
        (.expression fuel condition) state
  | round {fuel condition body state found after} :
      evaluate fuel condition state = .ok found after →
      found.isTruthy = true →
      Starts (.statement (fuel + 1) (.loop condition body)) state
        (.statement fuel body) after
  | nextRound {fuel condition body state found middle after} :
      evaluate fuel condition state = .ok found middle →
      found.isTruthy = true →
      execute fuel body middle = .ok () after →
      Starts (.statement (fuel + 1) (.loop condition body)) state
        (.statement fuel (.loop condition body)) after
  | returned {fuel line value state} :
      Starts (.statement (fuel + 1) (.returnValue line (some value))) state
        (.expression fuel value) state
  | superclass {fuel name parent methods state} :
      Starts (.statement (fuel + 1) (.classDeclaration name (some parent) methods)) state
        (.expression (fuel + 1) (.reference parent)) state
  | firstStatement {fuel first rest state} :
      Starts (.statements fuel (first :: rest)) state (.statement fuel first) state
  | otherStatements {fuel first rest state after} :
      execute fuel first state = .ok () after →
      Starts (.statements fuel (first :: rest)) state (.statements fuel rest) after
  | functionBody {fuel function arguments state scope after} :
      activate function arguments state = .ok scope after →
      Starts (.call (fuel + 1) (.function function) arguments) state
        (.statements fuel function.declaration.body) { after with scope := scope }
  | construction {fuel classId arguments state object middle method bound after} :
      newInstance classId state = .ok object middle →
      middle.heap.findMethod? classId constructorName = some method →
      bindMethod method object middle = .ok bound after →
      Starts (.call (fuel + 1) (.classObject classId) arguments) state
        (.call fuel (.function bound) arguments) after

/-- A task is reached from another one. -/
inductive Reaches : Task → State → Task → State → Prop where
  | here {task state} : Reaches task state task state
  | inside {task state first middle later after} :
      Starts task state first middle →
      Reaches first middle later after →
      Reaches task state later after

/-- The variable that a task looks up to read it or to assign to it. -/
def Task.lookedUp? : Task → Option Reference
  | .expression _ (.reference occurrence) => some occurrence
  | .expression _ (.assign target _) => some target
  | _ => none

/-- A look-up of a variable that resolution has left global. -/
def LooksUpGlobal (task : Task) (state : State) (name : Identifier) : Prop :=
  ∃ occurrence,
    task.lookedUp? = some occurrence ∧ occurrence.name = name ∧
      state.distances.get? occurrence.id = none

/--
The ways in which a task may stop early: not by scopes that do not hold what
`super` needs, and by an undefined variable only if it reaches a look-up that
resolution has left global.
-/
structure MayStop (task : Task) (state : State) (exit : Exit) : Prop where
  matched : ∀ found, exit ≠ .mismatch found
  global :
    ∀ name, exit = .error (.undefinedVariable name) →
      ∃ later after, Reaches task state later after ∧ LooksUpGlobal later after name

/-- A task may stop as one that it starts may. -/
theorem MayStop.of_starts
    {task first : Task}
    {state middle : State}
    {exit : Exit}
    (starts : Starts task state first middle)
    (stops : MayStop first middle exit) :
    MayStop task state exit := by
  refine ⟨stops.matched, fun name same => ?_⟩
  obtain ⟨later, after, reaches, looksUp⟩ := stops.global name same
  exact ⟨later, after, .inside starts reaches, looksUp⟩

/-- Every task may stop in a way that has nothing to do with scopes. -/
theorem MayStop.of_other
    {task : Task}
    {state : State}
    {exit : Exit}
    (matched : ∀ found, exit ≠ .mismatch found)
    (defined : ∀ name, exit ≠ .error (.undefinedVariable name)) :
    MayStop task state exit :=
  ⟨matched, fun name same => absurd same (defined name)⟩

/-- A look-up that resolution has left global may find nothing. -/
theorem MayStop.of_global
    {task : Task}
    {state : State}
    {name : Identifier}
    (looksUp : LooksUpGlobal task state name) :
    MayStop task state (.error (.undefinedVariable name)) := by
  refine ⟨by simp, fun other same => ?_⟩
  obtain rfl : name = other := by simpa using same
  exact ⟨task, state, .here, looksUp⟩

end Lox.Execution
