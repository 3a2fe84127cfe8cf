import Lox.Proofs.Execution.Composition

namespace Lox.Execution

/-!
# What every run does to a state

Some relations between the states before and after a run hold of every run,
whatever is run in whatever state, and however the run ends.  They are those that
hold of every single change of a state and that a run inside another scope hands on
to the scope outside.
-/

/-- A relation that holds between the states before and after an action, however it ends. -/
def Leaves (relation : State → State → Prop) (action : Eval α) : Prop :=
  ∀ state, relation state (endState (action state))

theorem Leaves.ok
    {relation : State → State → Prop}
    {action : Eval α}
    {value : α}
    {state after : State}
    (leaves : Leaves relation action)
    (given : action state = .ok value after) :
    relation state after := by
  have ended := leaves state
  rwa [given] at ended

/--
A relation between states that every plain change of a state satisfies, and that is
handed on by runs in a row and by a run inside another scope.
-/
structure PlainlySteady (relation : State → State → Prop) : Prop where
  refl : ∀ state, relation state state
  trans :
    ∀ {before middle after},
      relation before middle → relation middle after → relation before after
  inside :
    ∀ {state final scope},
      relation { state with scope := scope } final →
      relation state { final with scope := state.scope }
  addScope :
    ∀ (state : State) (bindings enclosing),
      relation state { state with heap := state.heap.addScope ⟨bindings, some enclosing⟩ }
  define : ∀ (state : State) (scope name value), relation state (state.define scope name value)
  addFunction :
    ∀ (state : State) (function),
      relation state { state with heap := state.heap.addFunction function }
  addInstance :
    ∀ (state : State) (classId),
      relation state { state with heap := state.heap.addInstance ⟨classId, Bindings.empty⟩ }
  print :
    ∀ (state : State) (text),
      relation state { state with transcript := state.transcript.print text }
  tick : ∀ state : State, relation state { state with clock := state.clock.next }

/-- A relation between states that every change of a state satisfies. -/
structure Steady (relation : State → State → Prop) : Prop extends PlainlySteady relation where
  addClass :
    ∀ (state : State) (declared),
      relation state { state with heap := state.heap.addClass declared }
  setField :
    ∀ (state : State) (object name value),
      relation state { state with heap := state.heap.setField object name value }

namespace PlainlySteady

section

variable {α β : Type} {relation : State → State → Prop}

theorem bind
    (steady : PlainlySteady relation)
    {first : Eval α}
    {next : α → Eval β}
    (leavesFirst : Leaves relation first)
    (leavesNext : ∀ value, Leaves relation (next value)) :
    Leaves relation (first >>= next) := by
  intro state
  have before := leavesFirst state
  rw [bind_apply]
  cases ended : first state with
  | ok value middle =>
      rw [ended] at before
      exact steady.trans before (leavesNext value middle)
  | error exit middle =>
      rw [ended] at before
      exact before

/-- A run inside another scope comes back from it, however it ends. -/
theorem within
    (steady : PlainlySteady relation)
    {action : Eval α}
    (leaves : Leaves relation action)
    (scope : ScopeId) :
    Leaves relation (within scope action) := by
  intro state
  have inner := leaves { state with scope := scope }
  unfold Execution.within
  cases ended : action { state with scope := scope } with
  | ok value final =>
      rw [ended] at inner
      exact steady.inside inner
  | error exit final =>
      rw [ended] at inner
      exact steady.inside inner

theorem returning
    {body : Eval Unit}
    (leaves : Leaves relation body) :
    Leaves relation (returning body) := by
  intro state
  have ran := leaves state
  unfold Execution.returning
  cases ended : body state with
  | ok value final =>
      rw [ended] at ran
      exact ran
  | error exit final =>
      rw [ended] at ran
      cases exit <;> exact ran

/-- To leave a plainly steady relation is a property that composes of plain steps. -/
theorem composes (steady : PlainlySteady relation) :
    PlainlyCompositional fun action => Leaves relation action where
  pure _ := steady.refl
  throw _ := steady.refl
  bind := steady.bind
  read _ leaves := fun state => leaves state state
  within := steady.within
  returning := returning
  newScope bindings enclosing := fun state => steady.addScope state bindings enclosing
  newFunction function := fun state => steady.addFunction state function
  newInstance _ := fun state => steady.addInstance state _
  defineHere name value := fun state => steady.define state state.scope name value
  define scope name value := fun state => steady.define state scope name value
  printValue value := fun state => steady.print state (state.heap.display value)
  readClock := steady.tick

theorem map
    (steady : PlainlySteady relation)
    {action : Eval α}
    {convert : α → β}
    (leaves : Leaves relation action) :
    Leaves relation (convert <$> action) :=
  steady.composes.map leaves

theorem mapM
    (steady : PlainlySteady relation)
    {step : α → Eval β}
    (leaves : ∀ value, Leaves relation (step value))
    (values : List α) :
    Leaves relation (values.mapM step) :=
  steady.composes.mapM leaves values

end

end PlainlySteady

namespace Steady

/-- To leave a steady relation is a property that composes. -/
theorem composes {relation : State → State → Prop} (steady : Steady relation) :
    Compositional fun action => Leaves relation action where
  toPlainlyCompositional := steady.toPlainlySteady.composes
  newClass declared := fun state => steady.addClass state declared
  writeField object name value := fun state => steady.setField state object name value

/-! ## Runs -/

section

variable {relation : State → State → Prop} {fuel : Nat}

theorem evaluate (steady : Steady relation) (fuel : Nat) (value : Expr) :
    Leaves relation (evaluate fuel value) :=
  steady.composes.evaluate fuel value

theorem execute (steady : Steady relation) (fuel : Nat) (statement : Stmt) :
    Leaves relation (execute fuel statement) :=
  steady.composes.execute fuel statement

theorem executeAll (steady : Steady relation) (fuel : Nat) (body : List Stmt) :
    Leaves relation (executeAll fuel body) :=
  steady.composes.executeAll fuel body

theorem call
    (steady : Steady relation)
    (fuel : Nat)
    (callee : Callee)
    (arguments : List Value) :
    Leaves relation (call fuel callee arguments) :=
  steady.composes.call fuel callee arguments

/-- A program that stops at a return ends in the state in which the return stopped it. -/
theorem interpret (steady : Steady relation) (fuel : Nat) (program : List Stmt) :
    Leaves relation (interpret fuel program) := by
  intro state
  have ran := steady.executeAll fuel program state
  unfold Execution.interpret
  split
  next line value final stopped =>
    rw [stopped] at ran
    exact ran
  · exact ran

end

end Steady

end Lox.Execution
