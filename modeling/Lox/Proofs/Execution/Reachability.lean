import Lox.Proofs.Execution.Confinement

namespace Lox.Execution

/-!
# Runs touch only what they can reach

A task can reach what is reached from the current scope, from the global scope and
from the callee and the arguments it is handed.  Whatever it runs, and however that
ends, every other scope and every other instance stays as it was, and whatever is given
back or stored was reachable before or has been made meanwhile.
-/

/-- What a task is handed: the callee and the arguments of a call. -/
def Task.handed : Task → List Entry
  | .call _ callee passed => callee.entry?.toList ++ passed.filterMap Value.entry?
  | _ => []

/-- What a task begins with: the current scope, the global scope, and what it is handed. -/
def Task.roots (task : Task) (state : State) : List Entry :=
  .scope state.scope :: .scope state.globals :: task.handed

/-- The run of a task, with the values that it gives. -/
def Task.run : Task → Eval (List Value)
  | .expression fuel value => ([·]) <$> evaluate fuel value
  | .arguments fuel values => values.mapM (evaluate fuel)
  | .statement fuel single => (fun _ => []) <$> execute fuel single
  | .statements fuel body => (fun _ => []) <$> executeAll fuel body
  | .call fuel callee passed => ([·]) <$> Execution.call fuel callee passed

/-- The values that a run brings back, be it by a return. -/
def givenBack : EStateM.Result Exit State (List Value) → List Value
  | .ok values _ => values
  | .error (.returned _ value) _ => [value]
  | .error _ _ => []

/--
The heap after a run compared with the one before: what was not reached from some roots
is as it was, and nothing has become reachable but what was reached or is new.
-/
structure Confined (roots : List Entry) (before after : Heap) : Prop where
  scopes :
    ∀ id : ScopeId, before.Has (.scope id) → ¬ before.Reached roots (.scope id) →
      after.scopes[id]? = before.scopes[id]?
  instances :
    ∀ id : InstanceId, before.Has (.instanceObject id) →
      ¬ before.Reached roots (.instanceObject id) →
        after.instances[id]? = before.instances[id]?
  captured :
    ∀ (id : FunctionId) function, before.functions[id]? = some function →
      before.Has (.scope function.closure) →
      after.scopes[function.closure]? ≠ before.scopes[function.closure]? →
        before.Reached roots (.scope function.closure)
  bound :
    ∀ id name value, after.getLocal? id name = some value →
      before.getLocal? id name = some value ∨ value.In (before.ReachedOrNew roots)
  fields :
    ∀ object name value, after.getField? object name = some value →
      before.getField? object name = some value ∨ value.In (before.ReachedOrNew roots)
  closed :
    ∀ entry other, before.ReachedOrNew roots entry →
      Relation.ReflTransGen after.Refers entry other → before.ReachedOrNew roots other

section

variable {region : Entry → Prop} {fuel : Nat} {state after : State} {first : Task}

/-! ## Regions in which a task begins -/

/-- A task is handed nothing from outside of a region. -/
def Task.HandedIn (region : Entry → Prop) (task : Task) : Prop :=
  ∀ entry ∈ task.handed, region entry

theorem handedIn_call_iff
    {callee : Callee}
    {arguments : List Value} :
    (Task.call fuel callee arguments).HandedIn region ↔
      callee.In region ∧ ∀ argument ∈ arguments, argument.In region := by
  constructor
  · intro handed
    refine ⟨fun entry isCallee => ?_, fun argument member entry isEntry => ?_⟩
    · exact handed entry (List.mem_append_left _ (Option.mem_toList.mpr isCallee))
    · exact handed entry
        (List.mem_append_right _ (List.mem_filterMap.mpr ⟨argument, member, isEntry⟩))
  · intro ⟨isCallee, others⟩ entry member
    rcases List.mem_append.mp member with found | found
    · exact isCallee entry (Option.mem_toList.mp found)
    · obtain ⟨argument, isArgument, isEntry⟩ := List.mem_filterMap.mp found
      exact others argument isArgument entry isEntry

/-- Every task stays in a region out of which it is handed nothing. -/
theorem Task.run_stays
    {task : Task}
    (handed : task.HandedIn region) :
    Stays region (fun values => ∀ value ∈ values, value.In region) task.run := by
  have alone : ∀ value : Value, value.In region →
      ∀ other ∈ [value], other.In region := by simp
  cases task with
  | expression fuel value => exact ((Stays.everything region fuel).1 value).map alone
  | arguments fuel values => exact Stays.mapM (Stays.everything region fuel).1 values
  | statement fuel statement =>
      exact ((Stays.everything region fuel).2.1 statement).map (by simp)
  | statements fuel body =>
      exact (Stays.forM (Stays.everything region fuel).2.1 body).map (by simp)
  | call fuel callee arguments =>
      obtain ⟨member, others⟩ := handedIn_call_iff.mp handed
      exact ((Stays.everything region fuel).2.2 callee arguments member others).map alone

/-! ## What a task starts stays in its region -/

theorem expression_starts_inside
    {value : Expr}
    (starts : Starts (.expression fuel value) state first after)
    (inside : Inside region state) :
    Moves region state after ∧ first.HandedIn region := by
  have evaluated {fuel value state found after} (inside : Inside region state)
      (given : evaluate fuel value state = .ok found after) :=
    ((Stays.everything region fuel).1 value).ok inside given
  cases starts with
  | rightOperand given => exact ⟨(evaluated inside given).1, nofun⟩
  | rightCondition given _ => exact ⟨(evaluated inside given).1, nofun⟩
  | arguments given => exact ⟨(evaluated inside given).1, nofun⟩
  | call givenCallee givenArguments givenFound =>
      obtain ⟨before, isSubject⟩ := evaluated inside givenCallee
      obtain ⟨middle, others⟩ :=
        (Stays.mapM (Stays.everything region _).1 _).ok before.inside givenArguments
      obtain ⟨later, isCallee⟩ :=
        (Stays.calleeFor isSubject _ _).ok middle.inside givenFound
      exact ⟨(before.trans middle).trans later, handedIn_call_iff.mpr ⟨isCallee, others⟩⟩
  | field givenObject givenOwner =>
      obtain ⟨before, isObject⟩ := evaluated inside givenObject
      obtain ⟨later, -⟩ := (Stays.fieldOwner isObject _).ok before.inside givenOwner
      exact ⟨before.trans later, nofun⟩
  | _ => exact ⟨.refl inside, nofun⟩

theorem arguments_starts_inside
    {values : List Expr}
    (starts : Starts (.arguments fuel values) state first after)
    (inside : Inside region state) :
    Moves region state after ∧ first.HandedIn region := by
  cases starts with
  | firstArgument => exact ⟨.refl inside, nofun⟩
  | otherArguments given =>
      exact ⟨(((Stays.everything region fuel).1 _).ok inside given).1, nofun⟩

/-- A run may go on in another scope of its region. -/
theorem Moves.enter
    (moves : Moves region state after)
    {scope : ScopeId}
    (member : region (.scope scope)) :
    Moves region state { after with scope := scope } :=
  ⟨⟨moves.inside.heap, member, moves.inside.globals⟩, moves.untouched⟩

theorem statement_starts_inside
    {statement : Stmt}
    (starts : Starts (.statement fuel statement) state first after)
    (inside : Inside region state) :
    Moves region state after ∧ first.HandedIn region := by
  have evaluated {fuel value state found after} (inside : Inside region state)
      (given : evaluate fuel value state = .ok found after) :=
    ((Stays.everything region fuel).1 value).ok inside given
  cases starts with
  | block given =>
      obtain ⟨moves, member⟩ := (Stays.newScope .empty inside.scope).ok inside given
      exact ⟨moves.enter member, nofun⟩
  | consequent given _ => exact ⟨(evaluated inside given).1, nofun⟩
  | alternative given _ => exact ⟨(evaluated inside given).1, nofun⟩
  | round given _ => exact ⟨(evaluated inside given).1, nofun⟩
  | nextRound given _ givenRound =>
      obtain ⟨before, -⟩ := evaluated inside given
      obtain ⟨later, -⟩ :=
        ((Stays.everything region _).2.1 _).ok before.inside givenRound
      exact ⟨before.trans later, nofun⟩
  | _ => exact ⟨.refl inside, nofun⟩

theorem statements_starts_inside
    {body : List Stmt}
    (starts : Starts (.statements fuel body) state first after)
    (inside : Inside region state) :
    Moves region state after ∧ first.HandedIn region := by
  cases starts with
  | firstStatement => exact ⟨.refl inside, nofun⟩
  | otherStatements given =>
      exact ⟨(((Stays.everything region fuel).2.1 _).ok inside given).1, nofun⟩

theorem call_starts_inside
    {callee : Callee}
    {arguments : List Value}
    (starts : Starts (.call fuel callee arguments) state first after)
    (inside : Inside region state)
    (handed : (Task.call fuel callee arguments).HandedIn region) :
    Moves region state after ∧ first.HandedIn region := by
  obtain ⟨isCallee, others⟩ := handedIn_call_iff.mp handed
  cases starts with
  | functionBody given =>
      obtain ⟨moves, member⟩ := (Stays.activate (isCallee _ rfl) others).ok inside given
      exact ⟨moves.enter member, nofun⟩
  | construction givenObject found givenMethod =>
      obtain ⟨before, isInstance⟩ :=
        (Stays.newInstance (isCallee _ rfl)).ok inside givenObject
      have closure := before.inside.heap.closed.findMethod?_in (isCallee _ rfl) found
      obtain ⟨later, bound⟩ :=
        (Stays.bindMethod closure isInstance).ok before.inside givenMethod
      exact ⟨before.trans later,
        handedIn_call_iff.mpr ⟨Callee.in_of_closure bound, others⟩⟩

theorem Starts.stays
    {task : Task}
    (starts : Starts task state first after)
    (inside : Inside region state)
    (handed : task.HandedIn region) :
    Moves region state after ∧ first.HandedIn region := by
  cases task with
  | expression _ _ => exact expression_starts_inside starts inside
  | arguments _ _ => exact arguments_starts_inside starts inside
  | statement _ _ => exact statement_starts_inside starts inside
  | statements _ _ => exact statements_starts_inside starts inside
  | call _ _ _ => exact call_starts_inside starts inside handed

/-- Whatever a task reaches is in its region, and so is what that is handed. -/
theorem Reaches.stays
    {task later : Task}
    (reaches : Reaches task state later after)
    (inside : Inside region state)
    (handed : task.HandedIn region) :
    Moves region state after ∧ later.HandedIn region := by
  induction reaches with
  | here => exact ⟨.refl inside, handed⟩
  | inside starts _ inductionHypothesis =>
      obtain ⟨moves, next⟩ := starts.stays inside handed
      obtain ⟨further, last⟩ := inductionHypothesis moves.inside next
      exact ⟨moves.trans further, last⟩

end

/-! ## The heap after a run -/

section

variable {roots : List Entry} {before after : State}

/-- What has been made and was not reached is outside of what a run can get hold of. -/
theorem Heap.not_reachedOrNew
    {heap : Heap}
    {entry : Entry}
    (has : heap.Has entry)
    (unreached : ¬ heap.Reached roots entry) :
    ¬ heap.ReachedOrNew roots entry := by
  rintro (reached | missing)
  · exact unreached reached
  · exact missing has

/-- A run in what is reached from some roots is confined to it. -/
theorem Moves.confined
    (moves : Moves (before.heap.ReachedOrNew roots) before after) :
    Confined roots before.heap after.heap where
  scopes id has unreached :=
    moves.untouched.scopes id (Heap.not_reachedOrNew has unreached)
  instances id has unreached :=
    moves.untouched.instances id (Heap.not_reachedOrNew has unreached)
  captured id function known has changed :=
    Classical.byContradiction fun unreached =>
      changed (moves.untouched.scopes _ (Heap.not_reachedOrNew has unreached))
  bound id name value found := by
    by_cases member : before.heap.ReachedOrNew roots (.scope id)
    · exact .inr (moves.inside.heap.closed.getLocal?_in member found)
    · have same := moves.untouched.scopes id member
      unfold Heap.getLocal? at found ⊢
      exact .inl (same ▸ found)
  fields object name value found := by
    by_cases member : before.heap.ReachedOrNew roots (.instanceObject object)
    · exact .inr (moves.inside.heap.closed.getField?_in member found)
    · have same := moves.untouched.instances object member
      unfold Heap.getField? at found ⊢
      exact .inl (same ▸ found)
  closed entry other member path := moves.inside.heap.closed.follow member path

end

/--
At everything that a task reaches, before it and after it, the heap is confined to what
the task could reach at its start, and so is every value that is given back.
-/
theorem run_confined
    {task later : Task}
    {state middle : State}
    (reaches : Reaches task state later middle) :
    Confined (task.roots state) state.heap middle.heap ∧
      Confined (task.roots state) state.heap (endState (later.run middle)).heap ∧
      ∀ value ∈ givenBack (later.run middle),
        value.In (state.heap.ReachedOrNew (task.roots state)) := by
  have root : ∀ entry ∈ task.roots state,
      state.heap.ReachedOrNew (task.roots state) entry :=
    fun entry member => .inl ⟨entry, member, .refl⟩
  have inside : Inside (state.heap.ReachedOrNew (task.roots state)) state :=
    ⟨state.heap.region_of_roots _, root _ (by simp [Task.roots]),
      root _ (by simp [Task.roots])⟩
  have handed : task.HandedIn (state.heap.ReachedOrNew (task.roots state)) :=
    fun entry member =>
      root entry (List.mem_cons_of_mem _ (List.mem_cons_of_mem _ member))
  obtain ⟨moves, next⟩ := reaches.stays inside handed
  have stays := Task.run_stays next
  refine ⟨moves.confined, (moves.trans (stays.moves moves.inside)).confined, ?_⟩
  have ended := stays middle moves.inside
  intro value given
  cases result : later.run middle with
  | ok values final =>
      rw [result] at ended given
      exact ended.2 value given
  | error exit final =>
      rw [result] at ended given
      cases exit with
      | returned line back =>
          obtain rfl := List.mem_singleton.mp given
          exact ended.2
      | _ => exact absurd given List.not_mem_nil

/-- A state in which nothing leads any more to a scope that binds `clock` a second time. -/
def shelteredState : State :=
  { State.initial ⟨0⟩ with
    heap := (State.initial ⟨0⟩).heap.addScope ⟨Bindings.ofList [("clock", .nil)], some 0⟩ }

theorem shelteredState_unreached :
    ¬ shelteredState.heap.Reached [.scope 0, .scope 0] (.scope 1) := by
  rintro ⟨root, isRoot, path⟩
  obtain rfl : root = .scope 0 := by simpa using isRoot
  rcases path.cases_head with same | ⟨next, refers, -⟩
  · cases same
  cases refers with
  | enclosing known isOuter =>
      obtain rfl := Option.some.inj known
      cases isOuter
  | @bound _ _ name value _ known found isEntry =>
      obtain rfl := Option.some.inj known
      -- The global scope binds nothing but the clock, which is not in the heap.
      change (if "clock" = name then some (Value.native .clock) else none) = some value at found
      split at found
      · obtain rfl := Option.some.inj found
        cases isEntry
      · cases found

/-- The assignment in `clock = true;` does not get at the second `clock`. -/
theorem run_confined_assignment :
    let assignment : Expr := .assign ⟨0, ⟨"clock", 1⟩⟩ (.literal (.bool true))
    let task : Task := .statement 3 (.expression assignment)
    let later : Task := .expression 2 assignment
    let region := shelteredState.heap.ReachedOrNew (task.roots shelteredState)
    Reaches task shelteredState later shelteredState ∧ ¬ region (.scope 1) ∧
      Confined (task.roots shelteredState) shelteredState.heap
        (endState (later.run shelteredState)).heap ∧
      ∀ value ∈ givenBack (later.run shelteredState), value.In region := by
  intro assignment task later region
  have reaches : Reaches task shelteredState later shelteredState :=
    .inside .effect .here
  obtain ⟨-, confined, given⟩ := run_confined reaches
  refine ⟨reaches, ?_, confined, given⟩
  exact Heap.not_reachedOrNew (Nat.lt_succ_self 1) shelteredState_unreached

end Lox.Execution
