import Lox.Proofs.Execution.Receivers

namespace Lox.Execution

open Scoping

/-!
# What a block or a call leaves alone

The body of a block and the body of a function are run in a scope of their own, and
whatever they declare is bound there or in scopes that are newer still.  An assignment
may reach an older scope, but resolution sends it to one that binds the name already.
So what was there before has the same names behind a block or a call, however that ends.
-/

/-! ## What is left alone -/

/--
What was in a heap is in a later one as well: scopes between the same scopes with the
same names, instances of the same classes with at least the same fields, and the same
classes and functions.
-/
structure Heap.LeftAlone (before after : Heap) : Prop where
  around :
    ∀ scope : ScopeId, before.Has (.scope scope) →
      after.enclosing? scope = before.enclosing? scope
  names :
    ∀ (scope : ScopeId) name, before.Has (.scope scope) →
      ((after.getLocal? scope name).isSome ↔ (before.getLocal? scope name).isSome)
  instances :
    ∀ (object : InstanceId) made, before.instances[object]? = some made →
      ∃ later, after.instances[object]? = some later ∧ later.classId = made.classId
  fields :
    ∀ (object : InstanceId) name, (before.getField? object name).isSome →
      (after.getField? object name).isSome
  classes :
    ∀ (id : ClassId) declared, before.classes[id]? = some declared →
      after.classes[id]? = some declared
  functions :
    ∀ (id : FunctionId) function, before.functions[id]? = some function →
      after.functions[id]? = some function

theorem Heap.LeftAlone.refl (heap : Heap) : heap.LeftAlone heap where
  around _ _ := rfl
  names _ _ _ := Iff.rfl
  instances _ made known := ⟨made, known, rfl⟩
  fields _ _ known := known
  classes _ _ known := known
  functions _ _ known := known

/-! ## Names that acts bind -/

/-- A name in a changed scope was there before, or is the one that has been bound. -/
theorem Heap.getLocal?_of_define
    {heap : Heap}
    {target scope : ScopeId}
    {name other : String}
    {value : Value}
    (bound : ((heap.define target name value).getLocal? scope other).isSome) :
    (heap.getLocal? scope other).isSome ∨ target = scope ∧ name = other := by
  by_cases sameName : name = other
  · by_cases sameScope : target = scope
    · exact .inr ⟨sameScope, sameName⟩
    · left
      simpa [getLocal?, define, Array.getElem?_modify, sameScope] using bound
  · rw [getLocal?_define_of_ne sameName] at bound
    exact .inl bound

theorem Grows.isSome_getLocal?
    {before after : Heap}
    (grows : Grows before after)
    {scope : ScopeId}
    {name : String}
    (bound : (before.getLocal? scope name).isSome) :
    (after.getLocal? scope name).isSome := by
  unfold Heap.getLocal? at bound ⊢
  cases known : before.scopes[scope]? with
  | none => simp [known] at bound
  | some found =>
      obtain ⟨later, isLater, -, kept⟩ := grows scope found known
      rw [known, Option.bind_some] at bound
      rw [isLater, Option.bind_some]
      exact kept name bound

namespace Act

variable {act : Act} {state : State} {scope : ScopeId} {name : String}

/-- An act binds a name in a scope that is there already. -/
def Binds (act : Act) (state : State) (scope : ScopeId) (name : String) : Prop :=
  match act with
  | .define target declared _ => target = scope ∧ declared = name
  | .declareFunction declaration => state.scope = scope ∧ declaration.name.text = name
  | .declareClass declared _ _ => state.scope = scope ∧ declared = name
  | _ => False

/-- A scope that is there gets no other names by an act than those that it binds. -/
theorem getLocal?_of_result
    (has : state.heap.Has (.scope scope))
    (bound : ((act.result state).heap.getLocal? scope name).isSome) :
    (state.heap.getLocal? scope name).isSome ∨ act.Binds state scope name := by
  have old : scope ≠ state.heap.scopes.size := Nat.ne_of_lt has
  -- A new scope has nothing to do with the names in an old one.
  have beside : ∀ {heap : Heap} {added : Scope}, scope ≠ heap.scopes.size →
      ((heap.addScope added).getLocal? scope name).isSome →
      (heap.getLocal? scope name).isSome := by
    intro heap added different bound
    rwa [Heap.getLocal?_addScope, if_neg different] at bound
  cases act with
  | define target declared value => exact Heap.getLocal?_of_define bound
  | declareFunction declaration => exact Heap.getLocal?_of_define bound
  | declareClass declared parent methods =>
      rcases Heap.getLocal?_of_define bound with inner | isNew
      · have outer : ((state.heap.define state.scope declared .nil).getLocal? scope
            name).isSome := by
          cases parent with
          | none => exact inner
          | some parent => exact beside (by simpa [Heap.define] using old) inner
        exact Heap.getLocal?_of_define outer
      · exact .inr isNew
  | bind method object => exact .inl (beside old bound)
  | enterBlock => exact .inl (beside old bound)
  | activate function arguments => exact .inl (beside old bound)
  | receive method object => exact .inl (beside old bound)
  | _ => exact .inl bound

theorem functions_kept
    (act : Act)
    {id : FunctionId}
    {function : Function}
    (known : state.heap.functions[id]? = some function) :
    (act.result state).heap.functions[id]? = some function := by
  have before : id ≠ state.heap.functions.size :=
    Nat.ne_of_lt (Array.getElem?_eq_some_iff.mp known).1
  cases act with
  | bind method object =>
      simp [result, Heap.addFunction, Heap.functions_withReceiver, Array.getElem?_push,
        before, known]
  | declareFunction declaration =>
      simp [result, Heap.addFunction, Heap.define, Array.getElem?_push, before, known]
  | declareClass declared parent methods => cases parent <;> exact known
  | _ => exact known

/-- An act leaves alone what was left alone so far, if it binds names in new scopes only. -/
theorem leavesAlone
    {origin : Heap}
    (alone : origin.LeftAlone state.heap)
    (there : ∀ entry, origin.Has entry → state.heap.Has entry)
    (taken : ∀ entry ∈ act.uses, state.heap.Has entry)
    (inside :
      ∀ scope name, act.Binds state scope name →
        origin.scopes.size ≤ scope ∨ (state.heap.getLocal? scope name).isSome) :
    origin.LeftAlone (act.result state).heap where
  around scope has := (act.enclosing?_kept (there _ has)).trans (alone.around scope has)
  names scope name has := by
    rw [← alone.names scope name has]
    refine ⟨fun bound => ?_, (act.grows state).isSome_getLocal?⟩
    rcases getLocal?_of_result (there _ has) bound with before | binds
    · exact before
    · exact (inside scope name binds).resolve_left (Nat.not_le_of_lt has)
  instances object made known := by
    obtain ⟨between, isBetween, same⟩ := alone.instances object made known
    obtain ⟨later, isLater, sameLater⟩ := act.instances_kept isBetween
    exact ⟨later, isLater, sameLater.trans same⟩
  fields object name known := by
    have before := alone.fields object name known
    rw [Act.getField?_result taken]
    cases act.fieldSet? object name <;> simp [before]
  classes id declared known := act.classes_kept (alone.classes id declared known)
  functions id function known := act.functions_kept (alone.functions id function known)

end Act

/-! ## Tasks inside -/

/-- A run goes on in the scope it was in, with no fewer scopes. -/
structure InPlace (before after : State) : Prop where
  scopes : before.heap.scopes.size ≤ after.heap.scopes.size
  scope : after.scope = before.scope

theorem inPlace_steady : Steady InPlace where
  refl _ := ⟨Nat.le_refl _, rfl⟩
  trans first second :=
    ⟨Nat.le_trans first.scopes second.scopes, second.scope.trans first.scope⟩
  inside inner := ⟨inner.scopes, rfl⟩
  addScope _ _ _ := ⟨by simp [Heap.addScope], rfl⟩
  define _ _ _ _ := ⟨by simp [State.define, Heap.define], rfl⟩
  addFunction _ _ := ⟨Nat.le_refl _, rfl⟩
  addClass _ _ := ⟨Nat.le_refl _, rfl⟩
  addInstance _ _ := ⟨Nat.le_refl _, rfl⟩
  setField _ _ _ _ := ⟨Nat.le_refl _, rfl⟩
  print _ _ := ⟨Nat.le_refl _, rfl⟩
  tick _ := ⟨Nat.le_refl _, rfl⟩

/-- A task in scopes from some position on; a call brings its own scope. -/
structure Task.Inside (task : Task) (first : ScopeId) (state : State) : Prop where
  scopes : first ≤ state.heap.scopes.size
  scope : (∃ fuel callee arguments, task = .call fuel callee arguments) ∨ first ≤ state.scope

section

variable {task next : Task} {state after : State} {first : ScopeId}

/-- What a task starts runs in the scope of the task or in a new one. -/
theorem Starts.scope_cases
    (starts : Starts task state next after) :
    state.heap.scopes.size ≤ after.heap.scopes.size ∧
      (after.scope = state.scope ∨ after.scope = state.heap.scopes.size) := by
  have stay : ∀ {after : State}, InPlace state after →
      state.heap.scopes.size ≤ after.heap.scopes.size ∧
        (after.scope = state.scope ∨ after.scope = state.heap.scopes.size) :=
    fun inPlace => ⟨inPlace.scopes, .inl inPlace.scope⟩
  have evaluated : ∀ {fuel value found after},
      evaluate fuel value state = .ok found after → InPlace state after :=
    fun given => (inPlace_steady.evaluate _ _).ok given
  cases starts with
  | rightOperand given => exact stay (evaluated given)
  | rightCondition given _ => exact stay (evaluated given)
  | arguments given => exact stay (evaluated given)
  | call givenCallee givenArguments givenFound =>
      have others := (inPlace_steady.mapM (inPlace_steady.evaluate _) _).ok givenArguments
      have looked := (inPlace_steady.composes.calleeFor _ _ _).ok givenFound
      exact stay (inPlace_steady.trans (evaluated givenCallee)
        (inPlace_steady.trans others looked))
  | field givenObject givenOwner =>
      obtain rfl := state_of_fieldOwner givenOwner
      exact stay (evaluated givenObject)
  | otherArguments given => exact stay (evaluated given)
  | block given =>
      obtain ⟨rfl, rfl⟩ := EStateM.Result.ok.inj given
      exact ⟨by simp [Heap.addScope], .inr rfl⟩
  | consequent given _ => exact stay (evaluated given)
  | alternative given _ => exact stay (evaluated given)
  | round given _ => exact stay (evaluated given)
  | nextRound given _ givenRound =>
      have round := (inPlace_steady.execute _ _).ok givenRound
      exact stay (inPlace_steady.trans (evaluated given) round)
  | otherStatements given => exact stay ((inPlace_steady.execute _ _).ok given)
  | functionBody given =>
      obtain ⟨rfl, rfl⟩ := EStateM.Result.ok.inj given
      exact ⟨by simp [Heap.addScope], .inr rfl⟩
  | construction givenObject _ givenMethod =>
      obtain ⟨rfl, rfl⟩ := EStateM.Result.ok.inj givenObject
      obtain ⟨rfl, rfl⟩ := EStateM.Result.ok.inj givenMethod
      exact ⟨by simp [Heap.addScope, Heap.addInstance], .inl rfl⟩
  | _ => exact stay (inPlace_steady.refl _)

/-- What is started inside is inside. -/
theorem Task.Inside.of_starts
    (inside : task.Inside first state)
    (starts : Starts task state next after) :
    next.Inside first after := by
  obtain ⟨grown, here⟩ := starts.scope_cases
  have scopes := Nat.le_trans inside.scopes grown
  refine ⟨scopes, ?_⟩
  rcases here with same | new
  · rcases inside.scope with ⟨fuel, callee, arguments, rfl⟩ | current
    · cases starts with
      | functionBody given =>
          obtain ⟨rfl, rfl⟩ := EStateM.Result.ok.inj given
          exact .inr inside.scopes
      | construction _ _ _ => exact .inl ⟨_, _, _, rfl⟩
    · exact .inr (same ▸ current)
  · exact .inr (new ▸ inside.scopes)

theorem Task.Inside.of_reaches
    (reaches : Reaches task state next after)
    (inside : task.Inside first state) :
    next.Inside first after := by
  induction reaches with
  | here => exact inside
  | inside starts _ inductionHypothesis => exact inductionHypothesis (inside.of_starts starts)

end

/-! ## Declarations and assignments -/

/-- A task that is run for a block or a call, which brings a scope of its own. -/
inductive Task.Encloses : Task → Prop where
  | block {fuel body} : Encloses (.statement fuel (.block body))
  | call {fuel callee arguments} : Encloses (.call fuel callee arguments)

section

variable {resolved : Settlement → Prop} {root task : Task} {start begun state : State}
  {act : Act} {scope first : ScopeId} {name : String} {progress : Progress}

/-- What a block or a call reaches is the block itself, or is inside. -/
theorem Task.Encloses.inside
    (encloses : root.Encloses)
    (reaches : Reaches root start task begun) :
    (∃ fuel body, task = .statement fuel (.block body)) ∨
      task.Inside start.heap.scopes.size begun := by
  cases encloses with
  | call => exact .inr (.of_reaches reaches ⟨Nat.le_refl _, .inl ⟨_, _, _, rfl⟩⟩)
  | block =>
      cases reaches with
      | here => exact .inl ⟨_, _, rfl⟩
      | inside starts reaches =>
          cases starts with
          | block given =>
              obtain ⟨rfl, rfl⟩ := EStateM.Result.ok.inj given
              exact .inr (.of_reaches reaches
                ⟨by simp [Heap.addScope], .inr (Nat.le_refl _)⟩)

/--
An assignment in a ready task writes to a scope that has the name, unless it stands in the
initializer of the variable.  There it may write to the current scope.
-/
theorem writtenScope?_cases
    {fuel : Nat}
    {initializing : Option String}
    {target : Reference}
    {value : Expr}
    {assigned : Value}
    (ready : TaskReadyIn resolved begun initializing
      (.expression (fuel + 1) (.assign target value)))
    (given : evaluate fuel value begun = .ok assigned state)
    (written : state.writtenScope? target = some scope) :
    (state.heap.getLocal? scope target.name.text).isSome ∨
      initializing = some target.name.text ∧
        state.distances.get? target.id = some 0 ∧ state.scope = scope := by
  obtain ⟨place, proper, inside⟩ := ready
  have behind := inside.right.behind proper.2 inside.left given
  have settled := behind.settled _ (List.mem_singleton.mpr rfl)
  have distance : state.distances.get? target.id = place.depth? target.name.text :=
    (settled.recorded _ _ rfl).2
  unfold State.writtenScope? at written
  rw [distance] at written ⊢
  cases declared : place.depth? target.name.text with
  | none =>
      rw [declared] at written
      obtain ⟨found, isFound, rfl⟩ := Option.map_eq_some_iff.mp written
      exact .inl (Option.isSome_iff_exists.mpr ⟨found, isFound⟩)
  | some depth =>
      rw [declared] at written
      by_cases own : depth = 0 ∧ initializing = some target.name.text
      · obtain ⟨rfl, own⟩ := own
        exact .inr ⟨own, rfl, Option.some.inj written⟩
      · obtain ⟨id, table, found, above, known, isFound⟩ :=
          behind.covers.bound declared fun innermost own' => own ⟨innermost, own'⟩
        obtain rfl : id = scope := Option.some.inj (above.symm.trans written)
        refine .inl (Option.isSome_iff_exists.mpr ⟨found, ?_⟩)
        unfold Heap.getLocal?
        rw [known]
        exact isFound

/--
An assignment in a ready task that is inside writes to a scope that has the name, or to
the current scope, which is new.
-/
theorem writtenScope?_inside
    {fuel : Nat}
    {target : Reference}
    {value : Expr}
    {assigned : Value}
    (ready : TaskReady resolved begun (.expression (fuel + 1) (.assign target value)))
    (current : first ≤ begun.scope)
    (given : evaluate fuel value begun = .ok assigned state)
    (written : state.writtenScope? target = some scope) :
    first ≤ scope ∨ (state.heap.getLocal? scope target.name.text).isSome := by
  obtain ⟨initializing, inside⟩ := taskReady_iff.mp ready
  rcases writtenScope?_cases inside given written with bound | ⟨-, -, rfl⟩
  · exact .inr bound
  · have stays := (inPlace_steady.evaluate fuel value).ok given
    exact .inl (stays.scope ▸ current)

/-- What a ready task binds inside is bound in a new scope, or was bound already. -/
theorem Does.binds_inside
    (does : Does task begun state act)
    (ready : TaskReady resolved begun task)
    (inside : task.Inside first begun)
    (binds : act.Binds state scope name) :
    first ≤ scope ∨ (state.heap.getLocal? scope name).isSome := by
  have current : ∀ {other}, InPlace begun other →
      (∀ fuel callee arguments, task ≠ .call fuel callee arguments) → first ≤ other.scope := by
    intro other inPlace noCall
    rcases inside.scope with ⟨_, _, _, isCall⟩ | here
    · exact absurd isCall (noCall _ _ _)
    · exact inPlace.scope ▸ here
  cases does with
  | assign given written =>
      obtain ⟨rfl, rfl⟩ := binds
      exact writtenScope?_inside ready (current (inPlace_steady.refl _) (by simp)) given written
  | varDeclaration | functionDeclaration | baseClass =>
      obtain ⟨rfl, rfl⟩ := binds
      exact .inl (current (inPlace_steady.refl _) (by simp))
  | initialized given | subclass given =>
      obtain ⟨rfl, rfl⟩ := binds
      exact .inl (current ((inPlace_steady.evaluate _ _).ok given) (by simp))
  | _ => exact binds.elim

/-- A block itself binds nothing. -/
theorem Does.of_block
    (does : Does task begun state act)
    {fuel : Nat}
    {body : List Stmt}
    (isBlock : task = .statement fuel (.block body)) :
    ¬ act.Binds state scope name := by
  cases does with
  | block => exact not_false
  | blockEnd => exact not_false
  | _ => cases isBlock

/-- Nothing that a block or a call does touches what was there before it. -/
theorem Course.leavesAlone
    (course : Course root start progress)
    (encloses : root.Encloses)
    (ready : TaskReady resolved start root)
    (whole : start.heap.Whole)
    (roots : ∀ entry ∈ root.roots start, start.heap.Has entry) :
    start.heap.LeftAlone progress.state.heap ∧
      ∀ entry, start.heap.Has entry → progress.state.heap.Has entry := by
  induction course with
  | begin => exact ⟨.refl _, fun _ has => has⟩
  | learn _ _ inductionHypothesis => exact inductionHypothesis
  | @act progress task begun act course reaches does atHand inductionHypothesis =>
      obtain ⟨alone, there⟩ := inductionHypothesis
      have sound := course.whole whole roots
      have taken : ∀ entry ∈ act.uses, progress.state.heap.Has entry :=
        fun entry isUsed => sound.has_of_reached (atHand.reached entry isUsed)
      refine ⟨Act.leavesAlone alone there taken fun scope name binds => ?_,
        fun entry has => act.has_result (there entry has)⟩
      rcases encloses.inside reaches with ⟨fuel, body, rfl⟩ | inside
      · exact absurd binds (does.of_block rfl)
      · exact does.binds_inside (ready.of_reaches reaches) inside binds

/-- A block or a call leaves alone what was there before it, however it ends. -/
theorem Grounded.leavesAlone
    (grounded : Grounded resolved start root)
    (encloses : root.Encloses) :
    start.heap.LeftAlone (endState (root.run start)).heap := by
  have here : Reaches root start root start := .here
  obtain ⟨progress, course, same⟩ := here.course_end
  rw [← same]
  exact (course.leavesAlone encloses grounded.ready grounded.whole grounded.roots).1

end

end Lox.Execution
