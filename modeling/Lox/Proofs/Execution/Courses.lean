import Lox.Proofs.Execution.Acts

namespace Lox.Execution

/-!
# Every run is a course

Whatever a task runs, it comes to its end by acts of tasks that it reaches, and it has got
hold of what it gives back.  So whatever every act keeps holds wherever a run comes.  The
induction is on fuel; for each kind of node the acts are followed one by one.
-/

/-! ## Progress -/

/-- A later progress of the same course: nothing that was at hand is lost. -/
structure Progress.Before (earlier later : Progress) : Prop where
  acts : earlier.acts <+: later.acts
  known : ∀ entry ∈ earlier.known, entry ∈ later.known
  entered : ∀ scope ∈ earlier.entered, scope ∈ later.entered

section

variable {root : Task} {start : State} {earlier middle later progress : Progress}

namespace Progress.Before

theorem refl (progress : Progress) : progress.Before progress :=
  ⟨List.prefix_rfl, fun _ member => member, fun _ member => member⟩

/-- Progress of a course comes in an order. -/
theorem trans (first : earlier.Before middle) (second : middle.Before later) :
    earlier.Before later where
  acts := first.acts.trans second.acts
  known entry member := second.known entry (first.known entry member)
  entered scope member := second.entered scope (first.entered scope member)

theorem learning (progress : Progress) (entry : Entry) :
    progress.Before (progress.learning entry) :=
  ⟨List.prefix_rfl, fun _ member => List.mem_cons_of_mem _ member, fun _ member => member⟩

theorem after (progress : Progress) (act : Act) : progress.Before (progress.after act) :=
  ⟨List.prefix_append _ _, fun _ member => List.mem_append_right _ member,
    fun _ member => List.mem_cons_of_mem _ member⟩

end Progress.Before

/-- What is known is reached. -/
theorem Progress.reached_of_known {entry : Entry} (member : entry ∈ progress.known) :
    progress.state.heap.Reached progress.known entry :=
  ⟨entry, member, .refl⟩

/-! ## Courses -/

/-- An act leaves the current scope alone, enters a new one, or goes back to one. -/
theorem Act.scope_result (act : Act) (state : State) :
    (act.result state).scope = state.scope ∨
      Entry.scope (act.result state).scope ∈ act.gives state ∨
      act = .leave (act.result state).scope := by
  cases act with
  | enterBlock => exact .inr (.inl (by simp [Act.result, Act.gives]))
  | activate function arguments => exact .inr (.inl (by simp [Act.result, Act.gives]))
  | leave scope => exact .inr (.inr rfl)
  | _ => exact .inl rfl

/-- No act changes which scope is the global one. -/
theorem Act.globals_result (act : Act) (state : State) :
    (act.result state).globals = state.globals := by
  cases act <;> rfl

/-- No act changes the distances that are known. -/
theorem Act.distances_result (act : Act) (state : State) :
    (act.result state).distances = state.distances := by
  cases act <;> rfl

namespace Course

/-- The current scope has been entered, and what has been entered is at hand. -/
theorem entered (course : Course root start progress) :
    progress.state.scope ∈ progress.entered ∧
      ∀ scope ∈ progress.entered, .scope scope ∈ progress.known := by
  induction course with
  | begin => simp [Task.roots]
  | learn _ _ inductionHypothesis =>
      exact ⟨inductionHypothesis.1, fun scope member =>
        List.mem_cons_of_mem _ (inductionHypothesis.2 scope member)⟩
  | @act progress task begun act course reaches does atHand inductionHypothesis =>
      refine ⟨List.mem_cons_self, fun scope member => ?_⟩
      rcases List.mem_cons.mp member with rfl | before
      · rcases act.scope_result progress.state with same | new | back
        · rw [same]
          exact List.mem_append_right _ (inductionHypothesis.2 _ inductionHypothesis.1)
        · exact List.mem_append_left _ new
        · exact List.mem_append_right _ (inductionHypothesis.2 _ (atHand.entered _ back))
      · exact List.mem_append_right _ (inductionHypothesis.2 scope before)

/-- The global scope is the one that the run began with, and always known. -/
theorem globals (course : Course root start progress) :
    progress.state.globals = start.globals ∧ .scope start.globals ∈ progress.known := by
  induction course with
  | begin => simp [Task.roots]
  | learn _ _ inductionHypothesis =>
      exact ⟨inductionHypothesis.1, List.mem_cons_of_mem _ inductionHypothesis.2⟩
  | act _ _ _ _ inductionHypothesis =>
      exact ⟨(Act.globals_result _ _).trans inductionHypothesis.1,
        List.mem_append_right _ inductionHypothesis.2⟩

/-- The distances are those that the run began with. -/
theorem distances (course : Course root start progress) :
    progress.state.distances = start.distances := by
  induction course with
  | begin => rfl
  | learn _ _ inductionHypothesis => exact inductionHypothesis
  | act _ _ _ _ inductionHypothesis =>
      exact (Act.distances_result _ _).trans inductionHypothesis

end Course

/-- A task that a reached task starts is reached. -/
theorem Reaches.starting
    {task first : Task}
    {state after : State}
    (reaches : Reaches root start task state)
    (starts : Starts task state first after) :
    Reaches root start first after := by
  induction reaches with
  | here => exact .inside starts .here
  | inside begins _ inductionHypothesis => exact .inside begins (inductionHypothesis starts)

end

/-! ## What an action comes to -/

section

variable {root : Task} {start : State} {progress : Progress}

/-- From some progress, a course comes to a state, with something good at hand there. -/
def Attains
    (root : Task)
    (start : State)
    (progress : Progress)
    (state : State)
    (good : (Entry → Prop) → Prop) :
    Prop :=
  ∃ later, Course root start later ∧ progress.Before later ∧ later.state = state ∧
    good (· ∈ later.known)

/-- From some progress, a course comes to the end of an action, and has what that gives. -/
def Comes
    (root : Task)
    (start : State)
    (progress : Progress)
    (action : Eval α)
    (good : (Entry → Prop) → α → Prop) :
    Prop :=
  match action progress.state with
  | .ok value after => Attains root start progress after fun known => good known value
  | .error exit after => Attains root start progress after exit.In

namespace Comes

variable {α β : Type} {good : (Entry → Prop) → α → Prop} {best : (Entry → Prop) → β → Prop}

/-- An action that gives a value comes to an end where what it gives is known. -/
theorem of_ok
    {action : Eval α}
    {value : α}
    {after : State}
    (given : action progress.state = .ok value after)
    (attains : Attains root start progress after fun known => good known value) :
    Comes root start progress action good := by
  unfold Comes
  rwa [given]

/-- An action that stops comes to an end where what it brings is known. -/
theorem of_error
    {action : Eval α}
    {exit : Exit}
    {after : State}
    (stopped : action progress.state = .error exit after)
    (attains : Attains root start progress after exit.In) :
    Comes root start progress action good := by
  unfold Comes
  rwa [stopped]

/-- What an action gives is known where it comes to its end. -/
theorem ok
    {action : Eval α}
    {value : α}
    {after : State}
    (comes : Comes root start progress action good)
    (given : action progress.state = .ok value after) :
    Attains root start progress after fun known => good known value := by
  unfold Comes at comes
  rwa [given] at comes

/-- What an action brings that stops is known where it comes to its end. -/
theorem error
    {action : Eval α}
    {exit : Exit}
    {after : State}
    (comes : Comes root start progress action good)
    (stopped : action progress.state = .error exit after) :
    Attains root start progress after exit.In := by
  unfold Comes at comes
  rwa [stopped] at comes

/-- However an action ends, the course comes to its end. -/
theorem ends
    {action : Eval α}
    (comes : Comes root start progress action good) :
    ∃ later, Course root start later ∧ progress.Before later ∧
      later.state = endState (action progress.state) := by
  cases given : action progress.state with
  | ok value after =>
      obtain ⟨later, course, before, same, -⟩ := comes.ok given
      exact ⟨later, course, before, same⟩
  | error exit after =>
      obtain ⟨later, course, before, same, -⟩ := comes.error given
      exact ⟨later, course, before, same⟩

/-- An action that gives something better gives something good. -/
theorem weaken
    {better : (Entry → Prop) → α → Prop}
    {action : Eval α}
    (comes : Comes root start progress action better)
    (implies : ∀ known value, better known value → good known value) :
    Comes root start progress action good := by
  cases given : action progress.state with
  | ok value after =>
      obtain ⟨later, course, before, same, fine⟩ := comes.ok given
      exact of_ok given ⟨later, course, before, same, implies _ value fine⟩
  | error exit after => exact of_error given (comes.error given)

/-- Nothing needs to be done to give what is known. -/
theorem pure
    {value : α}
    (course : Course root start progress)
    (fine : good (· ∈ progress.known) value) :
    Comes root start progress (pure value) good :=
  of_ok rfl ⟨progress, course, .refl progress, rfl, fine⟩

/-- A run may stop with what is known. -/
theorem throw
    {exit : Exit}
    (course : Course root start progress)
    (fine : exit.In (· ∈ progress.known)) :
    Comes root start progress (throw exit : Eval α) good :=
  of_error rfl ⟨progress, course, .refl progress, rfl, fine⟩

theorem raise
    {error : RuntimeError}
    (course : Course root start progress) :
    Comes root start progress (raise error : Eval α) good :=
  throw course trivial

/-- Actions in a row, each from where the one before it has come. -/
theorem bind
    {first : Eval α}
    {next : α → Eval β}
    (head : Comes root start progress first good)
    (tail : ∀ value later, first progress.state = .ok value later.state →
      Course root start later → progress.Before later → good (· ∈ later.known) value →
      Comes root start later (next value) best) :
    Comes root start progress (first >>= next) best := by
  cases given : first progress.state with
  | error exit after =>
      have stopped : (first >>= next) progress.state = .error exit after := by
        rw [bind_apply, given]
      exact of_error stopped (head.error given)
  | ok value after =>
      obtain ⟨later, course, before, rfl, fine⟩ := head.ok given
      have further := tail value later given course before fine
      have shift : (first >>= next) progress.state = next value later.state :=
        bind_of_ok given next
      cases result : next value later.state with
      | ok final last =>
          obtain ⟨end', courseEnd, beforeEnd, same, better⟩ := further.ok result
          exact of_ok (shift.trans result)
            ⟨end', courseEnd, before.trans beforeEnd, same, better⟩
      | error exit last =>
          obtain ⟨end', courseEnd, beforeEnd, same, returned⟩ := further.error result
          exact of_error (shift.trans result)
            ⟨end', courseEnd, before.trans beforeEnd, same, returned⟩

/-- The state may be looked at that the course has come to. -/
theorem get
    {next : State → Eval α}
    (comes : Comes root start progress (next progress.state) good) :
    Comes root start progress (get >>= next) good :=
  comes

/-- What is made of a good value is good. -/
theorem map
    {action : Eval α}
    {convert : α → β}
    (comes : Comes root start progress action good)
    (implies : ∀ known value, good known value → best known (convert value)) :
    Comes root start progress (convert <$> action) best := by
  rw [map_eq_pure_bind]
  exact comes.bind fun value later _ course _ fine => pure course (implies _ value fine)

theorem discard
    {action : Eval α}
    (comes : Comes root start progress action good) :
    Comes root start progress (discard action : Eval PUnit) fun _ _ => True :=
  comes.map fun _ _ _ => trivial

/-! ## Single steps -/

/-- An act of a reached task takes the course on. -/
theorem of_act
    {action : Eval α}
    {value : α}
    {task : Task}
    {begun : State}
    {act : Act}
    (course : Course root start progress)
    (reaches : Reaches root start task begun)
    (does : Does task begun progress.state act)
    (atHand : act.AtHand progress)
    (given : action progress.state = .ok value (act.result progress.state))
    (fine : good (· ∈ (progress.after act).known) value) :
    Comes root start progress action good :=
  of_ok given ⟨progress.after act, course.act reaches does atHand, .after progress act, rfl, fine⟩

/-- A value that is reached is got hold of when it is read. -/
theorem of_reached
    {action : Eval Value}
    {value : Value}
    (course : Course root start progress)
    (given : action progress.state = .ok value progress.state)
    (reached : value.In (progress.state.heap.Reached progress.known)) :
    Comes root start progress action Value.In := by
  cases isEntry : value.entry? with
  | none => exact of_ok given ⟨progress, course, .refl progress, rfl, Value.in_of_none isEntry⟩
  | some entry =>
      exact of_ok given ⟨progress.learning entry, course.learn (reached entry isEntry),
        .learning progress entry, rfl, Value.in_of_some isEntry List.mem_cons_self⟩

/-- A computation that changes nothing ends where it began. -/
theorem lift
    {result : Except RuntimeError α}
    (course : Course root start progress)
    (fine : ∀ value, result = .ok value → good (· ∈ progress.known) value) :
    Comes root start progress (lift result) good := by
  cases result with
  | ok value => exact pure course (fine value rfl)
  | error error => exact raise course

end Comes

/-! ## Steps without a run of their own -/

variable {fuel : Nat}

namespace Course

/-- The current scope is reached. -/
theorem reached_scope (course : Course root start progress) :
    progress.state.heap.Reached progress.known (.scope progress.state.scope) :=
  Progress.reached_of_known (course.entered.2 _ course.entered.1)

/-- The global scope is reached. -/
theorem reached_globals (course : Course root start progress) :
    progress.state.heap.Reached progress.known (.scope progress.state.globals) :=
  Progress.reached_of_known (course.globals.1 ▸ course.globals.2)

/-- The scope that an assignment writes to is reached. -/
theorem reached_writtenScope
    (course : Course root start progress)
    {target : Reference}
    {scope : ScopeId}
    (written : progress.state.writtenScope? target = some scope) :
    progress.state.heap.Reached progress.known (.scope scope) := by
  unfold State.writtenScope? at written
  split at written
  · exact (Heap.closed_reached _ _).ancestor?_in course.reached_scope written
  · obtain ⟨_, -, rfl⟩ := Option.map_eq_some_iff.mp written
    exact course.reached_globals

end Course

/-- What a variable gives that is looked up is reached, and may be learned. -/
theorem lookUp_comes
    (course : Course root start progress)
    (id : NodeId)
    (name : Identifier) :
    Comes root start progress (lookUp id name) Value.In := by
  have closed := progress.state.heap.closed_reached progress.known
  refine .get ?_
  cases known : progress.state.distances.get? id with
  | some distance =>
      dsimp only
      cases found : progress.state.heap.getAt? progress.state.scope distance name.text with
      | none => exact .raise course
      | some value =>
          exact .of_reached course rfl (closed.getAt?_in course.reached_scope found)
  | none =>
      dsimp only
      cases found : progress.state.global? name.text with
      | none => exact .raise course
      | some value =>
          exact .of_reached course rfl (closed.getLocal?_in course.reached_globals found)

/-- An assignment defines the name in the scope to which it is written, if there is one. -/
theorem assignTo_apply (target : Reference) (value : Value) (state : State) :
    assignTo target value state =
      match state.writtenScope? target with
      | some scope => .ok () (state.define scope target.name.text value)
      | none => .error (.error (.undefinedVariable target.name)) state :=
  rfl

/-- An act is at hand if everything that it uses is reached. -/
theorem Act.atHand_of_reached
    {act : Act}
    (stays : ∀ scope, act ≠ .leave scope)
    (reached : ∀ entry ∈ act.uses, progress.state.heap.Reached progress.known entry) :
    act.AtHand progress :=
  ⟨reached, fun scope leaves => absurd leaves (stays scope)⟩

/-- A known value is reached with everything that it stands for. -/
theorem Value.reached_of_known
    {value : Value}
    (known : value.In (· ∈ progress.known)) :
    ∀ entry ∈ value.entry?.toList, progress.state.heap.Reached progress.known entry := by
  intro entry member
  exact Progress.reached_of_known (known entry (Option.mem_toList.mp member))

/-- A method that is reached is bound to an instance that is at hand. -/
theorem boundValue_comes
    (course : Course root start progress)
    {task : Task}
    {begun : State}
    (reaches : Reaches root start task begun)
    {method : Function}
    {object : InstanceId}
    (does : Does task begun progress.state (.bind method object))
    (closure : progress.state.heap.Reached progress.known (.scope method.closure))
    (receiver : progress.state.heap.Reached progress.known (.instanceObject object)) :
    Comes root start progress (boundValue method object) Value.In := by
  refine .of_act course reaches does (Act.atHand_of_reached (by simp) ?_) rfl ?_
  · simpa [Act.uses] using ⟨closure, receiver⟩
  · exact Value.in_of_some rfl List.mem_cons_self

/-- A property is read, or a method is bound by an act of this access. -/
theorem propertyOf_comes
    (course : Course root start progress)
    {object : Expr}
    {name : Identifier}
    {begun : State}
    (reaches : Reaches root start (.expression (fuel + 1) (.property object name)) begun)
    {found : Value}
    (evaluated : evaluate fuel object begun = .ok found progress.state)
    (known : found.In (· ∈ progress.known)) :
    Comes root start progress (propertyOf found name) Value.In := by
  have closed := progress.state.heap.closed_reached progress.known
  cases found with
  | instanceObject id =>
      have receiver := Progress.reached_of_known (known _ rfl)
      refine .get ?_
      dsimp only
      cases field : progress.state.heap.getField? id name.text with
      | some value => exact .of_reached course rfl (closed.getField?_in receiver field)
      | none =>
          cases inherited : progress.state.heap.methodOf? id name.text with
          | none => exact .raise course
          | some method =>
              exact boundValue_comes course reaches (.property evaluated field inherited)
                (closed.methodOf?_in receiver inherited) receiver
  | _ => exact .raise course

/-- A superclass that is found is the binding of the scope at the given distance. -/
theorem superclassAt_ok
    {distance : Nat}
    {state after : State}
    {parent : ClassId}
    (given : superclassAt distance state = .ok parent after) :
    after = state ∧
      state.heap.getAt? state.scope distance superclassName = some (.classObject parent) := by
  unfold superclassAt at given
  rw [bind_of_ok (get_apply state)] at given
  cases found : state.heap.getAt? state.scope distance superclassName with
  | none => simp [found, throw_apply] at given
  | some value =>
      simp only [found] at given
      cases value with
      | classObject id =>
          obtain ⟨rfl, rfl⟩ := EStateM.Result.ok.inj given
          exact ⟨rfl, rfl⟩
      | _ => cases given

/-- A receiver that is found is the binding of the scope just inside the given distance. -/
theorem receiverInside_ok
    {distance : Nat}
    {state after : State}
    {object : InstanceId}
    (given : receiverInside distance state = .ok object after) :
    after = state ∧ ∃ nearer, distance = nearer + 1 ∧
      state.heap.getAt? state.scope nearer receiverName = some (.instanceObject object) := by
  unfold receiverInside at given
  rw [bind_of_ok (get_apply state)] at given
  cases distance with
  | zero => cases given
  | succ nearer =>
      cases found : state.heap.getAt? state.scope nearer receiverName with
      | none => simp [found, throw_apply] at given
      | some value =>
          simp only [found] at given
          cases value with
          | instanceObject id =>
              obtain ⟨rfl, rfl⟩ := EStateM.Result.ok.inj given
              exact ⟨rfl, nearer, rfl, found⟩
          | _ => cases given

/-- Looking for a superclass is no act. -/
theorem superclassAt_comes (course : Course root start progress) (distance : Nat) :
    Comes root start progress (superclassAt distance) fun _ _ => True := by
  refine .get ?_
  split
  · exact .pure course trivial
  · exact .throw course trivial

/-- Looking for a receiver is no act. -/
theorem receiverInside_comes (course : Course root start progress) (distance : Nat) :
    Comes root start progress (receiverInside distance) fun _ _ => True := by
  refine .get ?_
  dsimp only
  split
  · exact .pure course trivial
  · exact .throw course trivial

/-- A method of a superclass is bound by an act of this access. -/
theorem superMethod_comes
    (course : Course root start progress)
    {id : NodeId}
    {line : Nat}
    {method : Identifier}
    (reaches : Reaches root start (.expression (fuel + 1) (.super id line method))
      progress.state) :
    Comes root start progress (superMethod id line method) Value.In := by
  refine .get ?_
  split
  · exact .raise course
  next distance known =>
    refine (superclassAt_comes course distance).bind fun parent middle given course _ _ => ?_
    obtain ⟨same, isClass⟩ := superclassAt_ok given
    rw [← same] at reaches known isClass
    refine (receiverInside_comes course distance).bind fun object later given course _ _ => ?_
    obtain ⟨same, nearer, rfl, isInstance⟩ := receiverInside_ok given
    rw [← same] at reaches known isClass isInstance
    refine .get ?_
    have closed := later.state.heap.closed_reached later.known
    cases found : later.state.heap.findMethod? parent method.text with
    | none => exact .raise course
    | some inherited =>
        have parentIn := closed.getAt?_in course.reached_scope isClass _ rfl
        have objectIn := closed.getAt?_in course.reached_scope isInstance _ rfl
        exact boundValue_comes course reaches (.super known isClass isInstance found)
          (closed.findMethod?_in parentIn found) objectIn

end

end Lox.Execution
