import Lox.Proofs.Execution.Chronicles
import Lox.Proofs.Execution.Hierarchy
import Lox.Proofs.Execution.InnerEnds

namespace Lox.Execution

/-!
# Classes and fields are as the chronicle says

Between two events of a chronicle nothing happens to the classes and to the fields of
instances, and what an event notes does happen to them.  So the acts that are noted before
any point of a session decide which classes there are at this point, what their methods
are, and what was set last for every field.
-/

/-! ## Between events -/

/-- No class is made, and no field is set. -/
structure SameRecord (before after : State) : Prop where
  classes : after.heap.classes = before.heap.classes
  fields : ∀ object name, after.heap.getField? object name = before.heap.getField? object name

theorem SameRecord.refl (state : State) : SameRecord state state :=
  ⟨rfl, fun _ _ => rfl⟩

/-- States that agree on classes and instances do so in a row. -/
theorem SameRecord.trans
    {before middle after : State}
    (first : SameRecord before middle)
    (second : SameRecord middle after) :
    SameRecord before after :=
  ⟨second.classes.trans first.classes,
    fun object name => (second.fields object name).trans (first.fields object name)⟩

/-- Plain changes leave classes and fields alone; a new instance has no field. -/
theorem sameRecord_plainlySteady : PlainlySteady SameRecord where
  refl := SameRecord.refl
  trans := SameRecord.trans
  inside inner := ⟨inner.classes, inner.fields⟩
  addScope _ _ _ := ⟨rfl, fun _ _ => rfl⟩
  define _ _ _ _ := ⟨rfl, fun _ _ => rfl⟩
  addFunction _ _ := ⟨rfl, fun _ _ => rfl⟩
  addInstance state classId := by
    -- The new instance is there only afterwards, but before it had no value for a field either.
    refine ⟨rfl, fun object name => ?_⟩
    simp only [Heap.getField?, Heap.addInstance, Array.getElem?_push]
    split
    next new => simp [new]
    · rfl
  print _ _ := ⟨rfl, fun _ _ => rfl⟩
  tick _ := ⟨rfl, fun _ _ => rfl⟩

/-- Events lead from one state to another: nothing else happens to classes and fields. -/
inductive Leads : State → List Event → State → Prop where
  | nothing {before after} : SameRecord before after → Leads before [] after
  | event {before noted events after} :
      SameRecord before noted.state →
      Leads noted.after events after →
      Leads before (noted :: events) after

section

variable {before between middle after state : State} {events more inside : List Event}
  {stages : List Stage} {fuel : Nat} {task : Task} {α β : Type}

namespace Leads

/-- Events may begin where the classes and instances are the same. -/
theorem after_same (same : SameRecord before middle) (leads : Leads middle events after) :
    Leads before events after := by
  cases leads with
  | nothing rest => exact .nothing (same.trans rest)
  | event rest leads => exact .event (same.trans rest) leads

/-- Events lead on from where other events have led. -/
theorem append (first : Leads before events middle) (second : Leads middle more after) :
    Leads before (events ++ more) after := by
  induction first with
  | nothing same => exact second.after_same same
  | event same _ inductionHypothesis => exact .event same (inductionHypothesis second)

/-- Events lead to any state with the same classes and instances. -/
theorem before_same (leads : Leads before events middle) (same : SameRecord middle after) :
    Leads before events after := by
  have appended := leads.append (.nothing same)
  rwa [List.append_nil] at appended

/-- A task is led through from its beginning to its end by what is noted inside it. -/
theorem spanning (inner : Leads state inside (endState (task.run state))) :
    Leads state (spanning task state inside) (endState (task.run state)) :=
  .event (.refl state) (inner.append (.event (.refl _) (.nothing (.refl _))))

end Leads

/-! ## Stages lead through a run -/

/-- The stages of an action lead from where it begins to where it ends. -/
def Tells (fuel : Nat) (stages : List Stage) (action : Eval α) (state : State) : Prop :=
  Leads state (recordOf fuel stages) (endState (action state))

namespace Tells

/-- An action that leaves classes and fields alone has nothing to tell. -/
theorem nothing {action : Eval α} (leaves : Leaves SameRecord action) :
    Tells fuel [] action state :=
  Leads.nothing (leaves state)

/-- Of two actions in a row, the first one tells its stages, and then the second one. -/
theorem bind
    {first : Eval α}
    {next : α → Eval β}
    {further : α → State → List Stage}
    (head : Tells fuel stages first state)
    (tail : ∀ value after, first state = .ok value after →
      Tells fuel (further value after) (next value) after) :
    Tells fuel (stages ++ begunBehind (first state) further) (first >>= next) state := by
  unfold Tells at head ⊢
  rw [recordOf_append, bind_apply]
  cases given : first state with
  | ok value after =>
      rw [given] at head
      exact head.append (tail value after given)
  | error exit after =>
      rw [given] at head
      exact head.append (.nothing (.refl after))

/-- Behind an action that leaves classes and fields alone, the second one tells its stages. -/
theorem behind_nothing
    {first : Eval α}
    {next : α → Eval β}
    {further : α → State → List Stage}
    (leaves : Leaves SameRecord first)
    (tail : ∀ value after, first state = .ok value after →
      Tells fuel (further value after) (next value) after) :
    Tells fuel (begunBehind (first state) further) (first >>= next) state :=
  bind (nothing leaves) tail

/-- What is done behind an action and leaves classes and fields alone adds nothing. -/
theorem then_nothing
    {first : Eval α}
    {next : α → Eval β}
    (head : Tells fuel stages first state)
    (leaves : ∀ value, Leaves SameRecord (next value)) :
    Tells fuel stages (first >>= next) state := by
  unfold Tells at head ⊢
  rw [bind_apply]
  cases given : first state with
  | ok value after =>
      rw [given] at head
      exact head.before_same (leaves value after)
  | error exit after =>
      rw [given] at head
      exact head

/-- The state may be looked at. -/
theorem get
    {next : State → Eval α}
    (tells : Tells fuel stages (next state) state) :
    Tells fuel stages (get >>= next) state :=
  tells

/-- What is made of a value changes no class and no instance. -/
theorem map
    {action : Eval α}
    {convert : α → β}
    (tells : Tells fuel stages action state) :
    Tells fuel stages (convert <$> action) state := by
  unfold Tells at tells ⊢
  rwa [endState_map]

/-- What is told of a body is told of it where it is run in another scope. -/
theorem within
    {action : Eval α}
    {scope : ScopeId}
    (tells : Tells fuel stages action { state with scope := scope }) :
    Tells fuel stages (within scope action) state := by
  unfold Tells at tells ⊢
  have entered : SameRecord state { state with scope := scope } := ⟨rfl, fun _ _ => rfl⟩
  rw [within_apply]
  cases ended : action { state with scope := scope } with
  | ok value final =>
      rw [ended] at tells
      exact (tells.after_same entered).before_same ⟨rfl, fun _ _ => rfl⟩
  | error exit final =>
      rw [ended] at tells
      exact (tells.after_same entered).before_same ⟨rfl, fun _ _ => rfl⟩

/-- A body that is left by a return tells the same, up to this return. -/
theorem returning {body : Eval Unit} (tells : Tells fuel stages body state) :
    Tells fuel stages (returning body) state := by
  unfold Tells at tells ⊢
  rwa [endState_returning]

/-- An action that only performs an act tells it. -/
theorem performs
    {action : Eval α}
    {act : Act}
    (ended : endState (action state) = act.result state) :
    Tells fuel [.notes [.performs act state]] action state := by
  unfold Tells
  rw [ended]
  exact .event (.refl state) (.nothing (.refl _))

/-- An action that runs a job tells its beginning and its end, and its stages in between. -/
theorem of_stages
    (job : Job)
    {action : Eval α}
    (runs : endState ((job.task (fuel + 1)).run state) = endState (action state))
    (inner : Tells fuel (job.stages fuel state) action state) :
    Tells (fuel + 1) [.runs job state] action state := by
  unfold Tells at inner ⊢
  rw [← runs] at inner ⊢
  rw [recordOf_runs, chronicle_succ]
  exact inner.spanning

/-- Without fuel, a job is told to begin and to end, with nothing in between. -/
theorem without_fuel
    (job : Job)
    {action : Eval α}
    (runs : endState ((job.task 0).run state) = endState (action state))
    (stays : endState (action state) = state) :
    Tells 0 [.runs job state] action state := by
  have inner : Leads state [] (endState ((job.task 0).run state)) := by
    rw [runs, stays]
    exact .nothing (.refl state)
  unfold Tells
  rw [recordOf_runs, ← runs]
  exact inner.spanning

end Tells

/-- What there is in a chronicle of some fuel leads through every run with this fuel. -/
structure EverythingTells (fuel : Nat) : Prop where
  expressions : ∀ value state,
    Tells fuel [.runs (.expression value) state] (evaluate fuel value) state
  statements : ∀ single state,
    Tells fuel [.runs (.statement single) state] (execute fuel single) state
  calls : ∀ callee passed state,
    Tells fuel [.runs (.call callee passed) state] (call fuel callee passed) state

namespace EverythingTells

/-- Steps tell what they do one after the other. -/
theorem inTurn
    {jobOf : α → Job}
    {run : α → Eval PUnit}
    (each : ∀ one state, Tells fuel [.runs (jobOf one) state] (run one) state)
    (all : List α)
    (state : State) :
    Tells fuel (stagesInTurn jobOf run all state) (all.forM run) state := by
  induction all generalizing state with
  | nil => exact .nothing sameRecord_plainlySteady.refl
  | cons one rest inductionHypothesis =>
      exact (each one state).bind fun _ after _ => inductionHypothesis after

/-- Expressions in a row tell what each of them does. -/
theorem arguments
    (tells : EverythingTells fuel)
    (values : List Expr)
    (state : State) :
    Tells fuel (stagesInTurn .expression (evaluate fuel) values state)
      (values.mapM (evaluate fuel)) state := by
  induction values generalizing state with
  | nil => exact .nothing sameRecord_plainlySteady.refl
  | cons first rest inductionHypothesis =>
      rw [List.mapM_cons]
      exact (tells.expressions first state).bind fun _ after _ =>
        (inductionHypothesis after).then_nothing fun _ => sameRecord_plainlySteady.refl

/-- Every expression tells what it does if everything with less fuel does. -/
theorem evaluate_succ
    (tells : EverythingTells fuel)
    (value : Expr)
    (state : State) :
    Tells fuel (expressionStages fuel state value) (evaluate (fuel + 1) value) state := by
  have plain := sameRecord_plainlySteady.composes
  cases value with
  | literal _ => exact .nothing (plain.pure _)
  | grouping inner => exact tells.expressions inner state
  | unary operator line operand =>
      exact (tells.expressions operand state).then_nothing fun _ => plain.lift _
  | binary operator line left right =>
      refine (tells.expressions left state).bind fun first after _ => ?_
      exact (tells.expressions right after).then_nothing fun _ => plain.lift _
  | logical operator left right =>
      refine (tells.expressions left state).bind fun first after _ => ?_
      by_cases settled : isSettledBy operator first = true
      · simp only [settled, if_true]
        exact .nothing (plain.pure first)
      · simp only [settled, Bool.false_eq_true, if_false]
        exact tells.expressions right after
  | reference occurrence => exact .nothing (plain.lookUp _ _)
  | assign target value =>
      exact (tells.expressions value state).then_nothing fun assigned =>
        plain.bind (plain.assignTo target assigned) fun _ => plain.pure assigned
  | call callee arguments line =>
      refine (tells.expressions callee state).bind fun subject middle _ => ?_
      refine (tells.arguments arguments middle).bind fun values later _ => ?_
      refine Tells.behind_nothing (plain.calleeFor subject _ line) fun found after _ => ?_
      exact tells.calls found values after
  | property object name =>
      exact (tells.expressions object state).then_nothing fun found => plain.propertyOf found name
  | setProperty object name value =>
      refine (tells.expressions object state).bind fun found middle _ => ?_
      refine Tells.behind_nothing (plain.fieldOwner found name) fun owner same _ => ?_
      refine (tells.expressions value same).bind fun assigned after _ => ?_
      exact .performs rfl
  | this id line => exact .nothing (plain.lookUp _ _)
  | super id line method => exact .nothing (plain.superMethod _ _ _)

/-- The look-up of a superclass tells no more than that it begins and ends. -/
theorem tells_superclassOf (parent : Reference) (state : State) :
    Tells fuel [.notes (spanning (.expression (fuel + 1) (.reference parent)) state [])]
      (superclassOf parent) state := by
  have plain := sameRecord_plainlySteady.composes
  have found : Leads state (spanning (.expression (fuel + 1) (.reference parent)) state [])
      (endState (lookUp parent.id parent.name state)) := by
    have ended := endState_expression (fuel + 1) (.reference parent) state
    have looked := Leads.spanning (.nothing (ended.symm ▸ plain.lookUp parent.id parent.name state))
    rwa [ended] at looked
  have looksUp : Tells fuel
      [.notes (spanning (.expression (fuel + 1) (.reference parent)) state [])]
      (lookUp parent.id parent.name) state := found
  refine looksUp.then_nothing fun value => ?_
  cases value with
  | classObject id => exact plain.pure id
  | _ => exact plain.throw _

/-- Every statement tells what it does if everything with less fuel does. -/
theorem execute_succ
    (tells : EverythingTells fuel)
    (single : Stmt)
    (state : State) :
    Tells fuel (statementStages fuel state single) (execute (fuel + 1) single) state := by
  have plain := sameRecord_plainlySteady.composes
  cases single with
  | expression value => exact (tells.expressions value state).map
  | print value => exact (tells.expressions value state).then_nothing plain.printValue
  | varDeclaration name initializer =>
      cases initializer with
      | none => exact .nothing (plain.defineHere _ _)
      | some value =>
          exact (tells.expressions value state).then_nothing fun found => plain.defineHere _ found
  | block body =>
      change Tells fuel
        (begunBehind (newScope Bindings.empty state.scope state) fun scope after =>
          stagesInTurn .statement (execute fuel) body { after with scope := scope })
        (newScope Bindings.empty state.scope >>= fun scope =>
          Execution.within scope (body.forM (execute fuel))) state
      refine Tells.behind_nothing (plain.newScope _ _) fun scope after _ => ?_
      exact (inTurn tells.statements body _).within
  | branch condition consequent alternative =>
      refine (tells.expressions condition state).bind fun found after _ => ?_
      by_cases truthy : found.isTruthy = true
      · simp only [truthy, if_true]
        exact tells.statements consequent after
      · simp only [truthy, Bool.false_eq_true, if_false]
        cases alternative with
        | none => exact .nothing (plain.pure ())
        | some other => exact tells.statements other after
  | loop condition body =>
      refine (tells.expressions condition state).bind fun found after _ => ?_
      by_cases truthy : found.isTruthy = true
      · simp only [truthy, if_true]
        exact (tells.statements body after).bind fun _ last _ => tells.statements _ last
      · simp only [truthy, Bool.false_eq_true, if_false]
        exact .nothing (plain.pure ())
  | functionDeclaration declaration => exact .nothing (plain.declareFunction declaration)
  | returnValue line value =>
      cases value with
      | none => exact .nothing (plain.throw _)
      | some value =>
          exact (tells.expressions value state).then_nothing fun found => plain.throw _
  | classDeclaration name superclass methods =>
      cases superclass with
      | none => exact .performs rfl
      | some parent =>
          unfold Execution.execute
          rw [declareClass_some]
          refine (tells_superclassOf parent state).bind fun id after _ => ?_
          exact .performs rfl

/-- Every call tells what it does if everything with less fuel does. -/
theorem call_succ
    (tells : EverythingTells fuel)
    (callee : Callee)
    (passed : List Value)
    (state : State) :
    Tells fuel (callStages fuel passed state callee) (call (fuel + 1) callee passed) state := by
  have plain := sameRecord_plainlySteady.composes
  cases callee with
  | native native => exact .nothing plain.readClock
  | function function =>
      change Tells fuel
        (begunBehind (activate function passed state) fun scope after =>
          stagesInTurn .statement (execute fuel) function.declaration.body
            { after with scope := scope })
        (activate function passed >>= fun scope =>
          returning (Execution.within scope (function.declaration.body.forM (execute fuel))) >>=
            callResult function) state
      refine Tells.behind_nothing (plain.newScope _ _) fun scope after _ => ?_
      exact (inTurn tells.statements _ _).within.returning.then_nothing (plain.callResult function)
  | classObject classId =>
      unfold callStages Execution.call
      refine Tells.behind_nothing (plain.newInstance classId) fun object middle _ => ?_
      refine Tells.get ?_
      cases middle.heap.findMethod? classId constructorName with
      | none => exact .nothing (plain.pure _)
      | some method =>
          refine Tells.behind_nothing (plain.bindMethod method object) fun bound after _ => ?_
          exact (tells.calls _ passed after).map.then_nothing fun _ => plain.pure _

end EverythingTells

/-- With any fuel, everything that is run tells what it does. -/
theorem everything_tells (fuel : Nat) : EverythingTells fuel := by
  induction fuel with
  | zero =>
      refine ⟨fun value state => ?_, fun single state => ?_, fun callee passed state => ?_⟩
      · exact .without_fuel (.expression value) (endState_expression _ _ _) rfl
      · exact .without_fuel (.statement single) (endState_statement _ _ _) rfl
      · exact .without_fuel (.call callee passed) (endState_call _ _ _ _) rfl
  | succ fuel inductionHypothesis =>
      refine ⟨fun value state => ?_, fun single state => ?_, fun callee passed state => ?_⟩
      · have inner := inductionHypothesis.evaluate_succ value state
        exact .of_stages (.expression value) (endState_expression _ _ _) inner
      · have inner := inductionHypothesis.execute_succ single state
        exact .of_stages (.statement single) (endState_statement _ _ _) inner
      · have inner := inductionHypothesis.call_succ callee passed state
        exact .of_stages (.call callee passed) (endState_call _ _ _ _) inner

/-! ## What the noted acts decide -/

variable {root : Task} {start final : State} {history : List Act} {event : Event} {act : Act}

/-- What an event takes has been made where it takes place. -/
def Event.Takes (event : Event) : Prop :=
  ∀ act, event.act? = some act → ∀ entry ∈ act.uses, event.state.heap.Has entry

/-- The acts of events are those of the first one and of the others. -/
theorem actsOf_cons (event : Event) (events : List Event) :
    actsOf (event :: events) = actsOf [event] ++ actsOf events := by
  unfold actsOf
  rw [← List.filterMap_append]
  rfl

/-- A history describes every heap with the same classes and instances. -/
theorem Ordered.same
    (ordered : Ordered history before.heap)
    (same : SameRecord before after) :
    Ordered history after.heap where
  classes := same.classes ▸ ordered.classes
  superclasses id made parent known := ordered.superclasses id made parent (same.classes ▸ known)
  fields object name := (same.fields object name).trans (ordered.fields object name)

/-- An event carries on the history by the act that it notes. -/
theorem Ordered.afterEvent
    (ordered : Ordered history event.state.heap)
    (takes : event.Takes) :
    Ordered (history ++ actsOf [event]) event.after.heap := by
  cases event with
  | performs act state => exact ordered.act (takes act rfl)
  | begins task state | ends task state =>
      change Ordered (history ++ []) state.heap
      rwa [List.append_nil]

/-- Wherever events lead, classes and fields are as the acts that they note have left them. -/
theorem Leads.ordered
    (leads : Leads start events final)
    (taken : ∀ event ∈ events, event.Takes)
    (ordered : Ordered history start.heap) :
    Ordered (history ++ actsOf events) final.heap ∧
      ∀ before event behind, events = before ++ event :: behind →
        Ordered (history ++ actsOf before) event.state.heap := by
  -- Along the events, the history so far describes every state; in between nothing changes.
  induction leads generalizing history with
  | nothing same =>
      refine ⟨?_, fun before event behind split => ?_⟩
      · simpa [actsOf] using ordered.same same
      · simp at split
  | @event _ noted events _ same _ inductionHypothesis =>
      obtain ⟨takes, others⟩ := List.forall_mem_cons.mp taken
      have here := ordered.same same
      obtain ⟨atEnd, everywhere⟩ := inductionHypothesis others (here.afterEvent takes)
      rw [List.append_assoc, ← actsOf_cons] at atEnd
      refine ⟨atEnd, fun before event behind split => ?_⟩
      cases before with
      | nil =>
          obtain ⟨rfl, -⟩ := List.cons.inj split
          simpa [actsOf] using here
      | cons one before =>
          obtain ⟨rfl, rest⟩ := List.cons.inj split
          have further := everywhere before event behind rest
          rwa [List.append_assoc, ← actsOf_cons] at further

/-! ## What has been made -/

/-- What a noted act takes has been made where the act is performed, in a whole heap. -/
theorem Does.takes
    (does : Does task before state act)
    (noted : act.IsNoted)
    (reaches : Reaches root start task before)
    (heap : start.heap.Whole)
    (roots : ∀ entry ∈ root.roots start, start.heap.Has entry) :
    state.heap.Whole ∧ ∀ entry ∈ act.uses, state.heap.Has entry := by
  obtain ⟨progress, course, rfl, -⟩ := reaches.course
  cases does with
  | @setProperty fuel object name value _ owner middle assigned _ givenObject givenValue =>
      obtain ⟨later, course, -, rfl, isOwner⟩ :=
        evaluate_attains course (reaches.starting .owner) givenObject
      obtain ⟨last, course, further, rfl, isAssigned⟩ :=
        evaluate_attains course (reaches.starting (.field givenObject rfl)) givenValue
      have whole := course.whole heap roots
      refine ⟨whole.heap, List.forall_mem_cons.mpr ⟨?_, fun entry member => ?_⟩⟩
      · exact whole.known _ (further.known _ (isOwner _ rfl))
      · exact whole.known _ (isAssigned entry (Option.mem_toList.mp member))
  | baseClass => exact ⟨(course.whole heap roots).heap, nofun⟩
  | subclass given =>
      obtain ⟨later, course, -, rfl, isParent⟩ :=
        evaluate_attains course (reaches.starting .superclass) given
      have whole := course.whole heap roots
      refine ⟨whole.heap, List.forall_mem_singleton.mpr ?_⟩
      exact whole.known _ (isParent _ rfl)
  | _ => exact noted.elim

/-- Events of a run that begins in a whole heap take place in whole heaps. -/
theorem Event.BelongsTo.sound
    (belongs : event.BelongsTo root start)
    (heap : start.heap.Whole)
    (roots : ∀ entry ∈ root.roots start, start.heap.Has entry) :
    event.state.heap.Whole ∧ event.Takes := by
  cases event with
  | begins task state =>
      have reaches : Reaches root start task state := belongs
      obtain ⟨progress, course, rfl, -⟩ := reaches.course
      exact ⟨(course.whole heap roots).heap, nofun⟩
  | performs act state =>
      obtain ⟨noted, task, begun, reaches, does⟩ := belongs
      obtain ⟨whole, has⟩ := does.takes noted reaches heap roots
      refine ⟨whole, fun other same => ?_⟩
      obtain rfl := Option.some.inj same
      exact has
  | ends task state =>
      obtain ⟨begun, reaches, rfl⟩ := belongs
      obtain ⟨progress, course, same⟩ := reaches.course_end
      exact ⟨same ▸ (course.whole heap roots).heap, nofun⟩

/-! ## Series of programs -/

/-- The events of rounds in a row lead to the state behind the last round. -/
theorem State.events_lead (state : State) (rounds : List Round) :
    Leads state (state.events rounds) (state.afterRounds rounds) := by
  induction rounds generalizing state with
  | nil => exact .nothing (.refl state)
  | cons round rest inductionHypothesis =>
      have told : Leads (round.begins state) (round.task.events (round.begins state))
          (endState (executeAll round.fuel round.program (round.begins state))) :=
        EverythingTells.inTurn (everything_tells round.fuel).statements _ _
      rw [← endState_interpret] at told
      have settled : SameRecord state (round.begins state) := ⟨rfl, fun _ _ => rfl⟩
      exact (told.after_same settled).append (inductionHypothesis (state.afterRound round))

/--
In whatever series of programs, with whatever distances of occurrences, the chronicle has
everything that a task comes to, and nothing else, and whoever performs an act that declares
a class or sets a field leaves the state that the act results in and notes this act as the
last thing.  Wherever the chronicle comes by and behind the series, the acts noted until
then decide what there is: the chain of each class ends without coming back, a method is
found in the nearest class that declares one of its name, as the last declaration there, and
a property of an instance is what was set last for it, or else such a method bound to the
instance, or else undefined.
-/
theorem hierarchy_recorded (clock : Clock) (rounds : List Round) :
    let initial := State.initial clock
    let events := initial.events rounds
    Recorded (actsOf events) (initial.afterRounds rounds) ∧
      (∀ before event behind, events = before ++ event :: behind →
        Recorded (actsOf before) event.state) ∧
      (∀ event ∈ events, ∃ earlier round later, rounds = earlier ++ round :: later ∧
        event.BelongsTo round.task (round.begins (initial.afterRounds earlier))) ∧
      ∀ earlier round later, rounds = earlier ++ round :: later →
        ∀ task state, Reaches round.task (round.begins (initial.afterRounds earlier)) task state →
          task.events state <:+: events ∧
            ∀ act after, Does task state after act → act.IsNoted →
              endState (task.run state) = act.result after ∧
                [.performs act after, .ends task (act.result after)] <:+: task.events state := by
  intro initial events
  have belong := initial.events_belong rounds
  -- Every round begins in a whole heap, so the acts of its events take only what is there.
  have sound : ∀ event ∈ events, event.state.heap.Whole ∧ event.Takes := by
    intro event member
    obtain ⟨earlier, round, later, -, belongs⟩ := belong event member
    obtain ⟨history, visited⟩ := visited_afterRounds clock earlier
    obtain ⟨whole, scope, globals, -⟩ := (visited.settled round.distances).sound
    refine belongs.sound whole fun entry member => ?_
    rcases List.mem_cons.mp member with rfl | member
    · exact scope
    rcases List.mem_cons.mp member with rfl | member
    · exact globals
    · cases member
  obtain ⟨history, visited⟩ := visited_afterRounds clock rounds
  obtain ⟨-, -, -, nothing⟩ := (Visited.start : Visited clock [] _).sound
  obtain ⟨atEnd, everywhere⟩ :=
    (initial.events_lead rounds).ordered (fun event member => (sound event member).2) nothing
  rw [List.nil_append] at atEnd
  refine ⟨atEnd.recorded visited.sound.1, fun before event behind split => ?_, belong, ?_⟩
  · have member : event ∈ events := by simp [split]
    exact (everywhere before event behind split).recorded (sound event member).1
  · rintro earlier round later rfl task state reaches
    refine ⟨reaches.events_inside.trans (initial.events_inside earlier round later), ?_⟩
    intro act after does noted
    have ended := does.endState_run noted
    exact ⟨ended, ended ▸ does.noted noted⟩

end

/-- An event stands between those before it and those behind it. -/
theorem split_of_getElem?
    {events : List Event}
    {position : Nat}
    {event : Event}
    (known : events[position]? = some event) :
    events = events.take position ++ event :: events.drop (position + 1) := by
  obtain ⟨inside, rfl⟩ := List.getElem?_eq_some_iff.mp known
  rw [List.getElem_cons_drop, List.take_append_drop]

/-- The program `class A {} var a = A(); var b = a; b.x = true; a.x;`. -/
def aliasProgram : List Stmt :=
  [.classDeclaration ⟨"A", 1⟩ none [],
    .varDeclaration ⟨"a", 1⟩ (some (.call (.reference ⟨0, ⟨"A", 1⟩⟩) [] 1)),
    .varDeclaration ⟨"b", 1⟩ (some (.reference ⟨1, ⟨"a", 1⟩⟩)),
    .expression (.setProperty (.reference ⟨2, ⟨"b", 1⟩⟩) ⟨"x", 1⟩ (.literal (.bool true))),
    .expression (.property (.reference ⟨3, ⟨"a", 1⟩⟩) ⟨"x", 1⟩)]

/-- Whether an event is the end of the last `a`, with an instance in the heap. -/
def isLastRead : Option Event → Bool
  | some (.ends (.expression 2 (.reference occurrence)) state) =>
      decide (occurrence = ⟨3, ⟨"a", 1⟩⟩) && state.heap.instances[0]?.isSome
  | _ => false

/-- The end that is taken for the last reading of `a` is one, in a state with an instance. -/
theorem exists_of_isLastRead {event? : Option Event} (isLast : isLastRead event? = true) :
    ∃ state made, event? = some (.ends (.expression 2 (.reference ⟨3, ⟨"a", 1⟩⟩)) state) ∧
      state.heap.instances[0]? = some made := by
  unfold isLastRead at isLast
  split at isLast
  · obtain ⟨same, isSome⟩ := Bool.and_eq_true_iff.mp isLast
    obtain rfl := of_decide_eq_true same
    obtain ⟨made, isMade⟩ := Option.isSome_iff_exists.mp isSome
    exact ⟨_, made, rfl, isMade⟩
  · cases isLast

/-- A field that is set by way of one variable is read by way of another one. -/
theorem hierarchy_recorded_alias :
    ∃ before state behind,
      (State.initial ⟨0⟩).events [⟨.empty, aliasProgram, 4⟩] =
          before ++ .ends (.expression 2 (.reference ⟨3, ⟨"a", 1⟩⟩)) state :: behind ∧
        lastSet? (actsOf before) 0 "x" = some (.bool true) ∧
        readProperty 0 ⟨"x", 1⟩ state = .ok (.bool true) state := by
  have isLast :
      isLastRead ((State.initial ⟨0⟩).events [⟨.empty, aliasProgram, 4⟩])[27]? = true := by
    decide +kernel
  obtain ⟨state, made, known, isMade⟩ := exists_of_isLastRead isLast
  have last : lastSet? (actsOf (((State.initial ⟨0⟩).events [⟨.empty, aliasProgram, 4⟩]).take 27))
      0 "x" = some (.bool true) := by
    decide +kernel
  have split := split_of_getElem? known
  have recorded := (hierarchy_recorded ⟨0⟩ [⟨.empty, aliasProgram, 4⟩]).2.1 _ _ _ split
  have read := recorded.properties 0 made ⟨"x", 1⟩ isMade
  rw [last] at read
  exact ⟨_, state, _, split, last, read⟩

end Lox.Execution
