import Lox.Proofs.Execution.Activity
import Lox.Proofs.Execution.Restoration

namespace Lox.Execution

/-!
# The chronicle of a run

What a run evaluates, executes and calls, noted when it begins and when it ends, and between
these the classes that are declared and the fields that are set.  The chronicle is computed
from the run itself, so it has everything that the run comes to, in its order, and nothing
else.
-/

/-! ## Events -/

/-- The acts that are noted: those that declare a class or set a field. -/
def Act.IsNoted : Act → Prop
  | .setField _ _ _ => True
  | .declareClass _ _ _ => True
  | _ => False

/-- What is noted of a run: that a task begins or ends, or that an act is performed. -/
inductive Event where
  | begins (task : Task) (state : State)
  | performs (act : Act) (state : State)
  | ends (task : Task) (state : State)

namespace Event

/-- The state in which an event takes place. -/
def state : Event → State
  | begins _ state => state
  | performs _ state => state
  | ends _ state => state

/-- The act that is performed. -/
def act? : Event → Option Act
  | performs act _ => some act
  | _ => none

/-- The state that an event leaves. -/
def after (event : Event) : State :=
  match event.act? with
  | some act => act.result event.state
  | none => event.state

/-- An event of the run of a task: it is about what the run comes to, where it comes to it. -/
def BelongsTo (root : Task) (start : State) : Event → Prop
  | begins task state => Reaches root start task state
  | performs act state =>
      act.IsNoted ∧ ∃ task begun, Reaches root start task begun ∧ Does task begun state act
  | ends task state =>
      ∃ begun, Reaches root start task begun ∧ endState (task.run begun) = state

end Event

/-- The acts that events note, in their order. -/
def actsOf (events : List Event) : List Act :=
  events.filterMap Event.act?

/-- What is noted of a task, with what is noted inside it. -/
def spanning (task : Task) (state : State) (inside : List Event) : List Event :=
  .begins task state :: (inside ++ [.ends task (endState (task.run state))])

/-! ## Stages -/

/-- What is run with some fuel. -/
inductive Job where
  | expression (value : Expr)
  | statement (single : Stmt)
  | call (callee : Callee) (passed : List Value)

/-- The task of a job. -/
def Job.task (fuel : Nat) : Job → Task
  | expression value => .expression fuel value
  | statement single => .statement fuel single
  | call callee passed => .call fuel callee passed

/-- A stage of a job: it runs another one, or there is something to note. -/
inductive Stage where
  | runs (job : Job) (state : State)
  | notes (events : List Event)

/-- The stages of what is done in a row, up to where it stops. -/
def stagesInTurn (jobOf : α → Job) (run : α → Eval β) : List α → State → List Stage
  | [], _ => []
  | first :: rest, state =>
      .runs (jobOf first) state ::
        begunBehind (run first state) fun _ after => stagesInTurn jobOf run rest after

/-- What an expression evaluates, calls and sets, each where it comes to it. -/
def expressionStages (fuel : Nat) (state : State) : Expr → List Stage
  | .grouping inner => [.runs (.expression inner) state]
  | .unary _ _ operand => [.runs (.expression operand) state]
  | .binary _ _ left right =>
      .runs (.expression left) state ::
        begunBehind (evaluate fuel left state) fun _ after => [.runs (.expression right) after]
  | .logical operator left right =>
      .runs (.expression left) state ::
        begunBehind (evaluate fuel left state) fun first after =>
          if isSettledBy operator first then [] else [.runs (.expression right) after]
  | .assign _ value => [.runs (.expression value) state]
  | .call callee arguments line =>
      .runs (.expression callee) state ::
        begunBehind (evaluate fuel callee state) fun subject middle =>
          stagesInTurn .expression (evaluate fuel) arguments middle ++
            begunBehind (arguments.mapM (evaluate fuel) middle) fun values later =>
              begunBehind (calleeFor subject values.length line later) fun found after =>
                [.runs (.call found values) after]
  | .property object _ => [.runs (.expression object) state]
  | .setProperty object name value =>
      .runs (.expression object) state ::
        begunBehind (evaluate fuel object state) fun found middle =>
          begunBehind (fieldOwner found name middle) fun owner middle =>
            .runs (.expression value) middle ::
              begunBehind (evaluate fuel value middle) fun assigned after =>
                [.notes [.performs (.setField owner name.text assigned) after]]
  | .literal _ => []
  | .reference _ => []
  | .this _ _ => []
  | .super _ _ _ => []

/-- What a statement evaluates, executes and declares, each where it comes to it. -/
def statementStages (fuel : Nat) (state : State) : Stmt → List Stage
  | .expression value => [.runs (.expression value) state]
  | .print value => [.runs (.expression value) state]
  | .varDeclaration _ none => []
  | .varDeclaration _ (some value) => [.runs (.expression value) state]
  | .block body => stagesInTurn .statement (execute fuel) body (Act.enterBlock.result state)
  | .branch condition consequent alternative =>
      .runs (.expression condition) state ::
        begunBehind (evaluate fuel condition state) fun found after =>
          if found.isTruthy then
            [.runs (.statement consequent) after]
          else
            match alternative with
            | some other => [.runs (.statement other) after]
            | none => []
  | .loop condition body =>
      .runs (.expression condition) state ::
        begunBehind (evaluate fuel condition state) fun found after =>
          if found.isTruthy then
            .runs (.statement body) after ::
              begunBehind (execute fuel body after) fun _ last =>
                [.runs (.statement (.loop condition body)) last]
          else
            []
  | .functionDeclaration _ => []
  | .returnValue _ none => []
  | .returnValue _ (some value) => [.runs (.expression value) state]
  | .classDeclaration name none methods =>
      [.notes [.performs (.declareClass name.text none methods) state]]
  | .classDeclaration name (some parent) methods =>
      .notes (spanning (.expression (fuel + 1) (.reference parent)) state []) ::
        begunBehind (superclassOf parent state) fun id after =>
          [.notes [.performs (.declareClass name.text (some id) methods) after]]

/-- What a call executes and calls, each where it comes to it. -/
def callStages (fuel : Nat) (passed : List Value) (state : State) : Callee → List Stage
  | .native _ => []
  | .function function =>
      stagesInTurn .statement (execute fuel) function.declaration.body
        ((Act.activate function passed).result state)
  | .classObject classId =>
      begunBehind (newInstance classId state) fun object middle =>
        match middle.heap.findMethod? classId constructorName with
        | some method =>
            begunBehind (bindMethod method object middle) fun bound after =>
              [.runs (.call (.function bound) passed) after]
        | none => []

/-- The stages of a job that is run with some fuel more than they are. -/
def Job.stages (fuel : Nat) (state : State) : Job → List Stage
  | expression value => expressionStages fuel state value
  | statement single => statementStages fuel state single
  | call callee passed => callStages fuel passed state callee

/-! ## The chronicle -/

/-- What is noted of a stage. -/
def Stage.events (record : Job → State → List Event) : Stage → List Event
  | runs job state => record job state
  | notes events => events

/-- What is noted of a job: its beginning, its stages, and its end. -/
def chronicle : Nat → Job → State → List Event
  | 0, job, state => spanning (job.task 0) state []
  | fuel + 1, job, state =>
      spanning (job.task (fuel + 1)) state
        ((job.stages fuel state).flatMap (Stage.events (chronicle fuel)))

/-- What is noted of stages that are run with some fuel. -/
def recordOf (fuel : Nat) (stages : List Stage) : List Event :=
  stages.flatMap (Stage.events (chronicle fuel))

/-- What is noted of a task that begins in a state. -/
def Task.events (state : State) : Task → List Event
  | .expression fuel value => chronicle fuel (.expression value) state
  | .arguments fuel values =>
      recordOf fuel (stagesInTurn .expression (evaluate fuel) values state)
  | .statement fuel single => chronicle fuel (.statement single) state
  | .statements fuel body => recordOf fuel (stagesInTurn .statement (execute fuel) body state)
  | .call fuel callee passed => chronicle fuel (.call callee passed) state

section

variable {root task first : Task} {start state after : State} {fuel : Nat} {job inner : Job}
  {act : Act} {event : Event} {stages more : List Stage}

/-! ## Everything is noted -/

/-- What is recorded of stages in a row is recorded of one after the other. -/
theorem recordOf_append (fuel : Nat) (stages more : List Stage) :
    recordOf fuel (stages ++ more) = recordOf fuel stages ++ recordOf fuel more :=
  List.flatMap_append

theorem recordOf_runs (fuel : Nat) (job : Job) (state : State) :
    recordOf fuel [.runs job state] = chronicle fuel job state :=
  List.flatMap_singleton _ _

/-- A chronicle begins with the task and ends with it. -/
theorem chronicle_succ (fuel : Nat) (job : Job) (state : State) :
    chronicle (fuel + 1) job state =
      spanning (job.task (fuel + 1)) state (recordOf fuel (job.stages fuel state)) :=
  rfl

/-- What is noted inside a task is noted of it. -/
theorem infix_spanning {inside part : List Event} (noted : part <:+: inside) :
    part <:+: spanning task state inside := by
  have inner : inside <:+: spanning task state inside :=
    ⟨[.begins task state], [.ends task (endState (task.run state))], by simp [spanning]⟩
  exact noted.trans inner

/-- What is recorded of a part of the stages stands in the record without a gap. -/
theorem recordOf_inside (part : stages <:+: more) :
    recordOf fuel stages <:+: recordOf fuel more := by
  obtain ⟨before, behind, rfl⟩ := part
  rw [recordOf_append, recordOf_append]
  exact ⟨_, _, rfl⟩

/-- What some stages of a job note, the job notes. -/
theorem recordOf_infix_chronicle (job : Job) (part : stages <:+: job.stages fuel state) :
    recordOf fuel stages <:+: chronicle (fuel + 1) job state :=
  infix_spanning (recordOf_inside part)

/-- The chronicle of a stage stands in the chronicle of its job without a gap. -/
theorem chronicle_infix_of_mem
    (job inner : Job)
    (member : .runs inner after ∈ job.stages fuel state) :
    chronicle fuel inner after <:+: chronicle (fuel + 1) job state := by
  obtain ⟨before, behind, isStage⟩ := List.append_of_mem member
  rw [← recordOf_runs]
  exact recordOf_infix_chronicle job ⟨before, behind, by simp [isStage]⟩

/-- Of what is done in a row, what is done first is noted first, and then the rest. -/
theorem recordOf_inTurn_cons
    {α β : Type}
    (jobOf : α → Job)
    (run : α → Eval β)
    (one : α)
    (rest : List α)
    (state : State) :
    recordOf fuel (stagesInTurn jobOf run (one :: rest) state) =
      chronicle fuel (jobOf one) state ++
        begunBehind (run one state) fun _ after =>
          recordOf fuel (stagesInTurn jobOf run rest after) := by
  change Stage.events (chronicle fuel) _ ++ recordOf fuel (begunBehind _ _) = _
  cases run one state <;> rfl

/-- Whatever a task starts is noted with it. -/
theorem Starts.events_inside (starts : Starts task state first after) :
    first.events after <:+: task.events state := by
  cases starts with
  | arguments given =>
      refine recordOf_infix_chronicle (.expression _) ?_
      simp only [Job.stages, expressionStages, given, begunBehind]
      exact (List.prefix_append _ _).isInfix.trans (List.suffix_cons _ _).isInfix
  | firstArgument =>
      simp only [Task.events, recordOf_inTurn_cons]
      exact (List.prefix_append _ _).isInfix
  | otherArguments given =>
      simp only [Task.events, recordOf_inTurn_cons, given]
      exact (List.suffix_append _ _).isInfix
  | block given =>
      obtain ⟨rfl, rfl⟩ := EStateM.Result.ok.inj given
      exact recordOf_infix_chronicle (.statement (.block _)) List.infix_rfl
  | superclass =>
      -- Nothing is noted inside the look-up of a superclass, so it is all in one stage.
      refine List.IsInfix.trans ?_ (infix_spanning (List.prefix_append _ _).isInfix)
      exact List.infix_rfl
  | firstStatement =>
      simp only [Task.events, recordOf_inTurn_cons]
      exact (List.prefix_append _ _).isInfix
  | otherStatements given =>
      simp only [Task.events, recordOf_inTurn_cons, given]
      exact (List.suffix_append _ _).isInfix
  | functionBody given =>
      obtain ⟨rfl, rfl⟩ := EStateM.Result.ok.inj given
      exact recordOf_infix_chronicle (.call (.function _) _) List.infix_rfl
  | construction givenObject found givenMethod =>
      refine chronicle_infix_of_mem (.call _ _) (.call _ _) ?_
      simp [Job.stages, callStages, givenObject, found, givenMethod, begunBehind]
  | call givenCallee givenArguments givenFound =>
      refine chronicle_infix_of_mem (.expression _) (.call _ _) ?_
      simp [Job.stages, expressionStages, givenCallee, givenArguments, givenFound, begunBehind]
  | consequent given truthy | alternative given truthy | round given truthy =>
      refine chronicle_infix_of_mem (.statement _) (.statement _) ?_
      simp [Job.stages, statementStages, given, truthy, begunBehind]
  | nextRound given truthy givenRound =>
      refine chronicle_infix_of_mem (.statement _) (.statement _) ?_
      simp [Job.stages, statementStages, given, truthy, givenRound, begunBehind]
  | effect | printed | initializer | condition | loopCondition | returned =>
      refine chronicle_infix_of_mem (.statement _) (.expression _) ?_
      simp [Job.stages, statementStages]
  | rightOperand given =>
      refine chronicle_infix_of_mem (.expression _) (.expression _) ?_
      simp [Job.stages, expressionStages, given, begunBehind]
  | rightCondition given settled =>
      refine chronicle_infix_of_mem (.expression _) (.expression _) ?_
      simp [Job.stages, expressionStages, given, settled, begunBehind]
  | field givenObject givenOwner =>
      refine chronicle_infix_of_mem (.expression _) (.expression _) ?_
      simp [Job.stages, expressionStages, givenObject, givenOwner, begunBehind]
  | _ =>
      refine chronicle_infix_of_mem (.expression _) (.expression _) ?_
      simp [Job.stages, expressionStages]

/-- Whatever a task comes to is noted with it. -/
theorem Reaches.events_inside (reaches : Reaches root start task state) :
    task.events state <:+: root.events start := by
  induction reaches with
  | here => exact List.infix_rfl
  | inside starts _ inductionHypothesis => exact inductionHypothesis.trans starts.events_inside

/-! ## Nothing else is noted -/

/-- A stage of the run of a task. -/
def Stage.BelongsTo (root : Task) (start : State) (fuel : Nat) : Stage → Prop
  | runs job state => Reaches root start (job.task fuel) state
  | notes events => ∀ event ∈ events, event.BelongsTo root start

/-- What is begun behind an action is good if it is for every way in which the action succeeds. -/
theorem forall_mem_begunBehind
    {α β : Type}
    {outcome : EStateM.Result Exit State α}
    {next : α → State → List β}
    {good : β → Prop}
    (fine : ∀ value after, outcome = .ok value after → ∀ one ∈ next value after, good one) :
    ∀ one ∈ begunBehind outcome next, good one := by
  intro one member
  obtain ⟨value, after, given, member⟩ := mem_begunBehind.mp member
  exact fine value after given one member

/-- What is done in a row belongs to a task that starts it one by one. -/
theorem stagesInTurn_belong
    {α β : Type}
    {jobOf : α → Job}
    {run : α → Eval β}
    (taskOf : List α → Task)
    (head : ∀ one rest state, Starts (taskOf (one :: rest)) state ((jobOf one).task fuel) state)
    (tail : ∀ one rest state value after, run one state = .ok value after →
      Starts (taskOf (one :: rest)) state (taskOf rest) after)
    {all : List α}
    (reaches : Reaches root start (taskOf all) state) :
    ∀ stage ∈ stagesInTurn jobOf run all state, stage.BelongsTo root start fuel := by
  induction all generalizing state with
  | nil => exact nofun
  | cons one rest inductionHypothesis =>
      refine List.forall_mem_cons.mpr ⟨reaches.starting (head one rest state), ?_⟩
      exact forall_mem_begunBehind fun value after given =>
        inductionHypothesis (reaches.starting (tail one rest state value after given))

/-- The stages of expressions in a row are tasks that are reached, and what these do. -/
theorem argument_stages_belong
    {arguments : List Expr}
    (reaches : Reaches root start (.arguments fuel arguments) state) :
    ∀ stage ∈ stagesInTurn .expression (evaluate fuel) arguments state,
      stage.BelongsTo root start fuel :=
  stagesInTurn_belong (.arguments fuel) (fun _ _ _ => .firstArgument)
    (fun _ _ _ _ _ given => .otherArguments given) reaches

/-- The stages of statements in a row are tasks that are reached, and what these do. -/
theorem statement_stages_belong
    {body : List Stmt}
    (reaches : Reaches root start (.statements fuel body) state) :
    ∀ stage ∈ stagesInTurn .statement (execute fuel) body state,
      stage.BelongsTo root start fuel :=
  stagesInTurn_belong (.statements fuel) (fun _ _ _ => .firstStatement)
    (fun _ _ _ _ _ given => .otherStatements given) reaches

/-- A stage that runs a job belongs to the task that starts it, and others have to follow. -/
theorem runs_cons_belong
    (reaches : Reaches root start (inner.task fuel) state)
    (further : ∀ stage ∈ stages, stage.BelongsTo root start fuel) :
    ∀ stage ∈ Stage.runs inner state :: stages, stage.BelongsTo root start fuel :=
  List.forall_mem_cons.mpr ⟨reaches, further⟩

/-- An act that a reached task does belongs to the run. -/
theorem performs_belong
    (reaches : Reaches root start task state)
    (does : Does task state after act)
    (noted : act.IsNoted) :
    ∀ stage ∈ [Stage.notes [.performs act after]], stage.BelongsTo root start fuel := by
  simp only [List.forall_mem_singleton, Stage.BelongsTo, Event.BelongsTo]
  exact ⟨noted, task, state, reaches, does⟩

/-- The stages of an expression are tasks that are reached, and what these do. -/
theorem expressionStages_belong
    {value : Expr}
    (reaches : Reaches root start (.expression (fuel + 1) value) state) :
    ∀ stage ∈ expressionStages fuel state value, stage.BelongsTo root start fuel := by
  have nothing : ∀ stage ∈ ([] : List Stage), stage.BelongsTo root start fuel := nofun
  cases value with
  | literal _ | reference _ | this _ _ | super _ _ _ => exact nothing
  | grouping inner => exact runs_cons_belong (reaches.starting .grouping) nothing
  | unary operator line operand => exact runs_cons_belong (reaches.starting .operand) nothing
  | binary operator line left right =>
      refine runs_cons_belong (reaches.starting .leftOperand) ?_
      exact forall_mem_begunBehind fun first after given =>
        runs_cons_belong (reaches.starting (.rightOperand given)) nothing
  | logical operator left right =>
      refine runs_cons_belong (reaches.starting .leftCondition) ?_
      refine forall_mem_begunBehind fun first after given => ?_
      split
      · exact nothing
      next settled =>
        have open' := eq_false_of_ne_true settled
        exact runs_cons_belong (reaches.starting (.rightCondition given open')) nothing
  | assign target value => exact runs_cons_belong (reaches.starting .assigned) nothing
  | call callee arguments line =>
      refine runs_cons_belong (reaches.starting .callee) ?_
      refine forall_mem_begunBehind fun subject middle givenCallee => ?_
      refine List.forall_mem_append.mpr
        ⟨argument_stages_belong (reaches.starting (.arguments givenCallee)), ?_⟩
      refine forall_mem_begunBehind fun values later givenArguments => ?_
      exact forall_mem_begunBehind fun found after givenFound =>
        runs_cons_belong (reaches.starting (.call givenCallee givenArguments givenFound)) nothing
  | property object name => exact runs_cons_belong (reaches.starting .object) nothing
  | setProperty object name value =>
      refine runs_cons_belong (reaches.starting .owner) ?_
      refine forall_mem_begunBehind fun found middle givenObject => ?_
      refine forall_mem_begunBehind fun owner same givenOwner => ?_
      refine runs_cons_belong (reaches.starting (.field givenObject givenOwner)) ?_
      obtain ⟨rfl, rfl⟩ := fieldOwner_ok givenOwner
      exact forall_mem_begunBehind fun assigned after givenValue =>
        performs_belong reaches (.setProperty givenObject givenValue) trivial

/-- The stages of a statement are tasks that are reached, and what these do. -/
theorem statementStages_belong
    {single : Stmt}
    (reaches : Reaches root start (.statement (fuel + 1) single) state) :
    ∀ stage ∈ statementStages fuel state single, stage.BelongsTo root start fuel := by
  have nothing : ∀ stage ∈ ([] : List Stage), stage.BelongsTo root start fuel := nofun
  cases single with
  | functionDeclaration _ => exact nothing
  | expression value => exact runs_cons_belong (reaches.starting .effect) nothing
  | print value => exact runs_cons_belong (reaches.starting .printed) nothing
  | varDeclaration name initializer =>
      cases initializer with
      | none => exact nothing
      | some value => exact runs_cons_belong (reaches.starting .initializer) nothing
  | block body => exact statement_stages_belong (reaches.starting (.block rfl))
  | branch condition consequent alternative =>
      refine runs_cons_belong (reaches.starting .condition) ?_
      refine forall_mem_begunBehind fun found after given => ?_
      split
      next truthy =>
        exact runs_cons_belong (reaches.starting (.consequent given truthy)) nothing
      next falsy =>
        cases alternative with
        | none => exact nothing
        | some other =>
            have isFalse := eq_false_of_ne_true falsy
            exact runs_cons_belong (reaches.starting (.alternative given isFalse)) nothing
  | loop condition body =>
      refine runs_cons_belong (reaches.starting .loopCondition) ?_
      refine forall_mem_begunBehind fun found after given => ?_
      split
      next truthy =>
        refine runs_cons_belong (reaches.starting (.round given truthy)) ?_
        exact forall_mem_begunBehind fun _ last givenRound =>
          runs_cons_belong (reaches.starting (.nextRound given truthy givenRound)) nothing
      · exact nothing
  | returnValue line value =>
      cases value with
      | none => exact nothing
      | some value => exact runs_cons_belong (reaches.starting .returned) nothing
  | classDeclaration name superclass methods =>
      cases superclass with
      | none => exact performs_belong reaches .baseClass trivial
      | some parent =>
          have lookUp := reaches.starting .superclass
          refine List.forall_mem_cons.mpr ⟨?_, ?_⟩
          · simp only [Stage.BelongsTo, spanning, List.nil_append, List.forall_mem_cons]
            exact ⟨lookUp, ⟨_, lookUp, rfl⟩, nofun⟩
          · exact forall_mem_begunBehind fun id after given =>
              performs_belong reaches (.subclass (superclassOf_ok given)) trivial

/-- The stages of a call are tasks that are reached, and what these do. -/
theorem callStages_belong
    {callee : Callee}
    {passed : List Value}
    (reaches : Reaches root start (.call (fuel + 1) callee passed) state) :
    ∀ stage ∈ callStages fuel passed state callee, stage.BelongsTo root start fuel := by
  cases callee with
  | native _ => exact nofun
  | function function => exact statement_stages_belong (reaches.starting (.functionBody rfl))
  | classObject classId =>
      unfold callStages
      refine forall_mem_begunBehind fun object middle givenObject => ?_
      split
      next method found =>
        exact forall_mem_begunBehind fun bound after givenMethod =>
          runs_cons_belong (reaches.starting (.construction givenObject found givenMethod)) nofun
      · exact nofun

/-- The stages of every job are tasks that are reached, and what these do. -/
theorem stages_belong (reaches : Reaches root start (job.task (fuel + 1)) state) :
    ∀ stage ∈ job.stages fuel state, stage.BelongsTo root start fuel := by
  cases job with
  | expression value => exact expressionStages_belong reaches
  | statement single => exact statementStages_belong reaches
  | call callee passed => exact callStages_belong reaches

/-- The begin and the end of a reached task belong to the run. -/
theorem spanning_belongs
    {inside : List Event}
    (reaches : Reaches root start task state)
    (within : ∀ event ∈ inside, event.BelongsTo root start) :
    ∀ event ∈ spanning task state inside, event.BelongsTo root start := by
  refine List.forall_mem_cons.mpr ⟨reaches, List.forall_mem_append.mpr ⟨within, ?_⟩⟩
  exact List.forall_mem_singleton.mpr ⟨state, reaches, rfl⟩

/-- What is recorded of stages that belong to a run belongs to it. -/
theorem recordOf_belongs
    (each : ∀ {job state}, Reaches root start (job.task fuel) state →
      ∀ event ∈ chronicle fuel job state, event.BelongsTo root start)
    (belong : ∀ stage ∈ stages, stage.BelongsTo root start fuel) :
    ∀ event ∈ recordOf fuel stages, event.BelongsTo root start := by
  intro event member
  obtain ⟨stage, isStage, member⟩ := List.mem_flatMap.mp member
  cases stage with
  | runs job state => exact each (belong _ isStage) event member
  | notes events => exact belong _ isStage event member

/-- What a job notes belongs to the run that comes to it. -/
theorem chronicle_belongs (job : Job) (reaches : Reaches root start (job.task fuel) state) :
    ∀ event ∈ chronicle fuel job state, event.BelongsTo root start := by
  induction fuel generalizing job state with
  | zero => exact spanning_belongs reaches nofun
  | succ fuel inductionHypothesis =>
      have inside := recordOf_belongs (inductionHypothesis _) (stages_belong reaches)
      exact spanning_belongs reaches inside

/-- What is noted of a task belongs to its run. -/
theorem Task.events_belong (task : Task) (state : State) :
    ∀ event ∈ task.events state, event.BelongsTo task state := by
  cases task with
  | expression fuel value => exact chronicle_belongs (.expression value) .here
  | arguments fuel values =>
      exact recordOf_belongs (chronicle_belongs _) (argument_stages_belong .here)
  | statement fuel single => exact chronicle_belongs (.statement single) .here
  | statements fuel body =>
      exact recordOf_belongs (chronicle_belongs _) (statement_stages_belong .here)
  | call fuel callee passed => exact chronicle_belongs (.call callee passed) .here

/-! ## Acts are performed at the end -/

/-- An act that is the last stage of a job stands right in front of its end. -/
theorem performs_before_end
    (job : Job)
    (isLast : [.notes [.performs act after]] <:+ job.stages fuel state) :
    [.performs act after, .ends (job.task (fuel + 1)) (endState ((job.task (fuel + 1)).run state))]
      <:+: chronicle (fuel + 1) job state := by
  obtain ⟨before, isLast⟩ := isLast
  have noted : recordOf fuel (job.stages fuel state) =
      recordOf fuel before ++ [.performs act after] := by
    rw [← isLast, recordOf_append]
    rfl
  rw [chronicle_succ, noted]
  refine ⟨.begins (job.task (fuel + 1)) state :: recordOf fuel before, [], ?_⟩
  simp [spanning]

/-- A task that performs an act of a noted kind does so at its end. -/
theorem Does.noted (does : Does task state after act) (noted : act.IsNoted) :
    [.performs act after, .ends task (endState (task.run state))] <:+: task.events state := by
  cases does with
  | @setProperty fuel object name value _ owner middle assigned _ givenObject givenValue =>
      have givenOwner : fieldOwner (.instanceObject owner) name middle = .ok owner middle := rfl
      refine performs_before_end (.expression (.setProperty object name value)) ?_
      simp only [Job.stages, expressionStages, givenObject, givenOwner, givenValue, begunBehind]
      exact ⟨[_, _], rfl⟩
  | baseClass =>
      exact performs_before_end (.statement (.classDeclaration _ none _)) List.suffix_rfl
  | @subclass fuel name parent methods _ id _ given =>
      have givenParent : superclassOf parent state = .ok id after := bind_of_ok given _
      refine performs_before_end (.statement (.classDeclaration name (some parent) methods)) ?_
      simp only [Job.stages, statementStages, givenParent, begunBehind]
      exact List.suffix_cons _ _
  | _ => exact noted.elim

/-- An act of a noted kind is the last thing that happens to the state of its task. -/
theorem Does.endState_run (does : Does task state after act) (noted : act.IsNoted) :
    endState (task.run state) = act.result after := by
  cases does with
  | @setProperty fuel object name value _ owner middle assigned _ givenObject givenValue =>
      have givenOwner : fieldOwner (.instanceObject owner) name middle = .ok owner middle := rfl
      rw [Task.run, endState_map, evaluate, bind_of_ok givenObject, bind_of_ok givenOwner,
        bind_of_ok givenValue]
      rfl
  | baseClass => rfl
  | @subclass fuel name parent methods _ id _ given =>
      have givenParent : superclassOf parent state = .ok id after := bind_of_ok given _
      rw [Task.run, endState_map, execute, declareClass_some, bind_of_ok givenParent]
      rfl
  | _ => exact noted.elim

end

/-! ## Series of programs -/

/-- The task that runs a program of a series. -/
def Round.task (round : Round) : Task :=
  .statements round.fuel round.program

/-- The state in which a program of a series begins. -/
def Round.begins (round : Round) (state : State) : State :=
  { state with distances := round.distances }

/-- What is noted of a series of programs. -/
def State.events (state : State) : List Round → List Event
  | [] => []
  | round :: rest =>
      round.task.events (round.begins state) ++ (state.afterRound round).events rest

/-- Every event of rounds in a row belongs to one of these rounds. -/
theorem State.events_belong (state : State) (rounds : List Round) :
    ∀ event ∈ state.events rounds, ∃ earlier round later,
      rounds = earlier ++ round :: later ∧
        event.BelongsTo round.task (round.begins (state.afterRounds earlier)) := by
  induction rounds generalizing state with
  | nil => exact nofun
  | cons round rest inductionHypothesis =>
      refine List.forall_mem_append.mpr ⟨fun event member => ?_, fun event member => ?_⟩
      · exact ⟨[], round, rest, rfl, Task.events_belong _ _ event member⟩
      · obtain ⟨earlier, other, later, rfl, belongs⟩ := inductionHypothesis _ event member
        exact ⟨round :: earlier, other, later, rfl, belongs⟩

/-- The events of every round stand among the events of all rounds without a gap. -/
theorem State.events_inside (state : State) (earlier : List Round) (round : Round)
    (later : List Round) :
    round.task.events (round.begins (state.afterRounds earlier)) <:+:
      state.events (earlier ++ round :: later) := by
  induction earlier generalizing state with
  | nil => exact (List.prefix_append _ _).isInfix
  | cons first rest inductionHypothesis =>
      exact (inductionHypothesis (state.afterRound first)).trans
        (List.suffix_append _ _).isInfix

end Lox.Execution
