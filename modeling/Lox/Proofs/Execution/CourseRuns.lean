import Lox.Proofs.Execution.Courses

namespace Lox.Execution

/-!
# Whole runs as courses

What is run inside another scope begins with the act that enters it and ends with the one
that leaves it.  With that every kind of node comes to its end, by induction on fuel, and
so every task that is reached is reached by a course.
-/

section

variable {root : Task} {start : State} {earlier later progress : Progress} {fuel : Nat}

/-- What is known stays known. -/
theorem Progress.Before.value
    (before : earlier.Before later)
    {value : Value}
    (known : value.In (· ∈ earlier.known)) :
    value.In (· ∈ later.known) :=
  fun entry isEntry => before.known entry (known entry isEntry)

/-! ## Runs inside another scope -/

/--
A run inside another scope: an act enters it, and whatever becomes of the run, the scope
from which it was entered is gone back to.
-/
theorem Comes.around
    {task : Task}
    {enter : Act}
    {action inner : Eval α}
    {good : (Entry → Prop) → α → Prop}
    (course : Course root start progress)
    (reaches : Reaches root start task progress.state)
    (leaves :
      Does task progress.state (endState (inner (enter.result progress.state)))
        (.leave progress.state.scope))
    (shape :
      action progress.state =
        mapState (fun final => { final with scope := progress.state.scope })
          (inner (enter.result progress.state)))
    (comes : Comes root start (progress.after enter) inner good) :
    Comes root start progress action good := by
  have back : ∀ last : Progress, Course root start last →
      (progress.after enter).Before last →
      last.state = endState (inner (enter.result progress.state)) →
      Course root start (last.after (.leave progress.state.scope)) ∧
        progress.Before (last.after (.leave progress.state.scope)) := by
    intro last courseLast before same
    have entered : progress.state.scope ∈ last.entered :=
      before.entered _ (List.mem_cons_of_mem _ course.entered.1)
    refine ⟨courseLast.act reaches (same ▸ leaves) ⟨by simp [Act.uses], ?_⟩, ?_⟩
    · rintro scope ⟨⟩
      exact entered
    · exact ((Progress.Before.after progress enter).trans before).trans (.after last _)
  cases ended : inner (enter.result progress.state) with
  | ok value final =>
      rw [ended] at shape
      obtain ⟨last, courseLast, before, rfl, fine⟩ := comes.ok ended
      obtain ⟨courseBack, beforeBack⟩ := back last courseLast before (by rw [ended]; rfl)
      exact .of_ok shape ⟨_, courseBack, beforeBack, rfl, fine⟩
  | error exit final =>
      rw [ended] at shape
      obtain ⟨last, courseLast, before, rfl, fine⟩ := comes.error ended
      obtain ⟨courseBack, beforeBack⟩ := back last courseLast before (by rw [ended]; rfl)
      exact .of_error shape ⟨_, courseBack, beforeBack, rfl, fine⟩

/-- What a body returns is at hand at its end. -/
theorem Comes.returning
    {body : Eval Unit}
    (comes : Comes root start progress body fun _ _ => True) :
    Comes root start progress (Execution.returning body) Value.In := by
  cases ended : body progress.state with
  | ok value final =>
      have given : Execution.returning body progress.state = .ok .nil final := by
        simp [Execution.returning, ended]
      obtain ⟨last, course, before, same, -⟩ := comes.ok ended
      exact .of_ok given ⟨last, course, before, same, Value.in_of_none rfl⟩
  | error exit final =>
      obtain ⟨last, course, before, same, fine⟩ := comes.error ended
      cases exit with
      | returned line value =>
          have given : Execution.returning body progress.state = .ok value final := by
            simp [Execution.returning, ended]
          exact .of_ok given ⟨last, course, before, same, fine⟩
      | _ =>
          have stopped : ∃ exit, Execution.returning body progress.state = .error exit final ∧
              exit.In (· ∈ last.known) := by
            simp [Execution.returning, ended, fine]
          obtain ⟨_, stopped, fine⟩ := stopped
          exact .of_error stopped ⟨last, course, before, same, fine⟩

/-- A body that is left by a return ends where its statements end. -/
theorem endState_returning (body : Eval Unit) (state : State) :
    endState (returning body state) = endState (body state) := by
  unfold returning
  cases body state with
  | ok _ _ => rfl
  | error exit _ => cases exit <;> rfl

/-- An action in another scope ends as it does there, back in the scope around it. -/
theorem within_apply (scope : ScopeId) (action : Eval α) (state : State) :
    within scope action state =
      mapState (fun final => { final with scope := state.scope })
        (action { state with scope := scope }) := by
  unfold within
  cases action { state with scope := scope } <;> rfl

/-- A body in another scope is left by a return before that scope is. -/
theorem returning_within (scope : ScopeId) (body : Eval Unit) (state : State) :
    returning (within scope body) state =
      mapState (fun final => { final with scope := state.scope })
        (returning body { state with scope := scope }) := by
  unfold returning within
  cases body { state with scope := scope } with
  | ok _ _ => rfl
  | error exit _ => cases exit <;> rfl

/-! ## Callees and classes -/

/-- What is called is known. -/
theorem calleeFor_comes
    (course : Course root start progress)
    {subject : Value}
    (known : subject.In (· ∈ progress.known))
    (count line : Nat) :
    Comes root start progress (calleeFor subject count line) Callee.In := by
  have closed := progress.state.heap.closed_reached progress.known
  refine .get ?_
  dsimp only
  cases found : progress.state.heap.callee? subject with
  | none => exact .raise course
  | some callee =>
      have reached := closed.callee?_in
        (fun entry isEntry => Progress.reached_of_known (known entry isEntry)) found
      dsimp only
      split
      · cases isEntry : callee.entry? with
        | none => exact .pure course fun entry leads => by simp [isEntry] at leads
        | some entry =>
            refine .of_ok rfl
              ⟨progress.learning entry, course.learn (reached entry isEntry),
                .learning progress entry, rfl, ?_⟩
            intro other leads
            obtain rfl : entry = other := Option.some.inj (isEntry.symm.trans leads)
            exact List.mem_cons_self
      · exact .raise course

/-- What a call gives is known, also where it is the receiver of an initializer. -/
theorem callResult_comes
    (course : Course root start progress)
    {function : Function}
    (closure : .scope function.closure ∈ progress.known)
    {result : Value}
    (known : result.In (· ∈ progress.known)) :
    Comes root start progress (callResult function result) Value.In := by
  unfold callResult
  split
  · refine .get ?_
    cases found : progress.state.heap.getLocal? function.closure receiverName with
    | none => exact .pure course (Value.in_of_none rfl)
    | some value =>
        exact .of_reached course rfl
          ((progress.state.heap.closed_reached progress.known).getLocal?_in
            (Progress.reached_of_known closure) found)
  · exact .pure course known

/-- A superclass is the value of the variable that names it. -/
theorem superclassOf_ok
    {parent : Reference}
    {state after : State}
    {id : ClassId}
    (given : superclassOf parent state = .ok id after) :
    lookUp parent.id parent.name state = .ok (.classObject id) after := by
  obtain ⟨value, middle, found, isClass⟩ := bind_eq_ok_iff.mp given
  cases value with
  | classObject other =>
      obtain ⟨rfl, rfl⟩ := EStateM.Result.ok.inj isClass
      exact found
  | _ => cases isClass

/-- A superclass is known. -/
theorem superclassOf_comes (course : Course root start progress) (parent : Reference) :
    Comes root start progress (superclassOf parent) fun known id => known (.classObject id) := by
  refine (lookUp_comes course parent.id parent.name).bind fun value later _ course _ known => ?_
  cases value with
  | classObject id => exact .pure course (known _ rfl)
  | _ => exact .raise course

/-- A class is declared in one act, behind the look-up of its superclass. -/
theorem declareClass_comes
    (course : Course root start progress)
    {name : Identifier}
    {superclass : Option Reference}
    {methods : List FunctionDeclaration}
    (reaches :
      Reaches root start (.statement (fuel + 1) (.classDeclaration name superclass methods))
        progress.state) :
    Comes root start progress (declareClass name superclass methods) fun _ _ => True := by
  cases superclass with
  | none =>
      exact .of_act course reaches .baseClass
        (Act.atHand_of_reached (by simp) (by simp [Act.uses])) rfl trivial
  | some parent =>
      rw [declareClass_some]
      refine (superclassOf_comes course parent).bind fun id later given courseLater _ known => ?_
      refine .of_act courseLater reaches (.subclass (superclassOf_ok given))
        (Act.atHand_of_reached (by simp) ?_) rfl trivial
      simpa [Act.uses] using Progress.reached_of_known known

/-- Properties are set on instances only, and nothing is changed to find them. -/
theorem fieldOwner_ok
    {found : Value}
    {name : Identifier}
    {state after : State}
    {owner : InstanceId}
    (given : fieldOwner found name state = .ok owner after) :
    found = .instanceObject owner ∧ after = state := by
  cases found with
  | instanceObject id =>
      obtain ⟨rfl, rfl⟩ := EStateM.Result.ok.inj given
      exact ⟨rfl, rfl⟩
  | _ => cases given

/-- The instance whose property is set is known. -/
theorem fieldOwner_comes
    (course : Course root start progress)
    {found : Value}
    (known : found.In (· ∈ progress.known))
    (name : Identifier) :
    Comes root start progress (fieldOwner found name)
      fun known owner => known (.instanceObject owner) := by
  cases found with
  | instanceObject id => exact .pure course (known _ rfl)
  | _ => exact .raise course

/-! ## Calls -/

/-- A call is begun by an act of this call. -/
theorem activate_course
    (course : Course root start progress)
    {function : Function}
    {arguments : List Value}
    (reaches : Reaches root start (.call (fuel + 1) (.function function) arguments) progress.state)
    (closure : .scope function.closure ∈ progress.known)
    (handed : ∀ argument ∈ arguments, argument.In (· ∈ progress.known)) :
    Course root start (progress.after (.activate function arguments)) := by
  refine course.act reaches .activation (Act.atHand_of_reached (by simp) ?_)
  refine List.forall_mem_cons.mpr ⟨Progress.reached_of_known closure, fun entry isHanded => ?_⟩
  obtain ⟨argument, isArgument, isEntry⟩ := List.mem_filterMap.mp isHanded
  exact Progress.reached_of_known (handed argument isArgument entry isEntry)

/-- A new instance is made by an act of the call of its class. -/
theorem newInstance_comes
    (course : Course root start progress)
    {classId : ClassId}
    {arguments : List Value}
    (reaches :
      Reaches root start (.call (fuel + 1) (.classObject classId) arguments) progress.state)
    (isClass : .classObject classId ∈ progress.known) :
    Comes root start progress (newInstance classId)
      fun known object => known (.instanceObject object) :=
  .of_act course reaches .construction
    (Act.atHand_of_reached (by simp) (by simpa [Act.uses] using Progress.reached_of_known isClass))
    rfl List.mem_cons_self

/-- The constructor of a class is bound to the instance that the call has made. -/
theorem bindConstructor_comes
    (course : Course root start progress)
    {classId : ClassId}
    {arguments : List Value}
    {begun : State}
    (reaches : Reaches root start (.call (fuel + 1) (.classObject classId) arguments) begun)
    {object : InstanceId}
    (given : newInstance classId begun = .ok object progress.state)
    {method : Function}
    (found : progress.state.heap.findMethod? classId constructorName = some method)
    (isClass : .classObject classId ∈ progress.known)
    (isInstance : .instanceObject object ∈ progress.known) :
    Comes root start progress (bindMethod method object)
      fun known bound => known (.scope bound.closure) := by
  obtain ⟨rfl, same⟩ := EStateM.Result.ok.inj given
  replace same : (Act.construct classId).result begun = progress.state := same
  have receives : Does (.call (fuel + 1) (.classObject classId) arguments) begun
      progress.state (.receive method begun.heap.instances.size) := by
    rw [← same] at found ⊢
    exact .constructor found
  have closure := (progress.state.heap.closed_reached progress.known).findMethod?_in
    (Progress.reached_of_known isClass) found
  refine .of_act course reaches receives (Act.atHand_of_reached (by simp) ?_) rfl List.mem_cons_self
  simpa [Act.uses] using ⟨closure, Progress.reached_of_known isInstance⟩

/-! ## Runs -/

/-- Whatever is run with some fuel, where the root reaches it, comes to its end. -/
structure EverythingComes (root : Task) (start : State) (fuel : Nat) : Prop where
  expressions : ∀ {progress} value,
    Course root start progress →
    Reaches root start (.expression fuel value) progress.state →
    Comes root start progress (evaluate fuel value) Value.In
  statements : ∀ {progress} statement,
    Course root start progress →
    Reaches root start (.statement fuel statement) progress.state →
    Comes root start progress (execute fuel statement) fun _ _ => True
  calls : ∀ {progress} callee arguments,
    Course root start progress →
    Reaches root start (.call fuel callee arguments) progress.state →
    callee.In (· ∈ progress.known) →
    (∀ argument ∈ arguments, argument.In (· ∈ progress.known)) →
    Comes root start progress (call fuel callee arguments) Value.In

namespace EverythingComes

/-- Expressions in a row come to their ends, with values that are known. -/
theorem arguments
    (comes : EverythingComes root start fuel)
    (values : List Expr)
    (course : Course root start progress)
    (reaches : Reaches root start (.arguments fuel values) progress.state) :
    Comes root start progress (values.mapM (evaluate fuel))
      fun known found => ∀ value ∈ found, value.In known := by
  induction values generalizing progress with
  | nil => exact .pure course (by simp)
  | cons first rest inductionHypothesis =>
      rw [List.mapM_cons]
      have head := comes.expressions first course (reaches.starting .firstArgument)
      refine head.bind fun value later given course before known => ?_
      have tail := inductionHypothesis course (reaches.starting (.otherArguments given))
      refine tail.bind fun values last _ course before others => ?_
      exact .pure course (List.forall_mem_cons.mpr ⟨before.value known, others⟩)

/-- Statements in a row come to their ends. -/
theorem executeAll
    (comes : EverythingComes root start fuel)
    (body : List Stmt)
    (course : Course root start progress)
    (reaches : Reaches root start (.statements fuel body) progress.state) :
    Comes root start progress (executeAll fuel body) fun _ _ => True := by
  induction body generalizing progress with
  | nil => exact .pure course trivial
  | cons first rest inductionHypothesis =>
      have head := comes.statements first course (reaches.starting .firstStatement)
      exact head.bind fun _ later given course _ _ =>
        inductionHypothesis course (reaches.starting (.otherStatements given))

/-- Every expression comes to its end if everything with less fuel does. -/
theorem evaluate_succ
    (comes : EverythingComes root start fuel)
    (value : Expr)
    (course : Course root start progress)
    (reaches : Reaches root start (.expression (fuel + 1) value) progress.state) :
    Comes root start progress (evaluate (fuel + 1) value) Value.In := by
  cases value with
  | literal contents => exact .pure course (Value.in_ofLiteral contents)
  | grouping inner => exact comes.expressions inner course (reaches.starting .grouping)
  | unary operator line operand =>
      refine (comes.expressions operand course (reaches.starting .operand)).bind
        fun found later _ course _ _ => ?_
      exact .lift course fun value given => Value.in_of_none (entry?_of_applyUnary given)
  | binary operator line left right =>
      refine (comes.expressions left course (reaches.starting .leftOperand)).bind
        fun first later given course _ _ => ?_
      refine (comes.expressions right course (reaches.starting (.rightOperand given))).bind
        fun second last _ course _ _ => ?_
      exact .lift course fun value given => Value.in_of_none (entry?_of_applyBinary given)
  | logical operator left right =>
      refine (comes.expressions left course (reaches.starting .leftCondition)).bind
        fun first later given course _ known => ?_
      split
      · exact .pure course known
      next unsettled =>
        exact comes.expressions right course
          (reaches.starting (.rightCondition given (eq_false_of_ne_true unsettled)))
  | reference occurrence => exact lookUp_comes course _ _
  | assign target value =>
      refine (comes.expressions value course (reaches.starting .assigned)).bind
        fun assigned later given course _ known => ?_
      cases written : later.state.writtenScope? target with
      | none =>
          have stopped : (assignTo target assigned >>= fun _ => pure assigned) later.state =
              .error (.error (.undefinedVariable target.name)) later.state := by
            rw [bind_apply, assignTo_apply, written]
          exact .of_error stopped ⟨later, course, .refl later, rfl, trivial⟩
      | some scope =>
          refine .of_act course reaches (.assign given written)
            (Act.atHand_of_reached (by simp) ?_) ?_ known
          · exact List.forall_mem_cons.mpr
              ⟨course.reached_writtenScope written, Value.reached_of_known known⟩
          · rw [bind_apply, assignTo_apply, written]
            rfl
  | call callee arguments line =>
      refine (comes.expressions callee course (reaches.starting .callee)).bind
        fun subject later given course _ known => ?_
      refine (comes.arguments arguments course (reaches.starting (.arguments given))).bind
        fun values last givenValues course before others => ?_
      refine (calleeFor_comes course (before.value known) _ line).bind
        fun found final givenFound course before member => ?_
      exact comes.calls found values course
        (reaches.starting (.call given givenValues givenFound)) member
        fun argument isArgument => before.value (others argument isArgument)
  | property object name =>
      refine (comes.expressions object course (reaches.starting .object)).bind
        fun found later given course _ known => ?_
      exact propertyOf_comes course reaches given known
  | setProperty object name value =>
      refine (comes.expressions object course (reaches.starting .owner)).bind
        fun found middle given course _ known => ?_
      refine (fieldOwner_comes course known name).bind
        fun owner later givenOwner course _ member => ?_
      refine (comes.expressions value course (reaches.starting (.field given givenOwner))).bind
        fun assigned last givenValue course before stored => ?_
      obtain ⟨rfl, same⟩ := fieldOwner_ok givenOwner
      rw [same] at givenValue
      refine .of_act course reaches (.setProperty given givenValue)
        (Act.atHand_of_reached (by simp) ?_) rfl stored
      exact List.forall_mem_cons.mpr
        ⟨Progress.reached_of_known (before.known _ member), Value.reached_of_known stored⟩
  | this id line => exact lookUp_comes course _ _
  | super id line method => exact superMethod_comes course reaches

/-- Every statement comes to its end if everything with less fuel does. -/
theorem execute_succ
    (comes : EverythingComes root start fuel)
    (statement : Stmt)
    (course : Course root start progress)
    (reaches : Reaches root start (.statement (fuel + 1) statement) progress.state) :
    Comes root start progress (execute (fuel + 1) statement) fun _ _ => True := by
  have defines {progress : Progress} (course : Course root start progress) {value : Value}
      (known : value.In (· ∈ progress.known)) (name : String) :
      (Act.define progress.state.scope name value).AtHand progress :=
    Act.atHand_of_reached (by simp)
      (List.forall_mem_cons.mpr ⟨course.reached_scope, Value.reached_of_known known⟩)
  cases statement with
  | expression value =>
      exact (comes.expressions value course (reaches.starting .effect)).discard
  | print value =>
      refine (comes.expressions value course (reaches.starting .printed)).bind
        fun found later given course _ _ => ?_
      exact .of_act course reaches (.print given)
        (Act.atHand_of_reached (by simp) (by simp [Act.uses])) rfl trivial
  | varDeclaration name initializer =>
      cases initializer with
      | none =>
          exact .of_act course reaches .varDeclaration
            (defines course (Value.in_of_none rfl) _) rfl trivial
      | some value =>
          refine (comes.expressions value course (reaches.starting .initializer)).bind
            fun found later given course _ known => ?_
          exact .of_act course reaches (.initialized given) (defines course known _) rfl trivial
  | block body =>
      have inside : Course root start (progress.after .enterBlock) :=
        course.act reaches .block (Act.atHand_of_reached (by simp) (by simp [Act.uses]))
      refine .around course reaches .blockEnd ?_
        (comes.executeAll body inside (reaches.starting (.block rfl)))
      exact within_apply _ _ _
  | branch condition consequent alternative =>
      refine (comes.expressions condition course (reaches.starting .condition)).bind
        fun found later given course _ _ => ?_
      split
      next truthy =>
        exact comes.statements consequent course (reaches.starting (.consequent given truthy))
      next falsy =>
        cases alternative with
        | none => exact .pure course trivial
        | some other =>
            exact comes.statements other course
              (reaches.starting (.alternative given (eq_false_of_ne_true falsy)))
  | loop condition body =>
      refine (comes.expressions condition course (reaches.starting .loopCondition)).bind
        fun found later given course _ _ => ?_
      split
      next truthy =>
        refine (comes.statements body course (reaches.starting (.round given truthy))).bind
          fun _ last givenRound course _ _ => ?_
        exact comes.statements _ course (reaches.starting (.nextRound given truthy givenRound))
      · exact .pure course trivial
  | functionDeclaration declaration =>
      exact .of_act course reaches .functionDeclaration
        (Act.atHand_of_reached (by simp) (by simp [Act.uses])) rfl trivial
  | returnValue line value =>
      cases value with
      | none => exact .throw course (Value.in_of_none rfl)
      | some value =>
          exact (comes.expressions value course (reaches.starting .returned)).bind
            fun found later _ course _ known => .throw course known
  | classDeclaration name superclass methods => exact declareClass_comes course reaches

/-- Every call comes to its end if everything with less fuel does. -/
theorem call_succ
    (comes : EverythingComes root start fuel)
    (callee : Callee)
    (arguments : List Value)
    (course : Course root start progress)
    (reaches : Reaches root start (.call (fuel + 1) callee arguments) progress.state)
    (member : callee.In (· ∈ progress.known))
    (handed : ∀ argument ∈ arguments, argument.In (· ∈ progress.known)) :
    Comes root start progress (call (fuel + 1) callee arguments) Value.In := by
  cases callee with
  | native native =>
      cases native
      exact .of_act course reaches .clock
        (Act.atHand_of_reached (by simp) (by simp [Act.uses])) rfl (Value.in_of_none rfl)
  | function function =>
      have closure : .scope function.closure ∈ progress.known := member _ rfl
      have inside := activate_course course reaches closure handed
      have body := comes.executeAll function.declaration.body inside
        (reaches.starting (.functionBody rfl))
      have activated : Comes root start progress
          (activate function arguments >>= fun scope =>
            returning (within scope (Execution.executeAll fuel function.declaration.body)))
          Value.In := by
        refine .around course reaches ?_ ?_ body.returning
        · rw [endState_returning]
          exact .callEnd
        · exact returning_within _ _ _
      have call := activated.bind fun result later _ course before known =>
        callResult_comes course (before.known _ closure) known
      rwa [bind_assoc] at call
  | classObject classId =>
      have isClass : .classObject classId ∈ progress.known := member _ rfl
      refine (newInstance_comes course reaches isClass).bind
        fun object later given course before isInstance => ?_
      have instanceIn : (Value.instanceObject object).In (· ∈ later.known) :=
        Value.in_of_some rfl isInstance
      refine .get ?_
      cases found : later.state.heap.findMethod? classId constructorName with
      | none => exact .pure course instanceIn
      | some method =>
          refine (bindConstructor_comes course reaches given found (before.known _ isClass)
            isInstance).bind fun bound last givenBound course beforeLast isBound => ?_
          have called := comes.calls _ arguments course
            (reaches.starting (.construction given found givenBound))
            (Callee.in_of_closure isBound) fun argument isArgument =>
              beforeLast.value (before.value (handed argument isArgument))
          refine called.discard.bind fun _ _ _ course beforeEnd _ => ?_
          exact .pure course (beforeEnd.value (beforeLast.value instanceIn))

end EverythingComes

/-- With any fuel, everything that is run comes to its end. -/
theorem everything_comes (root : Task) (start : State) (fuel : Nat) :
    EverythingComes root start fuel := by
  induction fuel with
  | zero =>
      exact ⟨fun _ course _ => .throw course trivial, fun _ course _ => .throw course trivial,
        fun _ _ course _ _ _ => .throw course trivial⟩
  | succ fuel inductionHypothesis =>
      exact ⟨inductionHypothesis.evaluate_succ, inductionHypothesis.execute_succ,
        inductionHypothesis.call_succ⟩

/-! ## Where a run comes by -/

/-- A course that attains something better attains something good. -/
theorem Attains.weaken
    {state : State}
    {good better : (Entry → Prop) → Prop}
    (attains : Attains root start progress state better)
    (implies : ∀ known, better known → good known) :
    Attains root start progress state good := by
  obtain ⟨later, course, before, same, fine⟩ := attains
  exact ⟨later, course, before, same, implies _ fine⟩

/-- Where nothing has been run yet. -/
theorem Attains.here
    {good : (Entry → Prop) → Prop}
    (course : Course root start progress)
    (fine : good (· ∈ progress.known)) :
    Attains root start progress progress.state good :=
  ⟨progress, course, .refl progress, rfl, fine⟩

/-- A course goes on from where it has come to. -/
theorem Attains.onward
    {middle final : State}
    {good better : (Entry → Prop) → Prop}
    (attains : Attains root start progress middle better)
    (further : ∀ later, Course root start later → progress.Before later →
      later.state = middle → better (· ∈ later.known) → Attains root start later final good) :
    Attains root start progress final good := by
  obtain ⟨later, course, before, same, fine⟩ := attains
  obtain ⟨last, courseLast, beforeLast, sameLast, best⟩ := further later course before same fine
  exact ⟨last, courseLast, before.trans beforeLast, sameLast, best⟩

variable {task first : Task} {after : State}

/-- A task to which nothing is handed may be begun anywhere. -/
theorem Task.handedIn_of_none
    {region : Entry → Prop}
    (nothing : first.handed = []) :
    first.HandedIn region := by
  unfold HandedIn
  rw [nothing]
  exact nofun

/-- Where an evaluation has come to. -/
theorem evaluate_attains
    (course : Course root start progress)
    {value : Expr}
    {found : Value}
    (reaches : Reaches root start (.expression fuel value) progress.state)
    (given : evaluate fuel value progress.state = .ok found after) :
    Attains root start progress after fun known => found.In known :=
  ((everything_comes root start fuel).expressions value course reaches).ok given

/-- What an expression starts is begun on its course, with what is known. -/
theorem expression_starts_course
    {value : Expr}
    (starts : Starts (.expression fuel value) progress.state first after)
    (course : Course root start progress)
    (reaches : Reaches root start (.expression fuel value) progress.state) :
    Attains root start progress after fun known => first.HandedIn known := by
  cases starts with
  | rightOperand given =>
      exact (evaluate_attains course (reaches.starting .leftOperand) given).weaken
        fun _ _ => Task.handedIn_of_none rfl
  | rightCondition given _ =>
      exact (evaluate_attains course (reaches.starting .leftCondition) given).weaken
        fun _ _ => Task.handedIn_of_none rfl
  | arguments given =>
      exact (evaluate_attains course (reaches.starting .callee) given).weaken
        fun _ _ => Task.handedIn_of_none rfl
  | @call fuel _ arguments line _ _ _ values _ _ _ givenCallee givenArguments givenFound =>
      refine (evaluate_attains course (reaches.starting .callee) givenCallee).onward ?_
      rintro middle course - rfl known
      refine Attains.onward (((everything_comes root start fuel).arguments arguments course
        (reaches.starting (.arguments givenCallee))).ok givenArguments) ?_
      rintro later course before rfl others
      have found := (calleeFor_comes course (before.value known) values.length line).ok givenFound
      obtain ⟨last, course, before, same, member⟩ := found
      exact ⟨last, course, before, same,
        handedIn_call_iff.mpr ⟨member, fun argument isArgument =>
          before.value (others argument isArgument)⟩⟩
  | field givenObject givenOwner =>
      obtain ⟨-, rfl⟩ := fieldOwner_ok givenOwner
      exact (evaluate_attains course (reaches.starting .owner) givenObject).weaken
        fun _ _ => Task.handedIn_of_none rfl
  | _ => exact .here course (Task.handedIn_of_none rfl)

/-- What a statement starts is begun on its course, with what is known. -/
theorem statement_starts_course
    {statement : Stmt}
    (starts : Starts (.statement fuel statement) progress.state first after)
    (course : Course root start progress)
    (reaches : Reaches root start (.statement fuel statement) progress.state) :
    Attains root start progress after fun known => first.HandedIn known := by
  cases starts with
  | block given =>
      obtain ⟨rfl, rfl⟩ := EStateM.Result.ok.inj given
      exact ⟨progress.after .enterBlock,
        course.act reaches .block (Act.atHand_of_reached (by simp) (by simp [Act.uses])),
        .after progress _, rfl, Task.handedIn_of_none rfl⟩
  | consequent given _ =>
      exact (evaluate_attains course (reaches.starting .condition) given).weaken
        fun _ _ => Task.handedIn_of_none rfl
  | alternative given _ =>
      exact (evaluate_attains course (reaches.starting .condition) given).weaken
        fun _ _ => Task.handedIn_of_none rfl
  | round given _ =>
      exact (evaluate_attains course (reaches.starting .loopCondition) given).weaken
        fun _ _ => Task.handedIn_of_none rfl
  | @nextRound fuel _ body _ _ _ _ given truthy givenRound =>
      refine (evaluate_attains course (reaches.starting .loopCondition) given).onward ?_
      rintro later course - rfl -
      have round := ((everything_comes root start fuel).statements body course
        (reaches.starting (.round given truthy))).ok givenRound
      exact round.weaken fun _ _ => Task.handedIn_of_none rfl
  | _ => exact .here course (Task.handedIn_of_none rfl)

/-- What a call starts is begun on its course, with what is known. -/
theorem call_starts_course
    {callee : Callee}
    {arguments : List Value}
    (starts : Starts (.call fuel callee arguments) progress.state first after)
    (course : Course root start progress)
    (reaches : Reaches root start (.call fuel callee arguments) progress.state)
    (handed : (Task.call fuel callee arguments).HandedIn (· ∈ progress.known)) :
    Attains root start progress after fun known => first.HandedIn known := by
  obtain ⟨isCallee, others⟩ := handedIn_call_iff.mp handed
  cases starts with
  | functionBody given =>
      obtain ⟨rfl, rfl⟩ := EStateM.Result.ok.inj given
      exact ⟨_, activate_course course reaches (isCallee _ rfl) others, .after progress _, rfl,
        Task.handedIn_of_none rfl⟩
  | @construction fuel classId _ _ _ _ _ _ _ givenObject found givenMethod =>
      have isClass : .classObject classId ∈ progress.known := isCallee _ rfl
      refine Attains.onward ((newInstance_comes course reaches isClass).ok givenObject) ?_
      rintro later course before rfl isInstance
      have bound := bindConstructor_comes course reaches givenObject found
        (before.known _ isClass) isInstance
      obtain ⟨last, course, beforeLast, same, isBound⟩ := bound.ok givenMethod
      exact ⟨last, course, beforeLast, same,
        handedIn_call_iff.mpr ⟨Callee.in_of_closure isBound, fun argument isArgument =>
          beforeLast.value (before.value (others argument isArgument))⟩⟩

/-- What a task starts is begun on its course, with what is known. -/
theorem Starts.course
    (starts : Starts task progress.state first after)
    (course : Course root start progress)
    (reaches : Reaches root start task progress.state)
    (handed : task.HandedIn (· ∈ progress.known)) :
    Attains root start progress after fun known => first.HandedIn known := by
  cases task with
  | expression fuel value => exact expression_starts_course starts course reaches
  | arguments fuel values =>
      cases starts with
      | firstArgument => exact .here course (Task.handedIn_of_none rfl)
      | otherArguments given =>
          exact (evaluate_attains course (reaches.starting .firstArgument) given).weaken
            fun _ _ => Task.handedIn_of_none rfl
  | statement fuel statement => exact statement_starts_course starts course reaches
  | statements fuel body =>
      cases starts with
      | firstStatement => exact .here course (Task.handedIn_of_none rfl)
      | @otherStatements _ first _ _ _ given =>
          have head := ((everything_comes root start fuel).statements first course
            (reaches.starting .firstStatement)).ok given
          exact head.weaken fun _ _ => Task.handedIn_of_none rfl
  | call fuel callee arguments => exact call_starts_course starts course reaches handed

/-- What a task reaches is begun on its course, with what is known. -/
theorem Reaches.onward
    {later : Task}
    (reaches : Reaches task progress.state later after)
    (course : Course root start progress)
    (reached : Reaches root start task progress.state)
    (handed : task.HandedIn (· ∈ progress.known)) :
    Attains root start progress after fun known => later.HandedIn known := by
  generalize same : progress.state = state at reaches
  induction reaches generalizing progress with
  | here =>
      subst same
      exact .here course handed
  | inside starts _ inductionHypothesis =>
      subst same
      refine (starts.course course reached handed).onward ?_
      rintro middle course - rfl next
      exact inductionHypothesis course (reached.starting starts) next rfl

/-- Every task that is reached is reached by a course, which has what it is handed. -/
theorem Reaches.course
    (reaches : Reaches root start task after) :
    ∃ progress, Course root start progress ∧ progress.state = after ∧
      task.HandedIn (· ∈ progress.known) := by
  obtain ⟨progress, course, -, same, handed⟩ := reaches.onward .begin .here
    fun entry member => List.mem_cons_of_mem _ (List.mem_cons_of_mem _ member)
  exact ⟨progress, course, same, handed⟩

/-- A course goes on from every task that is reached to its end. -/
theorem Reaches.course_through
    (reaches : Reaches root start task after) :
    ∃ progress later, Course root start progress ∧ progress.state = after ∧
      Course root start later ∧ progress.Before later ∧
      later.state = endState (task.run after) := by
  obtain ⟨progress, course, rfl, handed⟩ := reaches.course
  have comes : Comes root start progress task.run fun _ _ => True := by
    have all := everything_comes root start
    cases task with
    | expression fuel value =>
        exact ((all fuel).expressions value course reaches).map fun _ _ _ => trivial
    | arguments fuel values =>
        exact ((all fuel).arguments values course reaches).weaken fun _ _ _ => trivial
    | statement fuel statement =>
        exact ((all fuel).statements statement course reaches).map fun _ _ _ => trivial
    | statements fuel body =>
        exact ((all fuel).executeAll body course reaches).map fun _ _ _ => trivial
    | call fuel callee arguments =>
        obtain ⟨isCallee, others⟩ := handedIn_call_iff.mp handed
        exact ((all fuel).calls callee arguments course reaches isCallee others).map
          fun _ _ _ => trivial
  obtain ⟨later, courseLater, before, same⟩ := comes.ends
  exact ⟨progress, later, course, rfl, courseLater, before, same⟩

/-- A course also comes to the end of every task that is reached. -/
theorem Reaches.course_end
    (reaches : Reaches root start task after) :
    ∃ progress, Course root start progress ∧ progress.state = endState (task.run after) := by
  obtain ⟨-, later, -, -, course, -, same⟩ := reaches.course_through
  exact ⟨later, course, same⟩

end

end Lox.Execution
