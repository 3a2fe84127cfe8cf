import Lox.Proofs.Execution.InnerEnds
import Lox.Proofs.Execution.Receivers
import Lox.Proofs.Syntax.Identities

namespace Lox.Execution

open Scoping

/-!
# Code is at home in its method

A body is run in the scopes in which it stands in its program.  So wherever the nearest
scope with `this` has been made for a method, whatever is evaluated there is a part of
this method.  The induction is on the tasks that a run starts, which have less and less
to run: where a task begins behind others, these have been treated before it.
-/

/-! ## Homes -/

namespace Heap

/-- If a scope is in one with `this`, then some occurrences are part of the method there. -/
def Houses (heap : Heap) (scope : ScopeId) (ids : List NodeId) : Prop :=
  ∀ fuel receiving, heap.binderWithin? receiverName fuel scope = some receiving →
    ∃ classId method object,
      heap.Receives receiving classId method object ∧ ids ⊆ method.declaration.ids

/-- Every function is closed over the scopes in which it stands. -/
def Housed (heap : Heap) : Prop :=
  ∀ (id : FunctionId) function, heap.functions[id]? = some function →
    heap.Houses function.closure function.declaration.ids

section

variable {heap before after : Heap} {scope : ScopeId} {ids : List NodeId}

/-- Fewer identities are at home where more are. -/
theorem Houses.part {others : List NodeId} (houses : heap.Houses scope ids)
    (part : others ⊆ ids) : heap.Houses scope others := by
  intro fuel receiving found
  obtain ⟨classId, method, object, receives, within⟩ := houses fuel receiving found
  exact ⟨classId, method, object, receives, List.Subset.trans part within⟩

/-- A method is at home where it has a receiver. -/
theorem Receives.houses
    {classId : ClassId}
    {method : Function}
    {object : InstanceId}
    (receives : heap.Receives scope classId method object) :
    heap.Houses scope method.declaration.ids := by
  intro fuel receiving found
  cases fuel with
  | zero => cases found
  | succ fuel =>
      simp only [binderWithin?, receives.this, Option.isSome_some, if_true] at found
      obtain rfl := Option.some.inj found
      exact ⟨classId, method, object, receives, List.Subset.refl _⟩

/-- What is at home in a scope is so in a scope inside of it that has no `this` itself. -/
theorem Houses.inside
    {inner : ScopeId}
    (houses : heap.Houses scope ids)
    (enclosing : heap.enclosing? inner = some scope)
    (plain : heap.getLocal? inner receiverName = none) :
    heap.Houses inner ids := by
  intro fuel receiving found
  cases fuel with
  | zero => cases found
  | succ fuel =>
      refine houses fuel receiving ?_
      simpa [binderWithin?, plain, enclosing] using found

/-- The nearest scope with `this` stays the same. -/
theorem Carries.binderWithin?_eq
    (carries : before.Carries after)
    (whole : before.Whole)
    (fuel : Nat)
    (has : before.Has (.scope scope)) :
    after.binderWithin? receiverName fuel scope =
      before.binderWithin? receiverName fuel scope := by
  induction fuel generalizing scope with
  | zero => rfl
  | succ fuel inductionHypothesis =>
      rw [binderWithin?, binderWithin?, carries.keywords scope _ has (.inl rfl),
        carries.around scope has]
      cases around : before.enclosing? scope with
      | none => rfl
      | some outer =>
          obtain ⟨found, known, isOuter⟩ := Option.bind_eq_some_iff.mp around
          have refers : before.Refers (.scope scope) (.scope outer) := .enclosing known isOuter
          rw [Option.bind_some, Option.bind_some, inductionHypothesis (whole _ _ has refers)]

/-- Identities stay at home in a heap that only grows. -/
theorem Houses.carried
    (houses : before.Houses scope ids)
    (carries : before.Carries after)
    (whole : before.Whole)
    (has : before.Has (.scope scope)) :
    after.Houses scope ids := by
  intro fuel receiving found
  rw [carries.binderWithin?_eq whole fuel has] at found
  obtain ⟨classId, method, object, receives, part⟩ := houses fuel receiving found
  exact ⟨classId, method, object, carries.receives receives, part⟩

end

end Heap

namespace Task

/-- The code of a task is run where it is at home. -/
def Housed (state : State) : Task → Prop
  | .expression _ value => state.heap.Houses state.scope value.ids
  | .arguments _ values => state.heap.Houses state.scope (values.flatMap Expr.ids)
  | .statement _ single => state.heap.Houses state.scope single.ids
  | .statements _ body => state.heap.Houses state.scope (body.flatMap Stmt.ids)
  | .call _ (.function function) _ =>
      state.heap.Houses function.closure function.declaration.ids
  | .call _ _ _ => True

/-- What there is less of in every task that a task starts: its fuel, and then its parts. -/
def rank : Task → Nat × Nat
  | .expression fuel _ => (fuel, 0)
  | .arguments fuel values => (fuel, values.length + 1)
  | .statement fuel _ => (fuel, 1)
  | .statements fuel body => (fuel, body.length + 2)
  | .call fuel _ _ => (fuel, 0)

end Task

/-- What a task starts is of a lower rank. -/
theorem Starts.rank_lt
    {task first : Task}
    {state after : State}
    (starts : Starts task state first after) :
    Prod.Lex (· < ·) (· < ·) first.rank task.rank := by
  cases starts with
  | superclass => exact .right _ (Nat.zero_lt_one)
  | firstArgument => exact .right _ (Nat.succ_pos _)
  | otherArguments _ => exact .right _ (Nat.lt_succ_self _)
  | firstStatement => exact .right _ (by simp)
  | otherStatements _ => exact .right _ (Nat.lt_succ_self _)
  | _ => exact .left _ _ (Nat.lt_succ_self _)

/-- Ranks do not go down for ever, so there is an induction on tasks along them. -/
theorem Task.rank_wellFounded :
    WellFounded fun lower task : Task => Prod.Lex (· < ·) (· < ·) lower.rank task.rank :=
  InvImage.wf Task.rank (Prod.lex Nat.lt_wfRel Nat.lt_wfRel).wf

/-! ## The ends of tasks -/

/-- A task that evaluates an expression ends where its value is given. -/
theorem Task.ended_expression
    {fuel : Nat}
    {value : Expr}
    {found : Value}
    {state after : State}
    (given : evaluate fuel value state = .ok found after) :
    endState ((Task.expression fuel value).run state) = after := by
  rw [endState_expression, given]
  rfl

/-- A task that executes a statement ends where the statement has run through. -/
theorem Task.ended_statement
    {fuel : Nat}
    {single : Stmt}
    {state after : State}
    (given : execute fuel single state = .ok () after) :
    endState ((Task.statement fuel single).run state) = after := by
  rw [endState_statement, given]
  rfl

/-! ## What is housed stays so -/

section

variable {resolved : Settlement → Prop} {root task first : Task} {start state begun after : State}
  {progress : Progress}

/-- Only the declaration of a function declares it. -/
theorem Does.of_declareFunction
    {act : Act}
    {declaration : FunctionDeclaration}
    (does : Does task begun state act)
    (declares : act = .declareFunction declaration) :
    begun = state ∧ ∃ fuel, task = .statement fuel (.functionDeclaration declaration) := by
  cases does with
  | functionDeclaration =>
      obtain rfl := Act.declareFunction.inj declares
      exact ⟨rfl, _, rfl⟩
  | _ => cases declares

/-- If all code is run where it is at home, then what is declared is at home as well. -/
theorem Course.housed
    (course : Course root start progress)
    (grounded : Grounded resolved start root)
    (housed : start.heap.Housed)
    (home : ∀ task begun, Reaches root start task begun → task.Housed begun) :
    progress.state.heap.Housed := by
  induction course with
  | begin => exact housed
  | learn _ _ inductionHypothesis => exact inductionHypothesis
  | @act progress task begun act course reaches does atHand inductionHypothesis =>
      have whole := course.whole grounded.whole grounded.roots
      have legible := does.legible (TaskReady.of_reaches reaches grounded.ready)
      have carries := act.carries legible progress.state
      intro id function known
      rcases Act.functions_cases known with
        old | ⟨method, object, rfl, rfl⟩ | ⟨declaration, rfl, rfl⟩
      · exact (inductionHypothesis id function old).carried carries whole.heap
          (whole.heap.has_closure old)
      · obtain ⟨history, ordered⟩ := grounded.ordered
        have sourced := does.sourced (course.dispatching grounded).1 whole.heap
          (course.ordered grounded.whole grounded.roots ordered)
        obtain ⟨classId, receives⟩ := Act.receives_new (.inl rfl) sourced
        exact receives.houses
      · obtain ⟨rfl, fuel, rfl⟩ := does.of_declareFunction rfl
        have scope := whole.known _ (course.entered.2 _ course.entered.1)
        exact (home _ _ reaches).carried carries whole.heap scope

/-- A grounded task with all functions and its own code at home. -/
structure AtHome (resolved : Settlement → Prop) (state : State) (task : Task) : Prop
    extends Grounded resolved state task where
  housed : state.heap.Housed
  home : task.Housed state

/-- Whatever is reached from a task at home is at home. -/
def Task.StaysHome (resolved : Settlement → Prop) (task : Task) : Prop :=
  ∀ state, AtHome resolved state task →
    ∀ later after, Reaches task state later after → AtHome resolved after later

/-- All tasks of lower rank than some task stay at home. -/
def Task.LowerStayHome (resolved : Settlement → Prop) (task : Task) : Prop :=
  ∀ lower : Task, Prod.Lex (· < ·) (· < ·) lower.rank task.rank → lower.StaysHome resolved

/-- Behind a task all functions are at home, and the current scope houses what it has housed. -/
theorem Task.StaysHome.ended
    (stays : task.StaysHome resolved)
    (atHome : AtHome resolved state task)
    (ended : endState (task.run state) = after) :
    after.heap.Housed ∧
      ∀ ids, state.heap.Houses state.scope ids → after.heap.Houses after.scope ids := by
  have restored := restores_steady.run task state
  have here : Reaches task state task state := .here
  obtain ⟨progress, course, same⟩ := here.course_end
  obtain rfl := same.trans ended
  have grounded := atHome.toGrounded
  have all : ∀ later begun, Reaches task state later begun → later.Housed begun :=
    fun later begun reaches => (stays state atHome later begun reaches).home
  refine ⟨course.housed grounded atHome.housed all, fun ids houses => ?_⟩
  rw [same, restored.scope, ← same]
  exact houses.carried (course.carries grounded) grounded.whole
    (grounded.roots _ List.mem_cons_self)

/-! ## What a task starts -/

/-- Behind what a task has started, in which its own code is still at home. -/
theorem AtHome.behind
    (atHome : AtHome resolved state task)
    (lower : task.LowerStayHome resolved)
    (starts : Starts task state first begun)
    (housed : begun.heap.Housed)
    (home : first.Housed begun)
    (ended : endState (first.run begun) = after) :
    after.heap.Housed ∧
      ∀ ids, begun.heap.Houses begun.scope ids → after.heap.Houses after.scope ids :=
  (lower first starts.rank_lt).ended
    ⟨atHome.toGrounded.reaches (.inside starts .here), housed, home⟩ ended

/-- Behind a part of it, the code of a task is still at home. -/
theorem AtHome.behind_expression
    (atHome : AtHome resolved state task)
    (lower : task.LowerStayHome resolved)
    {fuel : Nat}
    {value : Expr}
    {found : Value}
    {ids : List NodeId}
    (starts : Starts task state (.expression fuel value) state)
    (home : state.heap.Houses state.scope ids)
    (part : value.ids ⊆ ids)
    (given : evaluate fuel value state = .ok found after) :
    after.heap.Housed ∧ after.heap.Houses after.scope ids := by
  obtain ⟨later, kept⟩ :=
    atHome.behind lower starts atHome.housed (home.part part) (Task.ended_expression given)
  exact ⟨later, kept ids home⟩

/-- Behind one of its statements, the code of a task is still at home. -/
theorem AtHome.behind_statement
    (atHome : AtHome resolved state task)
    (lower : task.LowerStayHome resolved)
    {fuel : Nat}
    {single : Stmt}
    {ids : List NodeId}
    (starts : Starts task state (.statement fuel single) begun)
    (housed : begun.heap.Housed)
    (home : begun.heap.Houses begun.scope ids)
    (part : single.ids ⊆ ids)
    (given : execute fuel single begun = .ok () after) :
    after.heap.Housed ∧ after.heap.Houses after.scope ids := by
  obtain ⟨later, kept⟩ :=
    atHome.behind lower starts housed (home.part part) (Task.ended_statement given)
  exact ⟨later, kept ids home⟩

/-- What is called is what its value stands for. -/
theorem calleeFor_ok
    {subject : Value}
    {count line : Nat}
    {callee : Callee}
    (given : calleeFor subject count line state = .ok callee after) :
    after = state ∧ state.heap.callee? subject = some callee := by
  unfold calleeFor at given
  rw [bind_of_ok (get_apply state)] at given
  cases found : state.heap.callee? subject with
  | none =>
      rw [found] at given
      cases given
  | some called =>
      simp only [found] at given
      split at given
      · obtain ⟨rfl, rfl⟩ := EStateM.Result.ok.inj given
        exact ⟨rfl, rfl⟩
      · cases given

/-- A function that is called is in the heap. -/
theorem Heap.exists_function
    {heap : Heap}
    {subject : Value}
    {function : Function}
    (found : heap.callee? subject = some (.function function)) :
    ∃ id : FunctionId, heap.functions[id]? = some function := by
  cases subject with
  | functionObject id =>
      obtain ⟨known, isKnown, same⟩ := Option.map_eq_some_iff.mp found
      obtain rfl := Callee.function.inj same
      exact ⟨id, isKnown⟩
  | _ => cases found

/-- A function that is called is at home if all functions are. -/
theorem Task.housed_of_callee
    {subject : Value}
    {callee : Callee}
    (housed : state.heap.Housed)
    (found : state.heap.callee? subject = some callee)
    (fuel : Nat)
    (passed : List Value) :
    (Task.call fuel callee passed).Housed state := by
  cases callee with
  | function function =>
      obtain ⟨id, known⟩ := Heap.exists_function found
      exact housed id function known
  | native _ => trivial
  | classObject _ => trivial

variable {fuel : Nat}

/-- What an expression starts is at home. -/
theorem AtHome.expression_starts
    {value : Expr}
    (atHome : AtHome resolved state (.expression fuel value))
    (lower : (Task.expression fuel value).LowerStayHome resolved)
    (starts : Starts (.expression fuel value) state first after) :
    after.heap.Housed ∧ first.Housed after := by
  have home : state.heap.Houses state.scope value.ids := atHome.home
  cases starts with
  | rightOperand given =>
      obtain ⟨later, kept⟩ := atHome.behind_expression lower .leftOperand home
        (by simp [Expr.ids, Expr.occurrences]) given
      exact ⟨later, kept.part (by simp [Expr.ids, Expr.occurrences])⟩
  | rightCondition given _ =>
      obtain ⟨later, kept⟩ := atHome.behind_expression lower .leftCondition home
        (by simp [Expr.ids, Expr.occurrences]) given
      exact ⟨later, kept.part (by simp [Expr.ids, Expr.occurrences])⟩
  | arguments given =>
      obtain ⟨later, kept⟩ := atHome.behind_expression lower .callee home
        (by simp [Expr.ids, Expr.occurrences]) given
      exact ⟨later, kept.part (by simp [Expr.ids, Expr.occurrences])⟩
  | call givenCallee givenArguments givenFound =>
      obtain ⟨middle, kept⟩ := atHome.behind_expression lower .callee home
        (by simp [Expr.ids, Expr.occurrences]) givenCallee
      obtain ⟨later, -⟩ := atHome.behind lower (.arguments givenCallee) middle
        (kept.part (by simp [Expr.ids, Expr.occurrences])) (by rw [Task.run, givenArguments])
      obtain ⟨rfl, isCallee⟩ := calleeFor_ok givenFound
      exact ⟨later, Task.housed_of_callee later isCallee _ _⟩
  | field givenObject givenOwner =>
      obtain ⟨later, kept⟩ := atHome.behind_expression lower .owner home
        (by simp [Expr.ids, Expr.occurrences]) givenObject
      obtain ⟨-, rfl⟩ := fieldOwner_ok givenOwner
      exact ⟨later, kept.part (by simp [Expr.ids, Expr.occurrences])⟩
  | _ => exact ⟨atHome.housed, home.part (by simp [Expr.ids, Expr.occurrences])⟩

/-- What goes on in a new scope inside of another one. -/
theorem Heap.Houses.entered
    {act : Act}
    {scope : ScopeId}
    {ids : List NodeId}
    (houses : state.heap.Houses scope ids)
    (whole : state.heap.Whole)
    (has : state.heap.Has (.scope scope))
    (legible : act.Legible)
    (new : act.held receiverName = none)
    (around :
      (act.result state).heap.enclosing? state.heap.scopes.size = some scope) :
    (act.result state).heap.Houses state.heap.scopes.size ids :=
  (houses.carried (act.carries legible state) whole has).inside around
    ((Act.getLocal?_result legible (.inl rfl) _).trans ((if_pos rfl).trans new))

/-- An act that makes no function leaves all of them at home. -/
theorem Act.housed_result
    (act : Act)
    (state : State)
    (same : (act.result state).heap.functions = state.heap.functions)
    (legible : act.Legible)
    (whole : state.heap.Whole)
    (housed : state.heap.Housed) :
    (act.result state).heap.Housed := by
  intro id function known
  rw [same] at known
  exact (housed id function known).carried (act.carries legible state) whole
    (whole.has_closure known)

/-- What a statement starts is at home. -/
theorem AtHome.statement_starts
    {single : Stmt}
    (atHome : AtHome resolved state (.statement fuel single))
    (lower : (Task.statement fuel single).LowerStayHome resolved)
    (starts : Starts (.statement fuel single) state first after) :
    after.heap.Housed ∧ first.Housed after := by
  have housed := atHome.housed
  have home : state.heap.Houses state.scope single.ids := atHome.home
  cases starts with
  | block given =>
      obtain ⟨rfl, rfl⟩ := EStateM.Result.ok.inj given
      have legible : Act.enterBlock.Legible := Act.legible_of_none rfl
      refine ⟨Act.housed_result .enterBlock state rfl legible atHome.whole housed, ?_⟩
      have inner := home.entered atHome.whole (atHome.roots _ List.mem_cons_self) legible rfl
        (by simp [Act.result, Heap.addScope, Heap.enclosing?])
      exact inner.part (by simp [Stmt.ids, Stmt.occurrences])
  | @consequent _ _ _ alternative _ _ _ given _ =>
      obtain ⟨later, kept⟩ := atHome.behind_expression lower .condition home
        (by cases alternative <;> simp [Stmt.ids, Stmt.occurrences, Expr.ids]) given
      exact ⟨later, kept.part (by cases alternative <;> simp [Stmt.ids, Stmt.occurrences])⟩
  | alternative given _ =>
      obtain ⟨later, kept⟩ := atHome.behind_expression lower .condition home
        (by simp [Stmt.ids, Stmt.occurrences, Expr.ids]) given
      exact ⟨later, kept.part (by simp [Stmt.ids, Stmt.occurrences])⟩
  | round given _ =>
      obtain ⟨later, kept⟩ := atHome.behind_expression lower .loopCondition home
        (by simp [Stmt.ids, Stmt.occurrences, Expr.ids]) given
      exact ⟨later, kept.part (by simp [Stmt.ids, Stmt.occurrences])⟩
  | nextRound given truthy givenRound =>
      obtain ⟨middle, kept⟩ := atHome.behind_expression lower .loopCondition home
        (by simp [Stmt.ids, Stmt.occurrences, Expr.ids]) given
      exact atHome.behind_statement lower (.round given truthy) middle kept
        (by simp [Stmt.ids, Stmt.occurrences]) givenRound
  | @condition _ _ _ alternative =>
      exact ⟨housed, home.part
        (by cases alternative <;> simp [Stmt.ids, Stmt.occurrences, Expr.ids])⟩
  | _ =>
      exact ⟨housed, home.part
        (by simp [Stmt.ids, Stmt.occurrences, Expr.ids, Expr.occurrences,
          Expr.occurrencesOfOptional])⟩

/-- What a call starts is at home. -/
theorem AtHome.call_starts
    {callee : Callee}
    {passed : List Value}
    (atHome : AtHome resolved state (.call fuel callee passed))
    (starts : Starts (.call fuel callee passed) state first after) :
    after.heap.Housed ∧ first.Housed after := by
  have housed := atHome.housed
  have roots : ∀ entry ∈ (Task.call fuel callee passed).handed, state.heap.Has entry :=
    fun entry isHanded =>
      atHome.roots entry (List.mem_cons_of_mem _ (List.mem_cons_of_mem _ isHanded))
  cases starts with
  | @functionBody _ function _ _ _ _ given =>
      obtain ⟨rfl, rfl⟩ := EStateM.Result.ok.inj given
      have legible : (Act.activate function passed).Legible :=
        Does.legible .activation atHome.ready
      have home : state.heap.Houses function.closure function.declaration.ids := atHome.home
      refine ⟨Act.housed_result (.activate function passed) state rfl legible atHome.whole
        housed, ?_⟩
      have closure : state.heap.Has (.scope function.closure) :=
        roots _ (List.mem_append_left _ (by simp [Callee.entry?]))
      have inner := home.entered atHome.whole closure legible rfl
        (by simp [Act.result, Heap.addScope, Heap.enclosing?])
      obtain ⟨⟨name, parameters, body⟩, closure, constructs⟩ := function
      exact inner.part (by simp [FunctionDeclaration.ids, FunctionDeclaration.occurrences,
        FunctionDeclaration.body])
  | @construction fuel classId _ _ _ _ method _ _ givenObject found givenMethod =>
      have grounded := atHome.toGrounded
      have isClass :
          .classObject classId ∈ (Task.call (fuel + 1) (.classObject classId) passed).roots state :=
        List.mem_cons_of_mem _ (List.mem_cons_of_mem _
          (List.mem_append_left _ (by simp [Callee.entry?])))
      obtain ⟨progress, course, -, made, -⟩ :=
        (newInstance_comes .begin .here isClass).ok givenObject
      obtain ⟨rfl, rfl⟩ := EStateM.Result.ok.inj givenObject
      obtain ⟨rfl, rfl⟩ := EStateM.Result.ok.inj givenMethod
      replace made : progress.state = (Act.construct classId).result state := made
      obtain ⟨history, ordered⟩ := grounded.ordered
      have whole := (course.whole grounded.whole grounded.roots).heap
      have ordered := course.ordered grounded.whole grounded.roots ordered
      have dispatching := (course.dispatching grounded).1
      rw [made] at whole ordered dispatching
      have does : Does (.call (fuel + 1) (.classObject classId) passed) state
          ((Act.construct classId).result state) (.receive method state.heap.instances.size) :=
        .constructor found
      have middle := Act.housed_result (.construct classId) state rfl
        (Act.legible_of_none rfl) grounded.whole housed
      obtain ⟨_, receives⟩ :=
        Act.receives_new (.inr rfl) (does.sourced dispatching whole ordered)
      exact ⟨Act.housed_result (.receive method state.heap.instances.size) _ rfl
        (Act.legible_of_none rfl) whole middle, receives.houses⟩

/-- What a task starts is at home if the task is. -/
theorem AtHome.starts
    (atHome : AtHome resolved state task)
    (lower : task.LowerStayHome resolved)
    (starts : Starts task state first after) :
    AtHome resolved after first := by
  suffices housed : after.heap.Housed ∧ first.Housed after from
    ⟨atHome.toGrounded.reaches (.inside starts .here), housed.1, housed.2⟩
  cases task with
  | expression _ _ => exact atHome.expression_starts lower starts
  | statement _ _ => exact atHome.statement_starts lower starts
  | call _ _ _ => exact atHome.call_starts starts
  | arguments fuel values =>
      have home : state.heap.Houses state.scope (values.flatMap Expr.ids) := atHome.home
      cases starts with
      | firstArgument => exact ⟨atHome.housed, home.part (by simp)⟩
      | otherArguments given =>
          obtain ⟨later, kept⟩ :=
            atHome.behind_expression lower .firstArgument home (by simp) given
          exact ⟨later, kept.part (by simp)⟩
  | statements fuel body =>
      have home : state.heap.Houses state.scope (body.flatMap Stmt.ids) := atHome.home
      cases starts with
      | firstStatement => exact ⟨atHome.housed, home.part (by simp)⟩
      | otherStatements given =>
          obtain ⟨later, kept⟩ :=
            atHome.behind_statement lower .firstStatement atHome.housed home (by simp) given
          exact ⟨later, kept.part (by simp)⟩

/-- No task is run elsewhere than where its code is at home. -/
theorem Task.staysHome (resolved : Settlement → Prop) (task : Task) :
    task.StaysHome resolved := by
  induction task using Task.rank_wellFounded.induction with
  | _ task lower =>
      intro state atHome later after reaches
      cases reaches with
      | here => exact atHome
      | inside starts reaches =>
          exact lower _ starts.rank_lt _ (atHome.starts lower starts) later after reaches

/-- What is declared in the course of a task at home is at home. -/
theorem AtHome.course
    (atHome : AtHome resolved start root)
    (course : Course root start progress) :
    progress.state.heap.Housed :=
  course.housed atHome.toGrounded atHome.housed fun task begun reaches =>
    (Task.staysHome resolved root start atHome task begun reaches).home

/-- Outside of all other scopes everything is at home, if there is no `this`. -/
theorem Heap.Houses.outermost
    {heap : Heap}
    {scope : ScopeId}
    (plain : heap.getLocal? scope receiverName = none)
    (outermost : heap.enclosing? scope = none)
    (ids : List NodeId) :
    heap.Houses scope ids := by
  intro fuel receiving found
  cases fuel with
  | zero => cases found
  | succ fuel => simp [binderWithin?, plain, outermost] at found

end

end Lox.Execution
