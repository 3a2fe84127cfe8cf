import Lox.Proofs.Execution.Homes
import Lox.Proofs.Execution.Origins
import Lox.Proofs.Scoping.Rules

namespace Lox.Execution

open Scoping

/-!
# Calls and the functions that they run

The number of arguments is compared before a call, and the arguments are bound by the call,
which does not look at their number any more.  For a class the comparison and the call both
search for the constructor.  Here the two are put together: a call that begins has one
argument for each parameter of the function that it runs, and binds all of them.
-/

/-! ## Callees -/

/-- The values that can be called: functions of all kinds, and classes. -/
def Value.IsCallable : Value → Prop
  | .native _ => True
  | .functionObject _ => True
  | .classObject _ => True
  | _ => False

/-- The function that a callee runs: itself, or the constructor, bound to a new instance. -/
def Heap.Selects (heap : Heap) (function : Function) : Callee → Prop
  | .native _ => False
  | .function own => function = own
  | .classObject id =>
      ∃ method, heap.findMethod? id constructorName = some method ∧
        function = { method with closure := heap.scopes.size }

/-- A call comes to the body of a function, for a class by way of the constructor. -/
inductive Activation : Task → State → Function → State → Prop where
  | function {fuel function passed state begun} :
      Starts (.call (fuel + 1) (.function function) passed) state
        (.statements fuel function.declaration.body) begun →
      Activation (.call (fuel + 1) (.function function) passed) state function begun
  | constructor {fuel classId bound passed state middle function begun} :
      Starts (.call (fuel + 1) (.classObject classId) passed) state
        (.call fuel (.function bound) passed) middle →
      Activation (.call fuel (.function bound) passed) middle function begun →
      Activation (.call (fuel + 1) (.classObject classId) passed) state function begun

/-- The fuel that a call uses up on the way to the body; a class calls its constructor. -/
def Callee.nesting : Callee → Nat
  | .classObject _ => 2
  | _ => 1

/--
The value of a call whose body has ended: a class gives the instance that it has made, a
constructor its receiver, and any other function what the body has returned.
-/
def Callee.value (function : Function) (before final : State) (returned : Value) :
    Callee → Value
  | .classObject _ => .instanceObject before.heap.instances.size
  | _ =>
      if function.isConstructor then
        (final.heap.getLocal? function.closure receiverName).getD .nil
      else
        returned

/--
What a call makes of the ending of the body that it runs, in the scope in which it was made.
Without a return the body gives nil, and whatever else breaks it off breaks off the call.
-/
def Callee.outcome (callee : Callee) (function : Function) (before : State) :
    EStateM.Result Exit State Unit → EStateM.Result Exit State Value
  | .ok _ final =>
      .ok (callee.value function before final .nil) { final with scope := before.scope }
  | .error (.returned _ value) final =>
      .ok (callee.value function before final value) { final with scope := before.scope }
  | .error exit final => .error exit { final with scope := before.scope }

/-- What a callee gives that runs no function: the time, or a new instance. -/
def Callee.ownOutcome (before : State) : Callee → EStateM.Result Exit State Value
  | .native .clock => readClock before
  | .classObject id =>
      .ok (.instanceObject before.heap.instances.size) ((Act.construct id).result before)
  -- A function runs itself, so this is never what a call of it gives.
  | .function _ => .ok .nil before

/--
The body of a function begins: in a new scope directly under the closure, which binds each
parameter to the argument in its position, and nothing else.
-/
structure Activates (function : Function) (passed : List Value) (before begun : State) :
    Prop where
  new : ¬ before.heap.Has (.scope begun.scope)
  around : begun.heap.enclosing? begun.scope = some function.closure
  distinct : (function.declaration.parameters.map (·.text)).Nodup
  complete : function.declaration.parameters.length = passed.length
  bound :
    ∀ (position : Nat) name, function.declaration.parameters[position]? = some name →
      begun.heap.getLocal? begun.scope name.text = passed[position]?
  nothingElse :
    ∀ name, (begun.heap.getLocal? begun.scope name).isSome →
      name ∈ function.declaration.parameters.map (·.text)

section

variable {resolved : Settlement → Prop} {fuel : Nat} {state middle later after begun : State}
  {heap : Heap} {function : Function} {passed values : List Value} {subject : Value}
  {callee : Expr} {arguments : List Expr} {line : Nat} {first : Task}

/-! ## What is called -/

/-- A value in the heap is a callee exactly if it can be called. -/
theorem isSome_callee?
    (has : subject.In heap.Has) :
    (heap.callee? subject).isSome ↔ subject.IsCallable := by
  cases subject with
  | functionObject id =>
      have inside : id < heap.functions.size := has _ rfl
      simp [Heap.callee?, Value.IsCallable, inside]
  | _ => simp [Heap.callee?, Value.IsCallable]

/-- Behind the arguments of a call, what is called is in the heap. -/
theorem Grounded.has_subject
    (grounded : Grounded resolved state (.expression (fuel + 1) (.call callee arguments line)))
    (givenCallee : evaluate fuel callee state = .ok subject middle)
    (givenArguments : arguments.mapM (evaluate fuel) middle = .ok values later) :
    subject.In later.heap.Has := by
  let root := Task.expression (fuel + 1) (.call callee arguments line)
  have toCallee : Reaches root state (.expression fuel callee) state :=
    .inside .callee .here
  have toArguments : Reaches root state (.arguments fuel arguments) middle :=
    .inside (.arguments givenCallee) .here
  obtain ⟨progress, course, -, rfl, known⟩ := evaluate_attains .begin toCallee givenCallee
  obtain ⟨last, courseLast, before, rfl, -⟩ :=
    ((everything_comes root state fuel).arguments arguments course toArguments).ok givenArguments
  have whole := courseLast.whole grounded.whole grounded.roots
  exact fun entry isEntry => whole.known _ (before.value known entry isEntry)

theorem calleeFor_apply (subject : Value) (count line : Nat) (state : State) :
    calleeFor subject count line state =
      match state.heap.callee? subject with
      | none => .error (.error (.typeFault (.notCallable line))) state
      | some found =>
          if count = state.heap.arity found then
            .ok found state
          else
            .error (.error (.arityMismatch (state.heap.arity found) count line)) state := by
  unfold calleeFor
  rw [bind_of_ok (get_apply state)]
  cases state.heap.callee? subject with
  | none => rfl
  | some found =>
      dsimp only
      split <;> rfl

/-- Behind its callee and its arguments, a call goes on with what is called. -/
theorem evaluate_call
    (givenCallee : evaluate fuel callee state = .ok subject middle)
    (givenArguments : arguments.mapM (evaluate fuel) middle = .ok values later) :
    evaluate (fuel + 1) (.call callee arguments line) state =
      (calleeFor subject values.length line >>= fun found => call fuel found values) later := by
  rw [evaluate, bind_of_ok givenCallee, bind_of_ok givenArguments]

/-- If no callee is found, nothing is called. -/
theorem not_isCall_of_starts
    (givenCallee : evaluate fuel callee state = .ok subject middle)
    (givenArguments : arguments.mapM (evaluate fuel) middle = .ok values later)
    (nothing : ∀ found after, calleeFor subject values.length line later ≠ .ok found after)
    (starts : Starts (.expression (fuel + 1) (.call callee arguments line)) state first after) :
    ¬ first.IsCall := by
  cases starts with
  | call givenCalleeAgain givenArgumentsAgain givenFound =>
      rw [givenCallee] at givenCalleeAgain
      obtain ⟨rfl, rfl⟩ := EStateM.Result.ok.inj givenCalleeAgain
      rw [givenArguments] at givenArgumentsAgain
      obtain ⟨rfl, rfl⟩ := EStateM.Result.ok.inj givenArgumentsAgain
      exact absurd givenFound (nothing _ _)
  | _ => exact not_false

/-! ## What is activated -/

/-- No two parameters of a function that can run have one name. -/
theorem LiveFunction.distinct
    {distances : Distances}
    (live : LiveFunction distances resolved heap function) :
    (function.declaration.parameters.map (·.text)).Nodup := by
  obtain ⟨place, role, -, -, settled⟩ := live
  obtain ⟨⟨name, parameters, body⟩, closure, isConstructor⟩ := function
  let start := (place.asFunction role).entering
  have empty : start.Fits [] := (Place.entering_fits _ _).mpr List.nodup_nil
  have fresh : AllFresh (sitesOfParameters start parameters) := by
    intro site inSites name declares
    have faultless := (settled site (List.mem_append_left _ inSites)).faultless
    simpa [Site.fault?, declares] using faultless
  exact (Place.entering_fits _ _).mp ((allFresh_parameters empty parameters).mp fresh)

/-- A live function that is called with as many arguments as it has parameters binds them. -/
theorem activates_of_starts
    (live : LiveCallee state.distances resolved state.heap passed.length (.function function))
    (starts : Starts (.call (fuel + 1) (.function function) passed) state first begun) :
    Activates function passed state begun := by
  obtain ⟨live, complete⟩ := live
  cases starts with
  | functionBody given =>
      obtain ⟨rfl, rfl⟩ := EStateM.Result.ok.inj given
      have distinct := live.distinct
      have table : ∀ name,
          (state.heap.addScope ⟨Bindings.ofList ((function.declaration.parameters.map
            (·.text)).zip passed), some function.closure⟩).getLocal? state.heap.scopes.size name =
          (Bindings.ofList ((function.declaration.parameters.map (·.text)).zip passed)).get?
            name := by
        intro name
        rw [Heap.getLocal?_addScope, if_pos rfl]
      refine ⟨Nat.lt_irrefl _, by simp [Heap.enclosing?, Heap.addScope], distinct, complete,
        fun position name known => ?_, fun name bound => ?_⟩
      · refine (table name.text).trans (Bindings.get?_ofList_zip distinct ?_ ?_)
        · rw [List.length_map]
          exact complete
        · rw [List.getElem?_map, known]
          rfl
      · rw [table name] at bound
        exact Bindings.mem_of_get?_ofList_zip bound

theorem findMethod?_addInstance
    (heap : Heap)
    (made : Instance)
    (classId : ClassId)
    (name : String) :
    (heap.addInstance made).findMethod? classId name = heap.findMethod? classId name := by
  have same : (heap.addInstance made).classes = heap.classes := rfl
  exact findMethod?_of_classes same classId name

/-- A call runs the function that it selects, and begins by binding its parameters. -/
theorem activates_of_activation
    {callee : Callee}
    (ready : TaskReady resolved state (.call fuel callee passed))
    (activation : Activation (.call fuel callee passed) state function begun) :
    state.heap.Selects function callee ∧ Activates function passed state begun := by
  cases activation with
  | function starts => exact ⟨rfl, activates_of_starts ready.2 starts⟩
  | @constructor _ id _ _ _ _ _ _ starts activation =>
      have readyConstructor := ready.of_starts starts
      cases starts with
      | @construction _ _ _ _ _ _ method _ _ givenObject found givenMethod =>
          obtain ⟨rfl, rfl⟩ := EStateM.Result.ok.inj givenObject
          obtain ⟨rfl, rfl⟩ := EStateM.Result.ok.inj givenMethod
          cases activation with
          | function starts =>
              have activates := activates_of_starts readyConstructor.2 starts
              refine ⟨⟨_, (findMethod?_addInstance _ _ _ _).symm.trans found, rfl⟩,
                { activates with new := fun before => ?_ }⟩
              exact activates.new ((Act.receive method state.heap.instances.size).has_result
                ((Act.construct id).has_result before))

/-- With enough fuel, a call begins to run the function that it selects. -/
theorem exists_activation
    {callee : Callee}
    (selects : state.heap.Selects function callee)
    (passed : List Value) :
    ∃ begun, Activation (.call (fuel + 2) callee passed) state function begun := by
  cases callee with
  | native _ => exact selects.elim
  | function own =>
      obtain rfl : function = own := selects
      exact ⟨_, .function (.functionBody rfl)⟩
  | classObject id =>
      obtain ⟨method, found, rfl⟩ := selects
      have again := (findMethod?_addInstance state.heap ⟨id, Bindings.empty⟩ id _).trans found
      exact ⟨_, .constructor (.construction rfl again rfl) (.function (.functionBody rfl))⟩

/-! ## What a call gives -/

/-- What a call gives is chosen in the state in which the body has ended. -/
theorem callResult_apply (function : Function) (result : Value) (state : State) :
    callResult function result state =
      .ok
        (if function.isConstructor then
          (state.heap.getLocal? function.closure receiverName).getD .nil
        else
          result)
        state := by
  unfold callResult
  split <;> rfl

/-- A call of a function gives its result in the scope from which it has been called. -/
theorem call_function_apply
    (fuel : Nat)
    (function : Function)
    (passed : List Value)
    (state : State) :
    call (fuel + 1) (.function function) passed state =
      match executeAll fuel function.declaration.body
        ((Act.activate function passed).result state) with
      | .ok _ final => callResult function .nil { final with scope := state.scope }
      | .error (.returned _ value) final =>
          callResult function value { final with scope := state.scope }
      | .error exit final => .error exit { final with scope := state.scope } := by
  let begun := (Act.activate function passed).result state
  have activated : activate function passed state =
      .ok begun.scope { begun with scope := state.scope } := rfl
  have ran : returning (within begun.scope (function.declaration.body.forM (execute fuel)))
      { begun with scope := state.scope } =
        mapState (fun final => { final with scope := state.scope })
          (returning (executeAll fuel function.declaration.body) begun) :=
    returning_within _ _ _
  rw [call, bind_of_ok activated, bind_apply, ran]
  unfold returning
  cases executeAll fuel function.declaration.body begun with
  | ok _ final => rfl
  | error exit final => cases exit <;> rfl

/-- A call of a class with a constructor calls it on the new instance, which it gives. -/
theorem call_class_apply
    {id : ClassId}
    {method : Function}
    (found : state.heap.findMethod? id constructorName = some method)
    (passed : List Value) :
    call (fuel + 1) (.classObject id) passed state =
      (do
        discard (call fuel (.function { method with closure := state.heap.scopes.size }) passed)
        return Value.instanceObject state.heap.instances.size)
        ((Act.receive method state.heap.instances.size).result
          ((Act.construct id).result state)) := by
  let created := (Act.construct id).result state
  let received := (Act.receive method state.heap.instances.size).result created
  have givenObject : newInstance id state = .ok state.heap.instances.size created := rfl
  have again : created.heap.findMethod? id constructorName = some method :=
    (findMethod?_addInstance _ _ _ _).trans found
  have givenMethod : bindMethod method state.heap.instances.size created =
      .ok { method with closure := state.heap.scopes.size } received := rfl
  rw [call, bind_of_ok givenObject, bind_of_ok (get_apply created)]
  dsimp only
  rw [again]
  dsimp only
  rw [bind_of_ok givenMethod]

/-- The body of a function begins in the state in which its scope has been made. -/
theorem begun_of_activation
    {own : Function}
    (activation : Activation (.call fuel (.function own) passed) state function begun) :
    ∃ nearer, fuel = nearer + 1 ∧ function = own ∧
      begun = (Act.activate own passed).result state := by
  cases activation with
  | function starts =>
      cases starts with
      | functionBody given =>
          obtain ⟨rfl, rfl⟩ := EStateM.Result.ok.inj given
          exact ⟨_, rfl, rfl, rfl⟩

/-- A call runs the body of the function that it selects, and goes by how the body ends. -/
theorem call_of_activation
    {callee : Callee}
    (activation : Activation (.call fuel callee passed) state function begun) :
    call fuel callee passed state =
      callee.outcome function state
        (executeAll (fuel - callee.nesting) function.declaration.body begun) := by
  have ofFunction : ∀ nearer (own : Function) (before : State),
      call (nearer + 1) (.function own) passed before =
        (Callee.function own).outcome own before (executeAll nearer own.declaration.body
          ((Act.activate own passed).result before)) := by
    intro nearer own before
    rw [call_function_apply]
    cases executeAll nearer own.declaration.body ((Act.activate own passed).result before) with
    | ok _ final => exact callResult_apply _ _ _
    | error exit final =>
        cases exit with
        | returned line value => exact callResult_apply _ _ _
        | _ => rfl
  cases activation with
  | function starts =>
      obtain ⟨nearer, enough, -, rfl⟩ := begun_of_activation (.function starts)
      obtain rfl := Nat.succ.inj enough
      exact ofFunction _ _ _
  | @constructor _ id _ _ _ _ _ _ starts activation =>
      obtain ⟨nearer, rfl, rfl, rfl⟩ := begun_of_activation activation
      cases starts with
      | @construction _ _ _ _ _ _ method _ _ givenObject found givenMethod =>
          obtain ⟨rfl, rfl⟩ := EStateM.Result.ok.inj givenObject
          obtain ⟨rfl, rfl⟩ := EStateM.Result.ok.inj givenMethod
          have known := (findMethod?_addInstance _ _ _ _).symm.trans found
          let bound : Function := { method with closure := state.heap.scopes.size }
          let received :=
            (Act.receive method state.heap.instances.size).result ((Act.construct id).result state)
          rw [call_class_apply known, discard_bind_apply, ofFunction]
          change _ = (Callee.classObject id).outcome bound state
            (executeAll nearer bound.declaration.body ((Act.activate bound passed).result received))
          cases executeAll nearer bound.declaration.body
              ((Act.activate bound passed).result received) with
          | ok _ final => rfl
          | error exit final => cases exit <;> rfl

/-- A callee that selects no function runs none, but gives what it gives by itself. -/
theorem call_of_selects_nothing
    {callee : Callee}
    (nothing : ∀ function, ¬ state.heap.Selects function callee)
    (passed : List Value) :
    call (fuel + 1) callee passed state = callee.ownOutcome state := by
  cases callee with
  | native function => rfl
  | function own => exact absurd rfl (nothing own)
  | classObject id =>
      let created := (Act.construct id).result state
      have givenObject : newInstance id state = .ok state.heap.instances.size created := rfl
      have none : created.heap.findMethod? id constructorName = none := by
        refine (findMethod?_addInstance _ _ _ _).trans ?_
        by_contra found
        obtain ⟨method, found⟩ := Option.ne_none_iff_exists'.mp found
        exact nothing _ ⟨method, found, rfl⟩
      rw [call, bind_of_ok givenObject, bind_of_ok (get_apply created)]
      dsimp only
      rw [none]
      rfl

end

end Lox.Execution
