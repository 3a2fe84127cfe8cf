import Lox.Proofs.Execution.Endings
import Lox.Proofs.Execution.Regions

namespace Lox.Execution

/-!
# Runs stay in their region

A run that begins in a region, and is handed nothing from outside of it, neither
changes nor gets hold of anything outside, however it ends.  This is shown for every
step, and then for whole runs by induction on fuel.
-/

/-- A state that is in a region: nothing in the region leads out, and the run is in it. -/
structure Inside (region : Entry → Prop) (state : State) : Prop where
  heap : Region region state.heap
  scope : region (.scope state.scope)
  globals : region (.scope state.globals)

/-- Outside of a region, every scope and every instance is as it was. -/
structure Untouched (region : Entry → Prop) (before after : Heap) : Prop where
  scopes : ∀ id : ScopeId, ¬ region (.scope id) → after.scopes[id]? = before.scopes[id]?
  instances :
    ∀ id : InstanceId, ¬ region (.instanceObject id) →
      after.instances[id]? = before.instances[id]?

/-- A later state of a run in a region. -/
structure Moves (region : Entry → Prop) (before after : State) : Prop where
  inside : Inside region after
  untouched : Untouched region before.heap after.heap

/-- A return from a region brings a value of the region. -/
def Exit.In (region : Entry → Prop) : Exit → Prop
  | .returned _ value => value.In region
  | _ => True

/-- An action that, begun in a region, stays there and gives something good. -/
def Stays (region : Entry → Prop) (good : α → Prop) (action : Eval α) : Prop :=
  ∀ state, Inside region state →
    match action state with
    | .ok value after => Moves region state after ∧ good value
    | .error exit after => Moves region state after ∧ exit.In region

section

variable {region : Entry → Prop} {before middle after : State}

/-- What changes neither the heap nor the scopes of a run leaves it where it is. -/
theorem Moves.of_sameHeap
    (inside : Inside region before)
    (heap : after.heap = before.heap)
    (scope : after.scope = before.scope)
    (globals : after.globals = before.globals) :
    Moves region before after where
  inside := by
    refine ⟨?_, ?_, ?_⟩
    · exact heap ▸ inside.heap
    · exact scope ▸ inside.scope
    · exact globals ▸ inside.globals
  untouched := ⟨fun _ _ => by rw [heap], fun _ _ => by rw [heap]⟩

theorem Moves.refl (inside : Inside region before) : Moves region before before :=
  .of_sameHeap inside rfl rfl rfl

/-- Later states of a run in a region follow each other. -/
theorem Moves.trans
    (first : Moves region before middle)
    (second : Moves region middle after) :
    Moves region before after where
  inside := second.inside
  untouched :=
    ⟨fun id outside =>
        (second.untouched.scopes id outside).trans (first.untouched.scopes id outside),
      fun id outside =>
        (second.untouched.instances id outside).trans (first.untouched.instances id outside)⟩

/-- Nothing outside of a region is changed by making new things, which are in it. -/
theorem Region.beyond_scopes
    {heap : Heap}
    (holds : Region region heap)
    {id : ScopeId}
    (outside : ¬ region (.scope id)) :
    id < heap.scopes.size :=
  Nat.lt_of_not_le fun beyond =>
    outside (holds.room (.scope id) (Nat.not_lt.mpr beyond))

/-- An instance outside of a region was there before the region grew. -/
theorem Region.beyond_instances
    {heap : Heap}
    (holds : Region region heap)
    {id : InstanceId}
    (outside : ¬ region (.instanceObject id)) :
    id < heap.instances.size :=
  Nat.lt_of_not_le fun beyond =>
    outside (holds.room (.instanceObject id) (Nat.not_lt.mpr beyond))

/-! ## Changes of a state -/

namespace Inside

variable {state : State}

/-- A new scope around things of the region is one of the region. -/
theorem addScope
    (inside : Inside region state)
    {bindings : Bindings Value}
    {enclosing : ScopeId}
    (bound : BoundIn region bindings)
    (around : region (.scope enclosing)) :
    Moves region state
      { state with heap := state.heap.addScope ⟨bindings, some enclosing⟩ } where
  inside := ⟨inside.heap.addScope bound around, inside.scope, inside.globals⟩
  untouched := by
    refine ⟨fun id outside => ?_, fun _ _ => rfl⟩
    have old := inside.heap.beyond_scopes outside
    simp [Heap.addScope, Array.getElem?_push, Nat.ne_of_lt old]

/-- A scope of the region may be given a value of the region. -/
theorem define
    (inside : Inside region state)
    {scope : ScopeId}
    (member : region (.scope scope))
    (name : String)
    {value : Value}
    (inRegion : value.In region) :
    Moves region state (state.define scope name value) where
  inside := ⟨inside.heap.define scope name inRegion, inside.scope, inside.globals⟩
  untouched := by
    refine ⟨fun id outside => ?_, fun _ _ => rfl⟩
    have other : scope ≠ id := by
      rintro rfl
      exact outside member
    simp [State.define, Heap.define, Array.getElem?_modify, other]

/-- A new function that is closed over a scope of the region is one of the region. -/
theorem addFunction
    (inside : Inside region state)
    {function : Function}
    (closure : region (.scope function.closure)) :
    Moves region state { state with heap := state.heap.addFunction function } :=
  ⟨⟨inside.heap.addFunction closure, inside.scope, inside.globals⟩,
    fun _ _ => rfl, fun _ _ => rfl⟩

/-- A new class with nothing but things of the region is one of the region. -/
theorem addClass
    (inside : Inside region state)
    {declared : Class}
    (inRegion : declared.In region) :
    Moves region state { state with heap := state.heap.addClass declared } :=
  ⟨⟨inside.heap.addClass inRegion, inside.scope, inside.globals⟩,
    fun _ _ => rfl, fun _ _ => rfl⟩

/-- A new instance of a class of the region is one of the region. -/
theorem addInstance
    (inside : Inside region state)
    {classId : ClassId}
    (classOf : region (.classObject classId)) :
    Moves region state
      { state with heap := state.heap.addInstance ⟨classId, Bindings.empty⟩ } where
  inside := ⟨inside.heap.addInstance classOf, inside.scope, inside.globals⟩
  untouched := by
    refine ⟨fun _ _ => rfl, fun id outside => ?_⟩
    have old := inside.heap.beyond_instances outside
    simp [Heap.addInstance, Array.getElem?_push, Nat.ne_of_lt old]

/-- An instance of the region may be given a value of the region. -/
theorem setField
    (inside : Inside region state)
    {object : InstanceId}
    (member : region (.instanceObject object))
    (name : String)
    {value : Value}
    (inRegion : value.In region) :
    Moves region state { state with heap := state.heap.setField object name value } where
  inside := ⟨inside.heap.setField object name inRegion, inside.scope, inside.globals⟩
  untouched := by
    refine ⟨fun _ _ => rfl, fun id outside => ?_⟩
    have other : object ≠ id := by
      rintro rfl
      exact outside member
    simp [Heap.setField, Array.getElem?_modify, other]

end Inside

end

namespace Stays

variable {α β : Type} {region : Entry → Prop} {good : α → Prop} {best : β → Prop}

/-! ## Actions in a row -/

/-- An action that always gives a value stays in a region if every step of it does. -/
theorem of_ok
    {action : Eval α}
    {result : State → α}
    {final : State → State}
    (given : ∀ state, action state = .ok (result state) (final state))
    (moves : ∀ state, Inside region state →
      Moves region state (final state) ∧ good (result state)) :
    Stays region good action := by
  intro state inside
  rw [given state]
  exact moves state inside

/-- What an action gives that stays in a region is good. -/
theorem ok
    {action : Eval α}
    {value : α}
    {state after : State}
    (stays : Stays region good action)
    (inside : Inside region state)
    (given : action state = .ok value after) :
    Moves region state after ∧ good value := by
  have ended := stays state inside
  rw [given] at ended
  exact ended

/-- However an action ends, the state is still in the region. -/
theorem moves
    {action : Eval α}
    {state : State}
    (stays : Stays region good action)
    (inside : Inside region state) :
    Moves region state (endState (action state)) := by
  have ended := stays state inside
  cases given : action state with
  | ok value after =>
      rw [given] at ended
      exact ended.1
  | error exit after =>
      rw [given] at ended
      exact ended.1

theorem pure {value : α} (fine : good value) : Stays region good (pure value : Eval α) :=
  fun _ inside => ⟨.refl inside, fine⟩

theorem throw {exit : Exit} (fine : exit.In region) :
    Stays region good (throw exit : Eval α) :=
  fun _ inside => ⟨.refl inside, fine⟩

theorem raise (error : RuntimeError) : Stays region good (raise error : Eval α) :=
  throw trivial

/-- Actions in a row stay in a region, the second one from what is good in the first. -/
theorem bind
    {first : Eval α}
    {next : α → Eval β}
    (head : Stays region good first)
    (tail : ∀ value, good value → Stays region best (next value)) :
    Stays region best (first >>= next) := by
  intro state inside
  have ended := head state inside
  rw [bind_apply]
  cases given : first state with
  | error exit middle =>
      rw [given] at ended
      exact ended
  | ok value middle =>
      rw [given] at ended
      obtain ⟨moves, fine⟩ := ended
      have further := tail value fine middle moves.inside
      dsimp only
      cases result : next value middle with
      | ok final after =>
          rw [result] at further
          exact ⟨moves.trans further.1, further.2⟩
      | error exit after =>
          rw [result] at further
          exact ⟨moves.trans further.1, further.2⟩

/-- The state may be looked at, which is in the region. -/
theorem get
    {next : State → Eval α}
    (stays : ∀ state, Inside region state → Stays region good (next state)) :
    Stays region good (get >>= next) :=
  fun state inside => stays state inside state inside

/-- What is made of a good value is good. -/
theorem map
    {action : Eval α}
    {convert : α → β}
    (stays : Stays region good action)
    (implies : ∀ value, good value → best (convert value)) :
    Stays region best (convert <$> action) := by
  rw [map_eq_pure_bind]
  exact stays.bind fun value fine => pure (implies value fine)

theorem discard
    {action : Eval α}
    (stays : Stays region good action) :
    Stays region (fun _ => True) (discard action : Eval PUnit) :=
  stays.map fun _ _ => trivial

/-- Steps that stay in a region stay there in a row, with good results. -/
theorem mapM
    {step : α → Eval β}
    (stays : ∀ value, Stays region best (step value))
    (values : List α) :
    Stays region (fun results => ∀ result ∈ results, best result) (values.mapM step) := by
  induction values with
  | nil => exact pure (by simp)
  | cons first rest inductionHypothesis =>
      rw [List.mapM_cons]
      refine (stays first).bind fun result fine => ?_
      exact inductionHypothesis.bind fun results others =>
        pure (List.forall_mem_cons.mpr ⟨fine, others⟩)

/-- Steps that stay in a region stay there in a row. -/
theorem forM
    {step : α → Eval PUnit}
    (stays : ∀ value, Stays region (fun _ => True) (step value))
    (values : List α) :
    Stays region (fun _ => True) (values.forM step) := by
  induction values with
  | nil => exact pure trivial
  | cons first rest inductionHypothesis =>
      exact (stays first).bind fun _ _ => inductionHypothesis

/-- A run inside another scope of the region comes back from it. -/
theorem within
    {action : Eval α}
    {scope : ScopeId}
    (member : region (.scope scope))
    (stays : Stays region good action) :
    Stays region good (within scope action) := by
  intro state inside
  have entered : Inside region { state with scope := scope } :=
    ⟨inside.heap, member, inside.globals⟩
  have ended := stays _ entered
  -- Coming back changes the current scope only, which is the one of the start again.
  have leaving : ∀ {final : State}, Moves region { state with scope := scope } final →
      Moves region state { final with scope := state.scope } :=
    fun moves => ⟨⟨moves.inside.heap, inside.scope, moves.inside.globals⟩, moves.untouched⟩
  unfold Execution.within
  cases given : action { state with scope := scope } with
  | ok value final =>
      rw [given] at ended
      exact ⟨leaving ended.1, ended.2⟩
  | error exit final =>
      rw [given] at ended
      exact ⟨leaving ended.1, ended.2⟩

/-- A body that is left by a return gives the returned value. -/
theorem returning
    {body : Eval Unit}
    {anything : Unit → Prop}
    (stays : Stays region anything body) :
    Stays region (·.In region) (returning body) := by
  intro state inside
  have ended := stays state inside
  unfold Execution.returning
  cases given : body state with
  | ok value final =>
      rw [given] at ended
      exact ⟨ended.1, Value.in_of_none rfl⟩
  | error exit final =>
      rw [given] at ended
      cases exit with
      | returned line value => exact ended
      | error error => exact ended
      | mismatch found => exact ended
      | exhausted => exact ended

/-! ## The steps of a run -/

/-- A computation that changes nothing stays in a region. -/
theorem lift
    {result : Except RuntimeError α}
    (fine : ∀ value, result = .ok value → good value) :
    Stays region good (lift result) := by
  cases result with
  | ok value => exact pure (fine value rfl)
  | error error => exact raise error

/-- A scope is made inside the region. -/
theorem newScope
    {bindings : Bindings Value}
    {enclosing : ScopeId}
    (bound : BoundIn region bindings)
    (around : region (.scope enclosing)) :
    Stays region (fun scope => region (.scope scope)) (newScope bindings enclosing) :=
  of_ok (fun _ => rfl) fun state inside =>
    ⟨inside.addScope bound around,
      inside.heap.room (.scope state.heap.scopes.size) (Nat.lt_irrefl _)⟩

/-- A function is made inside the region. -/
theorem newFunction
    {function : Function}
    (closure : region (.scope function.closure)) :
    Stays region (·.In region) (newFunction function) :=
  of_ok (fun _ => rfl) fun state inside =>
    ⟨inside.addFunction closure,
      Value.in_of_some rfl
        (inside.heap.room (.function state.heap.functions.size) (Nat.lt_irrefl _))⟩

/-- A class is made inside the region. -/
theorem newClass
    {declared : Class}
    (inRegion : declared.In region) :
    Stays region (·.In region) (newClass declared) :=
  of_ok (fun _ => rfl) fun state inside =>
    ⟨inside.addClass inRegion,
      Value.in_of_some rfl
        (inside.heap.room (.classObject state.heap.classes.size) (Nat.lt_irrefl _))⟩

/-- An instance is made inside the region. -/
theorem newInstance
    {classId : ClassId}
    (classOf : region (.classObject classId)) :
    Stays region (fun object => region (.instanceObject object)) (newInstance classId) :=
  of_ok (fun _ => rfl) fun state inside =>
    ⟨inside.addInstance classOf,
      inside.heap.room (.instanceObject state.heap.instances.size) (Nat.lt_irrefl _)⟩

/-- A variable is declared in the current scope, which is one of the region. -/
theorem defineHere
    (name : String)
    {value : Value}
    (inRegion : value.In region) :
    Stays region (fun _ => True) (defineHere name value) :=
  of_ok (fun _ => rfl) fun _ inside => ⟨inside.define inside.scope name inRegion, trivial⟩

/-- A variable that is looked up gives a value of the region, wherever it is found. -/
theorem lookUp (id : NodeId) (name : Identifier) :
    Stays region (·.In region) (lookUp id name) := by
  refine get fun state inside => ?_
  cases known : state.distances.get? id with
  | some distance =>
      dsimp only
      cases found : state.heap.getAt? state.scope distance name.text with
      | none => exact raise _
      | some value => exact pure (inside.heap.closed.getAt?_in inside.scope found)
  | none =>
      dsimp only
      cases found : state.global? name.text with
      | none => exact raise _
      | some value => exact pure (inside.heap.closed.getLocal?_in inside.globals found)

/-- A variable is assigned to in the region, or the run stops there. -/
theorem assignTo
    (target : Reference)
    {value : Value}
    (inRegion : value.In region) :
    Stays region (fun _ => True) (assignTo target value) := by
  intro state inside
  unfold Execution.assignTo
  cases known : state.distances.get? target.id with
  | some distance =>
      dsimp only
      cases above : state.heap.ancestor? distance state.scope with
      | none => exact ⟨.refl inside, trivial⟩
      | some scope =>
          have member := inside.heap.closed.ancestor?_in inside.scope above
          exact ⟨inside.define member _ inRegion, trivial⟩
  | none =>
      dsimp only
      cases state.global? target.name.text with
      | none => exact ⟨.refl inside, trivial⟩
      | some old => exact ⟨inside.define inside.globals _ inRegion, trivial⟩

/-- A bound method sees a new scope, which is one of the region. -/
theorem bindMethod
    {method : Function}
    {object : InstanceId}
    (closure : region (.scope method.closure))
    (member : region (.instanceObject object)) :
    Stays region (fun function => region (.scope function.closure))
      (bindMethod method object) := by
  refine (newScope (.ofList ?_) closure).bind fun scope inRegion => pure inRegion
  intro entry isReceiver
  obtain rfl := List.mem_singleton.mp isReceiver
  exact Value.in_of_some rfl member

/-- A bound method is a value of the region. -/
theorem boundValue
    {method : Function}
    {object : InstanceId}
    (closure : region (.scope method.closure))
    (member : region (.instanceObject object)) :
    Stays region (·.In region) (boundValue method object) :=
  (bindMethod closure member).bind fun _ bound => newFunction bound

/-- Properties of instances of the region are values of the region. -/
theorem propertyOf
    {object : Value}
    (inRegion : object.In region)
    (name : Identifier) :
    Stays region (·.In region) (propertyOf object name) := by
  cases object with
  | instanceObject id =>
      have member : region (.instanceObject id) := inRegion _ rfl
      refine get fun state inside => ?_
      dsimp only
      cases field : state.heap.getField? id name.text with
      | some value => exact pure (inside.heap.closed.getField?_in member field)
      | none =>
          cases found : state.heap.methodOf? id name.text with
          | none => exact raise _
          | some method => exact boundValue (inside.heap.closed.methodOf?_in member found) member
  | _ => exact raise _

/-- What a property belongs to is an instance of the region. -/
theorem fieldOwner
    {object : Value}
    (inRegion : object.In region)
    (name : Identifier) :
    Stays region (fun owner => region (.instanceObject owner)) (fieldOwner object name) := by
  cases object with
  | instanceObject id => exact pure (inRegion _ rfl)
  | _ => exact raise _

/-- Properties of instances of the region are set inside the region. -/
theorem writeField
    {object : InstanceId}
    (member : region (.instanceObject object))
    (name : String)
    {value : Value}
    (inRegion : value.In region) :
    Stays region (fun _ => True) (writeField object name value) :=
  of_ok (fun _ => rfl) fun _ inside => ⟨inside.setField member name inRegion, trivial⟩

/-- A superclass is found in the region. -/
theorem superclassAt (distance : Nat) :
    Stays region (fun parent => region (.classObject parent)) (superclassAt distance) := by
  refine get fun state inside => ?_
  split
  next parent found =>
    have inRegion := inside.heap.closed.getAt?_in inside.scope found
    exact pure (inRegion _ rfl)
  · exact throw trivial

/-- A receiver is found in the region. -/
theorem receiverInside (distance : Nat) :
    Stays region (fun object => region (.instanceObject object)) (receiverInside distance) := by
  refine get fun state inside => ?_
  cases distance with
  | zero => exact throw trivial
  | succ nearer =>
      dsimp only
      split
      next object found =>
        have inRegion := inside.heap.closed.getAt?_in inside.scope found
        exact pure (inRegion _ rfl)
      · exact throw trivial

/-- A method of a superclass is found in the region, and bound there. -/
theorem superMethod (id : NodeId) (line : Nat) (method : Identifier) :
    Stays region (·.In region) (superMethod id line method) := by
  refine get fun state _ => ?_
  split
  · exact raise _
  next distance _ =>
    refine (superclassAt distance).bind fun parent isClass => ?_
    refine (receiverInside distance).bind fun object isInstance => ?_
    refine get fun later inside => ?_
    cases found : later.heap.findMethod? parent method.text with
    | none => exact raise _
    | some inherited =>
        have closure := inside.heap.closed.findMethod?_in isClass found
        exact boundValue closure isInstance

/-- A function is declared inside the region. -/
theorem declareFunction (declaration : FunctionDeclaration) :
    Stays region (fun _ => True) (declareFunction declaration) :=
  get fun _ inside =>
    (newFunction inside.scope).bind fun _ inRegion => defineHere _ inRegion

/-- What a class inherits from is a class of the region. -/
theorem superclassOf (parent : Reference) :
    Stays region (fun id => region (.classObject id)) (superclassOf parent) := by
  refine (lookUp parent.id parent.name).bind fun value inRegion => ?_
  cases value with
  | classObject id => exact pure (inRegion _ rfl)
  | _ => exact raise _

/-- The methods of a class are closed over the scope in which it is declared. -/
theorem class_in
    {name : String}
    {parent : Option ClassId}
    {closure : ScopeId}
    (inherits : ∀ id, parent = some id → region (.classObject id))
    (member : region (.scope closure))
    (methods : List FunctionDeclaration) :
    Class.In region ⟨name, parent, methodTable closure methods⟩ := by
  refine ⟨inherits, ?_⟩
  intro found method known
  obtain ⟨declaration, -, same⟩ := List.mem_map.mp (Bindings.mem_of_get?_ofList known)
  obtain ⟨-, rfl⟩ := Prod.mk.inj same
  exact member

/-- A class is made and bound inside the region. -/
theorem defineClass
    (name : String)
    {declared : Class}
    (inRegion : declared.In region) :
    Stays region (fun _ => True)
      (do Execution.defineHere name (← Execution.newClass declared)) :=
  (newClass inRegion).bind fun _ isClass => defineHere name isClass

/-- A class is declared inside the region, with a scope of its own for its superclass. -/
theorem declareClass
    (name : Identifier)
    (superclass : Option Reference)
    (methods : List FunctionDeclaration) :
    Stays region (fun _ => True) (declareClass name superclass methods) := by
  cases superclass with
  | none =>
      rw [declareClass_none]
      refine (defineHere _ (Value.in_of_none rfl)).bind fun _ _ => ?_
      exact get fun state inside =>
        defineClass _ (class_in (by simp) inside.scope methods)
  | some parent =>
      rw [declareClass_some]
      refine (superclassOf parent).bind fun id isClass => ?_
      refine (defineHere _ (Value.in_of_none rfl)).bind fun _ _ => ?_
      refine get fun state inside => ?_
      refine (newScope (.ofList ?_) inside.scope).bind fun closure member => ?_
      · intro entry isSuperclass
        obtain rfl := List.mem_singleton.mp isSuperclass
        exact Value.in_of_some rfl isClass
      · refine defineClass _ (class_in ?_ member methods)
        rintro other ⟨⟩
        exact isClass

end Stays

/-! ## Operators

No operator gives anything that is in the heap.
-/

section

variable {line : Nat} {left right value : Value}

/-- An operator with one operand never gives anything that is in the heap. -/
theorem entry?_of_applyUnary
    {operator : UnaryOperator}
    {operand : Value}
    (given : applyUnary operator line operand = .ok value) :
    value.entry? = none := by
  unfold applyUnary at given
  split at given
  · obtain rfl := Except.ok.inj given
    rfl
  · obtain rfl := Except.ok.inj given
    rfl
  · simp at given

/-- A sum is never anything that is in the heap. -/
theorem entry?_of_addValues (given : addValues line left right = .ok value) :
    value.entry? = none := by
  unfold addValues at given
  split at given
  all_goals
    first
    | obtain rfl := Except.ok.inj given
      rfl
    | simp at given

/-- An operation on numbers gives nothing that is in the heap if its results are not. -/
theorem entry?_of_onNumbers
    {operator : BinaryOperator}
    {operation : Number → Number → Except RuntimeError Value}
    (results : ∀ first second result, operation first second = .ok result →
      result.entry? = none)
    (given : onNumbers operator line operation left right = .ok value) :
    value.entry? = none := by
  unfold onNumbers at given
  split at given
  · exact results _ _ _ given
  · simp at given

/-- An operator with two operands never gives anything that is in the heap. -/
theorem entry?_of_applyBinary
    {operator : BinaryOperator}
    (given : applyBinary operator line left right = .ok value) :
    value.entry? = none := by
  have divided : ∀ first second result, divideNumbers line first second = .ok result →
      result.entry? = none := by
    intro first second result quotient
    unfold divideNumbers at quotient
    split at quotient
    · simp at quotient
    · obtain rfl := Except.ok.inj quotient
      rfl
  cases operator with
  | add => exact entry?_of_addValues given
  | divide => exact entry?_of_onNumbers divided given
  | equal =>
      obtain rfl := Except.ok.inj given
      rfl
  | notEqual =>
      obtain rfl := Except.ok.inj given
      rfl
  | _ =>
      refine entry?_of_onNumbers (fun _ _ _ result => ?_) given
      obtain rfl := Except.ok.inj result
      rfl

end

/-! ## Callees -/

/-- The thing in the heap through which a callee leads anywhere. -/
def Callee.entry? : Callee → Option Entry
  | .native _ => none
  | .function called => some (.scope called.closure)
  | .classObject id => some (.classObject id)

/-- A callee that is in a region, if it is in the heap at all. -/
def Callee.In (region : Entry → Prop) (callee : Callee) : Prop :=
  ∀ entry, callee.entry? = some entry → region entry

/-- A function is in a region with the scope that it is closed over. -/
theorem Callee.in_of_closure
    {region : Entry → Prop}
    {called : Function}
    (closure : region (.scope called.closure)) :
    (Callee.function called).In region := by
  intro entry isEntry
  obtain rfl := Option.some.inj isEntry
  exact closure

/-- The callee that a value of the part is leads nowhere out of it. -/
theorem Heap.Closed.callee?_in
    {heap : Heap}
    {region : Entry → Prop}
    (closed : heap.Closed region)
    {subject : Value}
    (inRegion : subject.In region)
    {callee : Callee}
    (found : heap.callee? subject = some callee) :
    callee.In region := by
  cases subject with
  | native function =>
      obtain rfl := Option.some.inj found
      simp [Callee.In, Callee.entry?]
  | functionObject id =>
      obtain ⟨function, table, rfl⟩ := Option.map_eq_some_iff.mp found
      exact Callee.in_of_closure (closed _ _ (inRegion _ rfl) (.closure table))
  | classObject id =>
      obtain rfl := Option.some.inj found
      rintro entry ⟨⟩
      exact inRegion _ rfl
  | _ => simp [Heap.callee?] at found

namespace Stays

variable {region : Entry → Prop}

/-- What is called is in the region. -/
theorem calleeFor
    {subject : Value}
    (inRegion : subject.In region)
    (count line : Nat) :
    Stays region (·.In region) (calleeFor subject count line) := by
  refine get fun state inside => ?_
  dsimp only
  cases found : state.heap.callee? subject with
  | none => exact raise _
  | some callee =>
      have member := inside.heap.closed.callee?_in inRegion found
      dsimp only
      split
      · exact pure member
      · exact raise _

/-- A call is begun in a new scope of the region, which binds values of the region. -/
theorem activate
    {function : Function}
    {arguments : List Value}
    (closure : region (.scope function.closure))
    (inRegion : ∀ argument ∈ arguments, argument.In region) :
    Stays region (fun scope => region (.scope scope)) (activate function arguments) := by
  refine newScope (.ofList ?_) closure
  intro entry member
  exact inRegion entry.2 (List.of_mem_zip member).2

/-- What a call gives is in the region, also where it is the receiver of an initializer. -/
theorem callResult
    {function : Function}
    {result : Value}
    (closure : region (.scope function.closure))
    (inRegion : result.In region) :
    Stays region (·.In region) (callResult function result) := by
  unfold Execution.callResult
  split
  · refine get fun state inside => ?_
    cases found : state.heap.getLocal? function.closure receiverName with
    | none => exact pure (Value.in_of_none rfl)
    | some value => exact pure (inside.heap.closed.getLocal?_in closure found)
  · exact pure inRegion

/-- Printing changes nothing but the transcript. -/
theorem printValue (value : Value) : Stays region (fun _ => True) (printValue value) :=
  of_ok (fun _ => rfl) fun _ inside => ⟨.of_sameHeap inside rfl rfl rfl, trivial⟩

/-- The clock gives a value that is in every region. -/
theorem readClock : Stays region (·.In region) readClock :=
  of_ok (fun _ => rfl) fun _ inside => ⟨.of_sameHeap inside rfl rfl rfl, Value.in_of_none rfl⟩

theorem applyUnary (operator : UnaryOperator) (line : Nat) (operand : Value) :
    Stays region (·.In region) (Execution.lift (applyUnary operator line operand)) :=
  lift fun _ given => Value.in_of_none (entry?_of_applyUnary given)

theorem applyBinary (operator : BinaryOperator) (line : Nat) (left right : Value) :
    Stays region (·.In region) (Execution.lift (applyBinary operator line left right)) :=
  lift fun _ given => Value.in_of_none (entry?_of_applyBinary given)

/-! ## Runs -/

variable {fuel : Nat}

/-- Every expression stays in a region if everything with less fuel does. -/
theorem evaluate_succ
    (expressions : ∀ value, Stays region (·.In region) (evaluate fuel value))
    (calls : ∀ callee arguments, callee.In region → (∀ argument ∈ arguments, argument.In region) →
      Stays region (·.In region) (call fuel callee arguments))
    (value : Expr) :
    Stays region (·.In region) (evaluate (fuel + 1) value) := by
  cases value with
  | literal contents => exact pure (Value.in_ofLiteral contents)
  | grouping inner => exact expressions inner
  | unary operator line operand =>
      exact (expressions operand).bind fun found _ => applyUnary operator line found
  | binary operator line left right =>
      refine (expressions left).bind fun first _ => ?_
      exact (expressions right).bind fun second _ => applyBinary operator line first second
  | logical operator left right =>
      refine (expressions left).bind fun first inRegion => ?_
      split
      · exact pure inRegion
      · exact expressions right
  | reference occurrence => exact lookUp _ _
  | assign target value =>
      refine (expressions value).bind fun assigned inRegion => ?_
      exact (assignTo target inRegion).bind fun _ _ => pure inRegion
  | call callee arguments line =>
      refine (expressions callee).bind fun subject inRegion => ?_
      refine (mapM expressions arguments).bind fun values handed => ?_
      exact (calleeFor inRegion _ line).bind fun found member => calls found values member handed
  | property object name =>
      exact (expressions object).bind fun found inRegion => propertyOf inRegion name
  | setProperty object name value =>
      refine (expressions object).bind fun found inRegion => ?_
      refine (fieldOwner inRegion name).bind fun owner member => ?_
      refine (expressions value).bind fun assigned stored => ?_
      exact (writeField member _ stored).bind fun _ _ => pure stored
  | this id line => exact lookUp _ _
  | super id line method => exact superMethod id line method

/-- Every statement stays in a region if everything with less fuel does. -/
theorem execute_succ
    (expressions : ∀ value, Stays region (·.In region) (evaluate fuel value))
    (statements : ∀ statement, Stays region (fun _ => True) (execute fuel statement))
    (statement : Stmt) :
    Stays region (fun _ => True) (execute (fuel + 1) statement) := by
  cases statement with
  | expression value => exact (expressions value).discard
  | print value => exact (expressions value).bind fun found _ => printValue found
  | varDeclaration name initializer =>
      cases initializer with
      | none => exact defineHere _ (Value.in_of_none rfl)
      | some value =>
          exact (expressions value).bind fun found inRegion => defineHere _ inRegion
  | block body =>
      refine get fun state inside => ?_
      refine (newScope .empty inside.scope).bind fun scope member => ?_
      exact within member (forM statements body)
  | branch condition consequent alternative =>
      refine (expressions condition).bind fun found _ => ?_
      split
      · exact statements consequent
      cases alternative with
      | none => exact pure trivial
      | some other => exact statements other
  | loop condition body =>
      refine (expressions condition).bind fun found _ => ?_
      split
      · exact (statements body).bind fun _ _ => statements (.loop condition body)
      · exact pure trivial
  | functionDeclaration declaration => exact declareFunction declaration
  | returnValue line value =>
      cases value with
      | none => exact throw (Value.in_of_none rfl)
      | some value => exact (expressions value).bind fun found inRegion => throw inRegion
  | classDeclaration name superclass methods => exact declareClass name superclass methods

/-- Every call stays in a region if everything with less fuel does. -/
theorem call_succ
    (statements : ∀ statement, Stays region (fun _ => True) (execute fuel statement))
    (calls : ∀ callee arguments, callee.In region → (∀ argument ∈ arguments, argument.In region) →
      Stays region (·.In region) (call fuel callee arguments))
    (callee : Callee)
    (arguments : List Value)
    (member : callee.In region)
    (handed : ∀ argument ∈ arguments, argument.In region) :
    Stays region (·.In region) (call (fuel + 1) callee arguments) := by
  cases callee with
  | native function => exact readClock
  | function function =>
      have closure : region (.scope function.closure) := member _ rfl
      refine (activate closure handed).bind fun scope entered => ?_
      refine (returning (within entered (forM statements _))).bind fun result inRegion => ?_
      exact callResult closure inRegion
  | classObject classId =>
      have isClass : region (.classObject classId) := member _ rfl
      refine (newInstance isClass).bind fun object isInstance => ?_
      have made : (Value.instanceObject object).In region := Value.in_of_some rfl isInstance
      refine get fun state inside => ?_
      cases found : state.heap.findMethod? classId constructorName with
      | none => exact pure made
      | some constructor =>
          have closure := inside.heap.closed.findMethod?_in isClass found
          refine (bindMethod closure isInstance).bind fun bound boundIn => ?_
          have member := Callee.in_of_closure boundIn
          exact (calls _ arguments member handed).discard.bind fun _ _ => pure made

/-- Whatever is run, with any fuel, stays in a region. -/
theorem everything (region : Entry → Prop) (fuel : Nat) :
    (∀ value, Stays region (·.In region) (evaluate fuel value)) ∧
      (∀ statement, Stays region (fun _ => True) (execute fuel statement)) ∧
      ∀ callee arguments, callee.In region → (∀ argument ∈ arguments, argument.In region) →
        Stays region (·.In region) (call fuel callee arguments) := by
  induction fuel with
  | zero =>
      exact ⟨fun _ => throw trivial, fun _ => throw trivial, fun _ _ _ _ => throw trivial⟩
  | succ fuel inductionHypothesis =>
      obtain ⟨expressions, statements, calls⟩ := inductionHypothesis
      exact ⟨evaluate_succ expressions calls, execute_succ expressions statements,
        call_succ statements calls⟩

end Stays

end Lox.Execution
