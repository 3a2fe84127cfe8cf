import Lox.Proofs.Execution.Keeping

namespace Lox.Execution

open Scoping

/-!
# The steps of a run

One lemma for each step that needs no recursion.  The look-ups are the point:
where resolution has recorded a distance, the scope that many steps up has what
is looked up, because the current scope covers the place of the occurrence.
-/

section

variable {resolved : Settlement → Prop} {state : State} {task : Task} {origin : State}
  {allowed : Exit → Prop}

/-! ## Look-ups -/

/-- The value that a covered occurrence of a name finds at its distance. -/
theorem getAt?_of_covers
    {place : Place}
    {initializing : Option String}
    (covers : Covers state.heap state.scope place initializing)
    {name : String}
    {depth : Nat}
    (declared : place.depth? name = some depth)
    (initialized : initializing ≠ some name) :
    ∃ value, state.heap.getAt? state.scope depth name = some value := by
  obtain ⟨id, found, value, above, table, isBound⟩ := covers.bound declared fun _ => initialized
  exact ⟨value, by simp [Heap.getAt?, Heap.getLocal?, above, table, isBound]⟩

/-- A look-up finds its name, unless resolution has left it global. -/
theorem lookUp_keeps
    {place : Place}
    {initializing : Option String}
    {id : NodeId}
    {name : Identifier}
    (coherent : Coherent state.distances resolved state.heap)
    (covers : Covers state.heap state.scope place initializing)
    (recorded : state.distances.get? id = place.depth? name.text)
    (initialized : place.scopes ≠ [] → initializing ≠ some name.text)
    (global : state.distances.get? id = none →
      allowed (.error (.undefinedVariable name))) :
    Keeps resolved (lookUp id name) state (fun _ _ => True) allowed := by
  refine .get ?_
  cases known : state.distances.get? id with
  | none =>
      cases found : state.global? name.text with
      | none =>
          refine .throw coherent ?_
          exact global known
      | some value => exact .pure coherent trivial
  | some depth =>
      have declared : place.depth? name.text = some depth := recorded ▸ known
      have within : place.scopes ≠ [] := by
        intro none
        simp [Place.depth?, none] at declared
      obtain ⟨value, found⟩ := getAt?_of_covers covers declared (initialized within)
      simp only [found]
      exact .pure coherent trivial

/-- An assignment finds the scope of its target, unless the target is global. -/
theorem assignTo_keeps
    {target : Reference}
    {place : Place}
    {initializing : Option String}
    (value : Value)
    (coherent : Coherent state.distances resolved state.heap)
    (covers : Covers state.heap state.scope place initializing)
    (recorded : state.distances.get? target.id = place.depth? target.name.text)
    (legible : target.name.Legible)
    (global : state.distances.get? target.id = none →
      allowed (.error (.undefinedVariable target.name))) :
    Keeps resolved (assignTo target value) state (fun _ _ => True) allowed := by
  have written : ∀ scope,
      Evolves state (state.define scope target.name.text value) ∧
        Coherent state.distances resolved
          (state.define scope target.name.text value).heap :=
    fun scope => ⟨⟨.define _ _ _ _, rfl, rfl⟩, coherent.define scope legible value⟩
  cases known : state.distances.get? target.id with
  | none =>
      cases found : state.global? target.name.text with
      | none =>
          refine .of_error ?_ (.refl state) coherent (global known)
          simp [assignTo, known, found]
      | some old =>
          have given : assignTo target value state =
              .ok () (state.define state.globals target.name.text value) := by
            simp [assignTo, known, found]
          exact .of_ok given (written _).1 (written _).2 trivial
  | some depth =>
      obtain ⟨scope, _, above, -⟩ := covers.exists_scope (recorded ▸ known)
      have given : assignTo target value state =
          .ok () (state.define scope target.name.text value) := by
        simp [assignTo, known, above]
      exact .of_ok given (written _).1 (written _).2 trivial

/-! ## Instances -/

/-- A found method is bound in a scope of its own. -/
theorem bindMethod_keeps
    {method : Function}
    (coherent : Coherent state.distances resolved state.heap)
    (live : LiveMethod state.distances resolved state.heap method)
    (object : InstanceId) :
    Keeps resolved (bindMethod method object) state
      (fun function after =>
        function.declaration = method.declaration ∧
          LiveFunction after.distances resolved after.heap function)
      allowed := by
  refine .of_ok rfl ⟨.addScope _ _, rfl, rfl⟩ ?_ ⟨rfl, live.bind object⟩
  exact coherent.addScope (.receiverScope object)

/-- A bound method becomes a function of the heap. -/
theorem boundValue_keeps
    {method : Function}
    (coherent : Coherent state.distances resolved state.heap)
    (live : LiveMethod state.distances resolved state.heap method)
    (object : InstanceId) :
    Keeps resolved (boundValue method object) state (fun _ _ => True) allowed := by
  refine (bindMethod_keeps coherent live object).bind ?_
  intro function after _ _ coherentAfter good
  refine .of_ok rfl ⟨.of_scopes rfl, rfl, rfl⟩ ?_ trivial
  exact coherentAfter.addFunction good.2

/-- Reading a property may bind a method. -/
theorem propertyOf_keeps
    (coherent : Coherent state.distances resolved state.heap)
    (object : Value)
    (name : Identifier) :
    Keeps resolved (propertyOf object name) state (fun _ _ => True)
      (MayStop task origin) := by
  cases object with
  | instanceObject id =>
      refine .get ?_
      dsimp only
      cases field : state.heap.getField? id name.text with
      | some value => exact .pure coherent trivial
      | none =>
          cases found : state.heap.methodOf? id name.text with
          | none => exact .throw coherent (.of_other (by simp) (by simp))
          | some method =>
              obtain ⟨owner, -, inherited⟩ := Option.bind_eq_some_iff.mp found
              exact boundValue_keeps coherent (coherent.findMethod? inherited) id
  | _ => exact .throw coherent (.of_other (by simp) (by simp))

theorem fieldOwner_keeps
    (coherent : Coherent state.distances resolved state.heap)
    (object : Value)
    (name : Identifier) :
    Keeps resolved (fieldOwner object name) state (fun _ _ => True)
      (MayStop task origin) := by
  cases object with
  | instanceObject id => exact .pure coherent trivial
  | _ => exact .throw coherent (.of_other (by simp) (by simp))

theorem writeField_keeps
    (coherent : Coherent state.distances resolved state.heap)
    (object : InstanceId)
    (name : String)
    (value : Value) :
    Keeps resolved (writeField object name value) state (fun _ _ => True) allowed :=
  .of_ok rfl ⟨.of_scopes rfl, rfl, rfl⟩ (coherent.of_instances _) trivial

/--
Where a place is inside of a subclass, `super` has a class at its distance, and
`this` an instance one scope nearer.
-/
theorem super_of_covers
    {place : Place}
    {initializing : Option String}
    (coherent : Coherent state.distances resolved state.heap)
    (covers : Covers state.heap state.scope place initializing)
    (sound : place.Sound)
    (inside : place.classRole = some .subclass)
    (legible : initializing ≠ some receiverName ∧ initializing ≠ some superclassName) :
    ∃ depth parent object,
      place.depth? superclassName = some (depth + 1) ∧
        state.heap.getAt? state.scope (depth + 1) superclassName =
          some (.classObject parent) ∧
        state.heap.getAt? state.scope depth receiverName =
          some (.instanceObject object) := by
  obtain ⟨depth, names, declared, -, known, member⟩ := sound.exists_receiver inside
  obtain ⟨id, found, value, above, table, isBound⟩ := covers.bound declared fun _ => legible.2
  obtain ⟨parent, rfl⟩ := (coherent.scopes id found table).superclass value isBound
  obtain ⟨nearId, near, nearAbove, nearTable, binds⟩ := covers depth names known
  obtain ⟨receiver, isReceiver⟩ :=
    Option.isSome_iff_exists.mp (binds receiverName member fun _ => legible.1)
  obtain ⟨object, rfl⟩ :=
    (coherent.scopes nearId near nearTable).receiver receiver isReceiver
  exact ⟨depth, parent, object, declared,
    by simp [Heap.getAt?, Heap.getLocal?, above, table, isBound],
    by simp [Heap.getAt?, Heap.getLocal?, nearAbove, nearTable, isReceiver]⟩

/-- Where `super` may be read, there is a subclass around it. -/
theorem subclass_of_super
    {distances : Distances}
    {place : Place}
    {initializing : Option String}
    {id : NodeId}
    {line : Nat}
    (settled : Settled distances resolved ⟨place, initializing, .super id line⟩) :
    place.classRole = some .subclass :=
  subclass_of_faultless settled.faultless

theorem superclassAt_apply
    {distance : Nat}
    {parent : ClassId}
    (isClass :
      state.heap.getAt? state.scope distance superclassName = some (.classObject parent)) :
    superclassAt distance state = .ok parent state := by
  unfold superclassAt
  rw [bind_of_ok (get_apply state)]
  simp [isClass, pure_apply]

theorem receiverInside_apply
    {distance : Nat}
    {object : InstanceId}
    (isInstance :
      state.heap.getAt? state.scope distance receiverName = some (.instanceObject object)) :
    receiverInside (distance + 1) state = .ok object state := by
  unfold receiverInside
  rw [bind_of_ok (get_apply state)]
  simp [isInstance, pure_apply]

/-- A method of the superclass is looked for where the place has `super`. -/
theorem superMethod_keeps
    {place : Place}
    {initializing : Option String}
    {id : NodeId}
    {line : Nat}
    (method : Identifier)
    (coherent : Coherent state.distances resolved state.heap)
    (covers : Covers state.heap state.scope place initializing)
    (settled : Settled state.distances resolved ⟨place, initializing, .super id line⟩)
    (legible : initializing ≠ some receiverName ∧ initializing ≠ some superclassName) :
    Keeps resolved (superMethod id line method) state (fun _ _ => True)
      (MayStop task origin) := by
  obtain ⟨depth, parent, object, declared, isClass, isInstance⟩ :=
    super_of_covers coherent covers settled.sound (subclass_of_super settled) legible
  have recorded : state.distances.get? id = some (depth + 1) :=
    (settled.recorded id superclassName rfl).2.trans declared
  refine .get ?_
  rw [recorded]
  refine .of_same (bind_of_ok (superclassAt_apply isClass) _) ?_
  refine .of_same (bind_of_ok (receiverInside_apply isInstance) _) ?_
  refine .get ?_
  cases found : state.heap.findMethod? parent method.text with
  | none => exact .throw coherent (.of_other (by simp) (by simp))
  | some inherited =>
      exact boundValue_keeps coherent (coherent.findMethod? found) object

/-! ## Operators and printing -/

/-- A unary operator stops by nothing that has to do with scopes. -/
theorem applyUnary_keeps
    (coherent : Coherent state.distances resolved state.heap)
    (operator : UnaryOperator)
    (line : Nat)
    (operand : Value) :
    Keeps resolved (lift (applyUnary operator line operand)) state (fun _ _ => True)
      (MayStop task origin) := by
  unfold applyUnary
  split
  · exact .pure coherent trivial
  · exact .pure coherent trivial
  · exact .throw coherent (.of_other (by simp) (by simp))

/-- An operation on numbers stops as the operation does, or at other values. -/
theorem onNumbers_keeps
    (coherent : Coherent state.distances resolved state.heap)
    (operator : BinaryOperator)
    (line : Nat)
    (operation : Number → Number → Except RuntimeError Value)
    (left right : Value)
    (keeps : ∀ first second,
      Keeps resolved (lift (operation first second)) state (fun _ _ => True)
        (MayStop task origin)) :
    Keeps resolved (lift (onNumbers operator line operation left right)) state
      (fun _ _ => True) (MayStop task origin) := by
  unfold onNumbers
  split
  · exact keeps _ _
  · exact .throw coherent (.of_other (by simp) (by simp))

/-- A binary operator stops by nothing that has to do with scopes. -/
theorem applyBinary_keeps
    (coherent : Coherent state.distances resolved state.heap)
    (operator : BinaryOperator)
    (line : Nat)
    (left right : Value) :
    Keeps resolved (lift (applyBinary operator line left right)) state (fun _ _ => True)
      (MayStop task origin) := by
  have numbers : ∀ operation,
      (∀ first second, Keeps resolved (lift (operation first second)) state
        (fun _ _ => True) (MayStop task origin)) →
      Keeps resolved (lift (onNumbers operator line operation left right)) state
        (fun _ _ => True) (MayStop task origin) :=
    fun operation => onNumbers_keeps coherent operator line operation left right
  cases operator with
  | add =>
      simp only [applyBinary, addValues]
      split
      · exact .pure coherent trivial
      · exact .pure coherent trivial
      · exact .pure coherent trivial
      · exact .pure coherent trivial
      · exact .throw coherent (.of_other (by simp) (by simp))
  | divide =>
      refine numbers _ fun first second => ?_
      unfold divideNumbers
      split
      · exact .throw coherent (.of_other (by simp) (by simp))
      · exact .pure coherent trivial
  | equal => exact .pure coherent trivial
  | notEqual => exact .pure coherent trivial
  | subtract => exact numbers _ fun _ _ => .pure coherent trivial
  | multiply => exact numbers _ fun _ _ => .pure coherent trivial
  | greater => exact numbers _ fun _ _ => .pure coherent trivial
  | greaterEqual => exact numbers _ fun _ _ => .pure coherent trivial
  | less => exact numbers _ fun _ _ => .pure coherent trivial
  | lessEqual => exact numbers _ fun _ _ => .pure coherent trivial

theorem printValue_keeps
    (coherent : Coherent state.distances resolved state.heap)
    (value : Value) :
    Keeps resolved (printValue value) state (fun _ _ => True) allowed :=
  .of_ok rfl ⟨.refl _, rfl, rfl⟩ coherent trivial

theorem readClock_keeps (coherent : Coherent state.distances resolved state.heap) :
    Keeps resolved readClock state (fun _ _ => True) allowed :=
  .of_ok rfl ⟨.refl _, rfl, rfl⟩ coherent trivial

end

end Lox.Execution
