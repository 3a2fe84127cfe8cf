import Lox.Proofs.Execution.Layout

namespace Lox.Execution

open Scoping

/-!
# Coherent heaps

Everything that can still run stands at a covered place: the functions of the
heap, and the methods of its classes once they are bound to an instance.  And
what scopes hold under the keywords `this` and `super` are instances and classes.
-/

/--
Resolution has left a site as a run needs it: it broke no rule, its place is sound,
and its occurrence has the distance of the scope that declares its name.
-/
structure Settled (distances : Distances) (resolved : Settlement → Prop) (site : Site) : Prop where
  faultless : site.fault? = none
  sound : site.place.Sound
  recorded :
    ∀ id name, site.occurrence? = some (id, name) →
      resolved ⟨id, name, site.place.depth? name⟩ ∧
        distances.get? id = site.place.depth? name

/-- All sites in a row are settled. -/
def AllSettled (distances : Distances) (resolved : Settlement → Prop) (sites : List Site) : Prop :=
  ∀ site ∈ sites, Settled distances resolved site

/-- Under the keywords, bindings hold an instance and a class. -/
structure Typed (bindings : Bindings Value) : Prop where
  receiver :
    ∀ value, bindings.get? receiverName = some value →
      ∃ object, value = .instanceObject object
  superclass :
    ∀ value, bindings.get? superclassName = some value →
      ∃ parent, value = .classObject parent

namespace Typed

variable {bindings : Bindings Value}

/-- A legible name may be bound to anything. -/
theorem insert
    (typed : Typed bindings)
    {name : String}
    (legible : name ≠ receiverName ∧ name ≠ superclassName)
    (value : Value) :
    Typed (bindings.insert name value) := by
  refine ⟨?_, ?_⟩
  · intro found known
    rw [Bindings.get?_insert_of_ne _ legible.1] at known
    exact typed.receiver found known
  · intro found known
    rw [Bindings.get?_insert_of_ne _ legible.2] at known
    exact typed.superclass found known

theorem ofList
    {entries : List (String × Value)}
    (legible : ∀ entry ∈ entries, entry.1 ≠ receiverName ∧ entry.1 ≠ superclassName) :
    Typed (Bindings.ofList entries) := by
  refine ⟨?_, ?_⟩
  · intro value known
    exact absurd rfl (legible _ (Bindings.mem_of_get?_ofList known)).1
  · intro value known
    exact absurd rfl (legible _ (Bindings.mem_of_get?_ofList known)).2

theorem empty : Typed Bindings.empty := by
  have none : Typed (Bindings.ofList []) := ofList (by simp)
  exact none

theorem receiverScope (object : InstanceId) :
    Typed (Bindings.ofList [(receiverName, .instanceObject object)]) := by
  refine ⟨?_, ?_⟩
  · intro value known
    have member := Bindings.mem_of_get?_ofList known
    exact ⟨object, by simpa using member⟩
  · intro value known
    have member := Bindings.mem_of_get?_ofList known
    simp [receiverName, superclassName] at member

theorem superclassScope (parent : ClassId) :
    Typed (Bindings.ofList [(superclassName, .classObject parent)]) := by
  refine ⟨?_, ?_⟩
  · intro value known
    have member := Bindings.mem_of_get?_ofList known
    simp [receiverName, superclassName] at member
  · intro value known
    have member := Bindings.mem_of_get?_ofList known
    exact ⟨parent, by simpa using member⟩

end Typed

/-! ## Functions and methods -/

/-- A function that can run: its closure covers the place of its declaration. -/
def LiveFunction
    (distances : Distances)
    (resolved : Settlement → Prop)
    (heap : Heap)
    (function : Function) :
    Prop :=
  ∃ place role, Covers heap function.closure place none ∧
    function.declaration.Proper ∧
    AllSettled distances resolved (function.declaration.sites role place)

/-- A method that can run once there is a scope with `this` between its closure and it. -/
def LiveMethod
    (distances : Distances)
    (resolved : Settlement → Prop)
    (heap : Heap)
    (method : Function) :
    Prop :=
  ∃ place, Covers heap method.closure place none ∧
    method.declaration.Proper ∧
    AllSettled distances resolved
      (method.declaration.sites .method (place.holding receiverName))

/-- All methods of a class can run once they are bound. -/
def LiveClass
    (distances : Distances)
    (resolved : Settlement → Prop)
    (heap : Heap)
    (declared : Class) :
    Prop :=
  ∀ name method, declared.methods.get? name = some method →
    LiveMethod distances resolved heap method

/-- A heap in which everything that can run stands at a covered place. -/
structure Coherent (distances : Distances) (resolved : Settlement → Prop) (heap : Heap) : Prop where
  scopes :
    ∀ (id : ScopeId) scope, heap.scopes[id]? = some scope → Typed scope.bindings
  functions :
    ∀ (id : FunctionId) function, heap.functions[id]? = some function →
      LiveFunction distances resolved heap function
  classes :
    ∀ (id : ClassId) declared, heap.classes[id]? = some declared →
      LiveClass distances resolved heap declared

section

variable {distances : Distances} {resolved : Settlement → Prop} {heap after : Heap}

theorem LiveFunction.grows
    {function : Function}
    (live : LiveFunction distances resolved heap function)
    (grown : Grows heap after) :
    LiveFunction distances resolved after function := by
  obtain ⟨place, role, covers, rest⟩ := live
  exact ⟨place, role, covers.grows grown, rest⟩

theorem LiveClass.grows
    {declared : Class}
    (live : LiveClass distances resolved heap declared)
    (grown : Grows heap after) :
    LiveClass distances resolved after declared := by
  intro name method known
  obtain ⟨place, covers, rest⟩ := live name method known
  exact ⟨place, covers.grows grown, rest⟩

/-- A method is live in a scope above its closure that binds `this`. -/
theorem LiveMethod.bind
    {method : Function}
    (live : LiveMethod distances resolved heap method)
    (object : InstanceId) :
    LiveFunction distances resolved
      (heap.addScope
        ⟨Bindings.ofList [(receiverName, .instanceObject object)], some method.closure⟩)
      { method with closure := heap.scopes.size } := by
  obtain ⟨place, covers, proper, settled⟩ := live
  refine ⟨place.holding receiverName, .method, ?_, proper, settled⟩
  refine covers.addScope ?_
  intro name member
  obtain rfl := List.mem_singleton.mp member
  exact Bindings.contains_ofList (by simp)

/-! ## Growing resolution -/

section

variable {later : Distances} {further : Settlement → Prop}

/-- Sites stay settled if their occurrences stay resolved with their distances. -/
theorem AllSettled.of_resolution
    {sites : List Site}
    (settled : AllSettled distances resolved sites)
    (kept : ∀ settlement, resolved settlement →
      further settlement ∧
        later.get? settlement.id = distances.get? settlement.id) :
    AllSettled later further sites := by
  intro site member
  obtain ⟨faultless, sound, recorded⟩ := settled site member
  refine ⟨faultless, sound, fun id name known => ?_⟩
  obtain ⟨isResolved, distance⟩ := recorded id name known
  obtain ⟨isFurther, same⟩ := kept _ isResolved
  exact ⟨isFurther, same.trans distance⟩

/-- A heap stays coherent if the distances it relies on stay as they are. -/
theorem Coherent.of_resolution
    (coherent : Coherent distances resolved heap)
    (kept : ∀ settlement, resolved settlement →
      further settlement ∧
        later.get? settlement.id = distances.get? settlement.id) :
    Coherent later further heap where
  scopes := coherent.scopes
  functions := by
    intro id function known
    obtain ⟨place, role, covers, proper, settled⟩ := coherent.functions id function known
    exact ⟨place, role, covers, proper, settled.of_resolution kept⟩
  classes := by
    intro id declared known name method found
    obtain ⟨place, covers, proper, settled⟩ := coherent.classes id declared known name method found
    exact ⟨place, covers, proper, settled.of_resolution kept⟩

end

namespace Coherent

theorem empty : Coherent distances resolved Heap.empty := by
  refine ⟨?_, ?_, ?_⟩ <;> simp [Heap.empty]

/-- What is new in a heap has to be live; what was there before is. -/
theorem extend
    (coherent : Coherent distances resolved heap)
    (grown : Grows heap after)
    (scopes : ∀ (id : ScopeId) scope, after.scopes[id]? = some scope →
      Typed scope.bindings)
    (functions : ∀ (id : FunctionId) function, after.functions[id]? = some function →
      heap.functions[id]? = some function ∨ LiveFunction distances resolved after function)
    (classes : ∀ (id : ClassId) declared, after.classes[id]? = some declared →
      heap.classes[id]? = some declared ∨ LiveClass distances resolved after declared) :
    Coherent distances resolved after where
  scopes := scopes
  functions := by
    intro id function known
    rcases functions id function known with before | live
    · exact (coherent.functions id function before).grows grown
    · exact live
  classes := by
    intro id declared known
    rcases classes id declared known with before | live
    · exact (coherent.classes id declared before).grows grown
    · exact live

/-- Binding a legible name keeps a heap coherent. -/
theorem define
    (coherent : Coherent distances resolved heap)
    (scope : ScopeId)
    {name : String}
    (legible : name ≠ receiverName ∧ name ≠ superclassName)
    (value : Value) :
    Coherent distances resolved (heap.define scope name value) := by
  refine coherent.extend (Grows.define heap scope name value) ?_
    (fun _ _ known => .inl known) (fun _ _ known => .inl known)
  intro id found known
  simp only [Heap.define, Array.getElem?_modify] at known
  split at known
  · obtain ⟨before, table, rfl⟩ := Option.map_eq_some_iff.mp known
    exact (coherent.scopes id before table).insert legible value
  · exact coherent.scopes id found known

/-- A new scope with typed bindings keeps a heap coherent. -/
theorem addScope
    (coherent : Coherent distances resolved heap)
    {scope : Scope}
    (typed : Typed scope.bindings) :
    Coherent distances resolved (heap.addScope scope) := by
  refine coherent.extend (Grows.addScope heap scope) ?_
    (fun _ _ known => .inl known) (fun _ _ known => .inl known)
  intro id found known
  simp only [Heap.addScope, Array.getElem?_push] at known
  split at known
  · obtain rfl := Option.some.inj known
    exact typed
  · exact coherent.scopes id found known

/-- A new live function keeps a heap coherent. -/
theorem addFunction
    (coherent : Coherent distances resolved heap)
    {function : Function}
    (live : LiveFunction distances resolved heap function) :
    Coherent distances resolved (heap.addFunction function) := by
  have grown : Grows heap (heap.addFunction function) := .of_scopes rfl
  refine coherent.extend grown coherent.scopes ?_ (fun _ _ known => .inl known)
  intro id found known
  simp only [Heap.addFunction, Array.getElem?_push] at known
  split at known
  · obtain rfl := Option.some.inj known
    exact .inr (live.grows grown)
  · exact .inl known

/-- A new live class keeps a heap coherent. -/
theorem addClass
    (coherent : Coherent distances resolved heap)
    {declared : Class}
    (live : LiveClass distances resolved heap declared) :
    Coherent distances resolved (heap.addClass declared) := by
  have grown : Grows heap (heap.addClass declared) := .of_scopes rfl
  refine coherent.extend grown coherent.scopes (fun _ _ known => .inl known) ?_
  intro id found known
  simp only [Heap.addClass, Array.getElem?_push] at known
  split at known
  · obtain rfl := Option.some.inj known
    exact .inr (live.grows grown)
  · exact .inl known

theorem of_instances (coherent : Coherent distances resolved heap) (instances : Array Instance) :
    Coherent distances resolved { heap with instances := instances } :=
  coherent.extend (.of_scopes rfl) coherent.scopes (fun _ _ known => .inl known)
    (fun _ _ known => .inl known)

/-- A method that is found belongs to a class, so it is live. -/
theorem findMethod?
    (coherent : Coherent distances resolved heap)
    {classId : ClassId}
    {name : String}
    {method : Function}
    (found : heap.findMethod? classId name = some method) :
    LiveMethod distances resolved heap method := by
  obtain ⟨id, declared, -, known, own⟩ := Heap.exists_of_findMethod? (fun _ => True)
    (fun _ _ _ _ _ _ => trivial) trivial found
  exact coherent.classes id declared known name method own

end Coherent

end

end Lox.Execution
