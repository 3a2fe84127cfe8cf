import Lox.Proofs.Bindings
import Lox.Proofs.Execution.Tasks
import Mathlib.Logic.Relation

namespace Lox.Execution

/-!
# Regions of a heap

Scopes, functions, classes and instances refer to each other.  A region is a part of
a heap out of which nothing in it leads, and that leaves room for everything that is
still to be made.  What is reached from some roots is a region together with what does
not exist yet.
-/

/-- One thing in a heap. -/
inductive Entry where
  | scope (id : ScopeId)
  | function (id : FunctionId)
  | classObject (id : ClassId)
  | instanceObject (id : InstanceId)
  deriving Repr, DecidableEq

/-- The thing in the heap that a value is. -/
def Value.entry? : Value → Option Entry
  | .functionObject id => some (.function id)
  | .classObject id => some (.classObject id)
  | .instanceObject id => some (.instanceObject id)
  | _ => none

namespace Heap

/-- Whether a thing has been made. -/
def Has (heap : Heap) : Entry → Prop
  | .scope id => id < heap.scopes.size
  | .function id => id < heap.functions.size
  | .classObject id => id < heap.classes.size
  | .instanceObject id => id < heap.instances.size

/-- One thing in a heap refers to another one. -/
inductive Refers (heap : Heap) : Entry → Entry → Prop where
  | enclosing {id found outer} :
      heap.scopes[id]? = some found →
      found.enclosing = some outer →
      Refers heap (.scope id) (.scope outer)
  | bound {id found name value entry} :
      heap.scopes[id]? = some found →
      found.bindings.get? name = some value →
      value.entry? = some entry →
      Refers heap (.scope id) entry
  | closure {id function} :
      heap.functions[id]? = some function →
      Refers heap (.function id) (.scope function.closure)
  | superclass {id declared parent} :
      heap.classes[id]? = some declared →
      declared.superclass = some parent →
      Refers heap (.classObject id) (.classObject parent)
  | method {id declared name method} :
      heap.classes[id]? = some declared →
      declared.methods.get? name = some method →
      Refers heap (.classObject id) (.scope method.closure)
  | classOf {id made} :
      heap.instances[id]? = some made →
      Refers heap (.instanceObject id) (.classObject made.classId)
  | field {id made name value entry} :
      heap.instances[id]? = some made →
      made.fields.get? name = some value →
      value.entry? = some entry →
      Refers heap (.instanceObject id) entry

/-- What is reached from some roots. -/
def Reached (heap : Heap) (roots : List Entry) (entry : Entry) : Prop :=
  ∃ root ∈ roots, Relation.ReflTransGen heap.Refers root entry

/-- What is reached from some roots, or does not exist yet. -/
def ReachedOrNew (heap : Heap) (roots : List Entry) (entry : Entry) : Prop :=
  heap.Reached roots entry ∨ ¬ heap.Has entry

end Heap

/-- A part of a heap that nothing in it leads out of. -/
def Heap.Closed (heap : Heap) (region : Entry → Prop) : Prop :=
  ∀ entry other, region entry → heap.Refers entry other → region other

/-! ## Things in a region -/

/-- A value that is in a region, if it is in the heap at all. -/
def Value.In (region : Entry → Prop) (value : Value) : Prop :=
  ∀ entry, value.entry? = some entry → region entry

/-- Bindings to values in a region. -/
def BoundIn (region : Entry → Prop) (bindings : Bindings Value) : Prop :=
  ∀ name value, bindings.get? name = some value → value.In region

/-- A class with its superclass and the closures of its methods in a region. -/
structure Class.In (region : Entry → Prop) (declared : Class) : Prop where
  superclass : ∀ parent, declared.superclass = some parent → region (.classObject parent)
  methods :
    ∀ name method, declared.methods.get? name = some method → region (.scope method.closure)

/-- A part of a heap that nothing in it leads out of, and that has room for new things. -/
structure Region (region : Entry → Prop) (heap : Heap) : Prop where
  enclosing :
    ∀ (id : ScopeId) found outer, region (.scope id) → heap.scopes[id]? = some found →
      found.enclosing = some outer → region (.scope outer)
  scopes :
    ∀ (id : ScopeId) found, region (.scope id) → heap.scopes[id]? = some found →
      BoundIn region found.bindings
  functions :
    ∀ (id : FunctionId) function, region (.function id) →
      heap.functions[id]? = some function → region (.scope function.closure)
  classes :
    ∀ (id : ClassId) declared, region (.classObject id) →
      heap.classes[id]? = some declared → declared.In region
  instances :
    ∀ (id : InstanceId) made, region (.instanceObject id) →
      heap.instances[id]? = some made →
      region (.classObject made.classId) ∧ BoundIn region made.fields
  room : ∀ entry, ¬ heap.Has entry → region entry

section

variable {region : Entry → Prop}

theorem Value.in_of_none {value : Value} (apart : value.entry? = none) : value.In region := by
  intro entry known
  simp [apart] at known

/-- A value that is in the heap is in a region with its entry. -/
theorem Value.in_of_some
    {value : Value}
    {entry : Entry}
    (isEntry : value.entry? = some entry)
    (member : region entry) :
    value.In region := by
  intro other known
  rw [isEntry] at known
  obtain rfl := Option.some.inj known
  exact member

theorem Value.in_ofLiteral (literal : Literal) : (Value.ofLiteral literal).In region := by
  cases literal <;> exact Value.in_of_none rfl

namespace BoundIn

theorem empty : BoundIn region Bindings.empty := by
  intro name value found
  simp at found

/-- A value of the region may be bound beside others. -/
theorem insert
    {bindings : Bindings Value}
    (bound : BoundIn region bindings)
    {value : Value}
    (inRegion : value.In region)
    (name : String) :
    BoundIn region (bindings.insert name value) := by
  intro other found known
  rw [Bindings.get?_insert] at known
  split at known
  · obtain rfl := Option.some.inj known
    exact inRegion
  · exact bound other found known

/-- A list of bindings to values of the region makes a table of them. -/
theorem ofList
    {entries : List (String × Value)}
    (inRegion : ∀ entry ∈ entries, entry.2.In region) :
    BoundIn region (Bindings.ofList entries) :=
  fun _ _ known => inRegion _ (Bindings.mem_of_get?_ofList known)

end BoundIn

/-! ## Look-ups in a closed part -/

namespace Heap.Closed

variable {heap : Heap}

/-- What a scope of a closed region binds is in the region. -/
theorem getLocal?_in
    (closed : heap.Closed region)
    {scope : ScopeId}
    (member : region (.scope scope))
    {name : String}
    {value : Value}
    (found : heap.getLocal? scope name = some value) :
    value.In region := by
  obtain ⟨entry, table, bound⟩ := Option.bind_eq_some_iff.mp found
  exact fun other isEntry => closed _ other member (.bound table bound isEntry)

/-- The scopes around a scope of the part are in it. -/
theorem ancestor?_in
    (closed : heap.Closed region)
    {distance : Nat}
    {scope outer : ScopeId}
    (member : region (.scope scope))
    (above : heap.ancestor? distance scope = some outer) :
    region (.scope outer) := by
  induction distance generalizing scope with
  | zero =>
      obtain rfl : scope = outer := Option.some.inj above
      exact member
  | succ distance inductionHypothesis =>
      unfold Heap.ancestor? at above
      cases around : heap.enclosing? scope with
      | none => simp [around] at above
      | some next =>
          simp only [around] at above
          obtain ⟨found, table, isNext⟩ := Option.bind_eq_some_iff.mp around
          exact inductionHypothesis (closed _ _ member (.enclosing table isNext)) above

/-- What is bound some scopes away from a closed region is in the region. -/
theorem getAt?_in
    (closed : heap.Closed region)
    {scope : ScopeId}
    (member : region (.scope scope))
    {distance : Nat}
    {name : String}
    {value : Value}
    (found : heap.getAt? scope distance name = some value) :
    value.In region := by
  obtain ⟨outer, above, bound⟩ := Option.bind_eq_some_iff.mp found
  exact closed.getLocal?_in (closed.ancestor?_in member above) bound

/-- The methods that a class of the part has or inherits are closed over the part. -/
theorem findMethod?_in
    (closed : heap.Closed region)
    {classId : ClassId}
    (member : region (.classObject classId))
    {name : String}
    {method : Function}
    (found : heap.findMethod? classId name = some method) :
    region (.scope method.closure) := by
  obtain ⟨id, declared, inside, known, own⟩ := Heap.exists_of_findMethod?
    (fun id => region (.classObject id))
    (fun id _ _ inside known above => closed _ _ inside (.superclass known above)) member found
  exact closed _ _ inside (.method known own)

/-- The fields of instances of a closed region are in the region. -/
theorem getField?_in
    (closed : heap.Closed region)
    {object : InstanceId}
    (member : region (.instanceObject object))
    {name : String}
    {value : Value}
    (found : heap.getField? object name = some value) :
    value.In region := by
  obtain ⟨made, table, isField⟩ := Option.bind_eq_some_iff.mp found
  exact fun other isEntry => closed _ other member (.field table isField isEntry)

/-- The methods of instances of a closed region are closed over scopes of it. -/
theorem methodOf?_in
    (closed : heap.Closed region)
    {object : InstanceId}
    (member : region (.instanceObject object))
    {name : String}
    {method : Function}
    (found : heap.methodOf? object name = some method) :
    region (.scope method.closure) := by
  obtain ⟨made, table, inherited⟩ := Option.bind_eq_some_iff.mp found
  exact closed.findMethod?_in (closed _ _ member (.classOf table)) inherited

/-- Nothing in the part leads out of it, however far it is followed. -/
theorem follow
    (closed : heap.Closed region)
    {entry other : Entry}
    (member : region entry)
    (path : Relation.ReflTransGen heap.Refers entry other) :
    region other := by
  induction path with
  | refl => exact member
  | tail _ refers inductionHypothesis => exact closed _ _ inductionHypothesis refers

end Heap.Closed

/-! ## Regions of changed heaps -/

namespace Region

variable {heap : Heap}

/-- A new scope stands in the region, and so does all that it holds. -/
theorem addScope
    (holds : Region region heap)
    {bindings : Bindings Value}
    {enclosing : ScopeId}
    (bound : BoundIn region bindings)
    (around : region (.scope enclosing)) :
    Region region (heap.addScope ⟨bindings, some enclosing⟩) := by
  have table : ∀ (id : ScopeId) found,
      (heap.addScope ⟨bindings, some enclosing⟩).scopes[id]? = some found →
        found = ⟨bindings, some enclosing⟩ ∨ heap.scopes[id]? = some found := by
    intro id found known
    simp only [Heap.addScope, Array.getElem?_push] at known
    split at known
    · exact .inl (Option.some.inj known).symm
    · exact .inr known
  refine ⟨?_, ?_, holds.functions, holds.classes, holds.instances, ?_⟩
  · intro id found outer member known isOuter
    rcases table id found known with rfl | before
    · exact Option.some.inj isOuter ▸ around
    · exact holds.enclosing id found outer member before isOuter
  · intro id found member known
    rcases table id found known with rfl | before
    · exact bound
    · exact holds.scopes id found member before
  · intro entry missing
    refine holds.room entry fun has => missing ?_
    cases entry with
    | scope id =>
        simp only [Heap.Has, Heap.addScope, Array.size_push] at has ⊢
        exact Nat.lt_succ_of_lt has
    | _ => exact has

/-- A scope may be given a value of the region. -/
theorem define
    (holds : Region region heap)
    (scope : ScopeId)
    (name : String)
    {value : Value}
    (inRegion : value.In region) :
    Region region (heap.define scope name value) := by
  have table : ∀ (id : ScopeId) found,
      (heap.define scope name value).scopes[id]? = some found →
        ∃ before, heap.scopes[id]? = some before ∧ found.enclosing = before.enclosing ∧
          (found.bindings = before.bindings ∨
            found.bindings = before.bindings.insert name value) := by
    intro id found known
    simp only [Heap.define, Array.getElem?_modify] at known
    split at known
    · obtain ⟨before, isBefore, rfl⟩ := Option.map_eq_some_iff.mp known
      exact ⟨before, isBefore, rfl, .inr rfl⟩
    · exact ⟨found, known, rfl, .inl rfl⟩
  refine ⟨?_, ?_, holds.functions, holds.classes, holds.instances, ?_⟩
  · intro id found outer member known isOuter
    obtain ⟨before, isBefore, sameOuter, -⟩ := table id found known
    exact holds.enclosing id before outer member isBefore (sameOuter ▸ isOuter)
  · intro id found member known
    obtain ⟨before, isBefore, -, same | inserted⟩ := table id found known
    · exact same ▸ holds.scopes id before member isBefore
    · exact inserted ▸ (holds.scopes id before member isBefore).insert inRegion name
  · intro entry missing
    refine holds.room entry fun has => missing ?_
    cases entry with
    | scope id => simpa [Heap.Has, Heap.define] using has
    | _ => exact has

/-- A region grows by a function that is closed over one of its scopes. -/
theorem addFunction
    (holds : Region region heap)
    {function : Function}
    (closure : region (.scope function.closure)) :
    Region region (heap.addFunction function) := by
  refine ⟨holds.enclosing, holds.scopes, ?_, holds.classes, holds.instances, ?_⟩
  · intro id found member known
    simp only [Heap.addFunction, Array.getElem?_push] at known
    split at known
    · exact Option.some.inj known ▸ closure
    · exact holds.functions id found member known
  · intro entry missing
    refine holds.room entry fun has => missing ?_
    cases entry with
    | function id =>
        simp only [Heap.Has, Heap.addFunction, Array.size_push] at has ⊢
        exact Nat.lt_succ_of_lt has
    | _ => exact has

/-- A region grows by a class that refers to things of the region. -/
theorem addClass
    (holds : Region region heap)
    {declared : Class}
    (inRegion : declared.In region) :
    Region region (heap.addClass declared) := by
  refine ⟨holds.enclosing, holds.scopes, holds.functions, ?_, holds.instances, ?_⟩
  · intro id found member known
    simp only [Heap.addClass, Array.getElem?_push] at known
    split at known
    · exact Option.some.inj known ▸ inRegion
    · exact holds.classes id found member known
  · intro entry missing
    refine holds.room entry fun has => missing ?_
    cases entry with
    | classObject id =>
        simp only [Heap.Has, Heap.addClass, Array.size_push] at has ⊢
        exact Nat.lt_succ_of_lt has
    | _ => exact has

/-- A region grows by an instance of one of its classes. -/
theorem addInstance
    (holds : Region region heap)
    {classId : ClassId}
    (classOf : region (.classObject classId)) :
    Region region (heap.addInstance ⟨classId, Bindings.empty⟩) := by
  refine ⟨holds.enclosing, holds.scopes, holds.functions, holds.classes, ?_, ?_⟩
  · intro id found member known
    simp only [Heap.addInstance, Array.getElem?_push] at known
    split at known
    · exact Option.some.inj known ▸ ⟨classOf, .empty⟩
    · exact holds.instances id found member known
  · intro entry missing
    refine holds.room entry fun has => missing ?_
    cases entry with
    | instanceObject id =>
        simp only [Heap.Has, Heap.addInstance, Array.size_push] at has ⊢
        exact Nat.lt_succ_of_lt has
    | _ => exact has

/-- An instance may be given a value of the region. -/
theorem setField
    (holds : Region region heap)
    (object : InstanceId)
    (name : String)
    {value : Value}
    (inRegion : value.In region) :
    Region region (heap.setField object name value) := by
  refine ⟨holds.enclosing, holds.scopes, holds.functions, holds.classes, ?_, ?_⟩
  · intro id found member known
    simp only [Heap.setField, Array.getElem?_modify] at known
    split at known
    · obtain ⟨before, isBefore, rfl⟩ := Option.map_eq_some_iff.mp known
      obtain ⟨classOf, fields⟩ := holds.instances id before member isBefore
      exact ⟨classOf, fields.insert inRegion name⟩
    · exact holds.instances id found member known
  · intro entry missing
    refine holds.room entry fun has => missing ?_
    cases entry with
    | instanceObject id => simpa [Heap.Has, Heap.setField] using has
    | _ => exact has

/-- Nothing in a region leads out of it. -/
theorem closed (holds : Region region heap) : heap.Closed region := by
  intro entry other member refers
  cases refers with
  | enclosing known isOuter => exact holds.enclosing _ _ _ member known isOuter
  | bound known bound isEntry => exact holds.scopes _ _ member known _ _ bound _ isEntry
  | closure known => exact holds.functions _ _ member known
  | superclass known isParent => exact (holds.classes _ _ member known).superclass _ isParent
  | method known isMethod => exact (holds.classes _ _ member known).methods _ _ isMethod
  | classOf known => exact (holds.instances _ _ member known).1
  | field known isField isEntry =>
      exact (holds.instances _ _ member known).2 _ _ isField _ isEntry

end Region

end

/-! ## What is reached is a region -/

/-- Whatever refers to something is in the heap. -/
theorem Heap.has_of_refers
    {heap : Heap}
    {entry other : Entry}
    (refers : heap.Refers entry other) :
    heap.Has entry := by
  cases refers with
  | enclosing known _ => exact (Array.getElem?_eq_some_iff.mp known).1
  | bound known _ _ => exact (Array.getElem?_eq_some_iff.mp known).1
  | closure known => exact (Array.getElem?_eq_some_iff.mp known).1
  | superclass known _ => exact (Array.getElem?_eq_some_iff.mp known).1
  | method known _ => exact (Array.getElem?_eq_some_iff.mp known).1
  | classOf known => exact (Array.getElem?_eq_some_iff.mp known).1
  | field known _ _ => exact (Array.getElem?_eq_some_iff.mp known).1

/-- What is reached from some roots is closed. -/
theorem Heap.closed_reached (heap : Heap) (roots : List Entry) :
    heap.Closed (heap.Reached roots) := by
  rintro entry other ⟨root, isRoot, path⟩ refers
  exact ⟨root, isRoot, path.tail refers⟩

/-- What is referred to by something reached or new is reached or new. -/
theorem Heap.ReachedOrNew.refers
    {heap : Heap}
    {roots : List Entry}
    {entry other : Entry}
    (member : heap.ReachedOrNew roots entry)
    (refers : heap.Refers entry other) :
    heap.ReachedOrNew roots other := by
  rcases member with reached | missing
  · obtain ⟨root, isRoot, path⟩ := reached
    exact .inl ⟨root, isRoot, path.tail refers⟩
  · exact absurd (has_of_refers refers) missing

/-- What is reached from some roots or does not exist yet is a region. -/
theorem Heap.region_of_roots (heap : Heap) (roots : List Entry) :
    Region (heap.ReachedOrNew roots) heap where
  enclosing _ _ _ member known isOuter := member.refers (.enclosing known isOuter)
  scopes _ _ member known _ _ bound _ isEntry := member.refers (.bound known bound isEntry)
  functions _ _ member known := member.refers (.closure known)
  classes _ _ member known :=
    ⟨fun _ isParent => member.refers (.superclass known isParent),
      fun _ _ isMethod => member.refers (.method known isMethod)⟩
  instances _ _ member known :=
    ⟨member.refers (.classOf known),
      fun _ _ isField _ isEntry => member.refers (.field known isField isEntry)⟩
  room _ missing := .inr missing

end Lox.Execution
