import Lox.Proofs.Execution.Courses

namespace Lox.Execution

/-!
# Nothing refers to what has not been made

Each change of a heap adds references from one thing only.  So an act makes nothing refer
to anything but what it takes, the current scope, or what it makes; and as whatever an act
takes has been reached, it has been made before.
-/

/-! ## What a changed heap has -/

namespace Heap

variable {heap : Heap} {entry : Entry}

@[simp] theorem has_addScope (scope : Scope) :
    (heap.addScope scope).Has entry ↔ heap.Has entry ∨ entry = .scope heap.scopes.size := by
  cases entry with
  | scope id =>
      simp only [Has, addScope, Array.size_push, Entry.scope.injEq]
      exact Nat.lt_succ_iff_lt_or_eq
  | _ => simp [Has, addScope]

@[simp] theorem has_define (scope : ScopeId) (name : String) (value : Value) :
    (heap.define scope name value).Has entry ↔ heap.Has entry := by
  cases entry <;> simp [Has, define]

@[simp] theorem has_addFunction (function : Function) :
    (heap.addFunction function).Has entry ↔
      heap.Has entry ∨ entry = .function heap.functions.size := by
  cases entry with
  | function id =>
      simp only [Has, addFunction, Array.size_push, Entry.function.injEq]
      exact Nat.lt_succ_iff_lt_or_eq
  | _ => simp [Has, addFunction]

@[simp] theorem has_addClass (declared : Class) :
    (heap.addClass declared).Has entry ↔
      heap.Has entry ∨ entry = .classObject heap.classes.size := by
  cases entry with
  | classObject id =>
      simp only [Has, addClass, Array.size_push, Entry.classObject.injEq]
      exact Nat.lt_succ_iff_lt_or_eq
  | _ => simp [Has, addClass]

@[simp] theorem has_addInstance (created : Instance) :
    (heap.addInstance created).Has entry ↔
      heap.Has entry ∨ entry = .instanceObject heap.instances.size := by
  cases entry with
  | instanceObject id =>
      simp only [Has, addInstance, Array.size_push, Entry.instanceObject.injEq]
      exact Nat.lt_succ_iff_lt_or_eq
  | _ => simp [Has, addInstance]

@[simp] theorem has_setField (object : InstanceId) (name : String) (value : Value) :
    (heap.setField object name value).Has entry ↔ heap.Has entry := by
  cases entry <;> simp [Has, setField]

@[simp] theorem has_withReceiver (method : Function) (object : InstanceId) :
    (heap.withReceiver method object).Has entry ↔
      heap.Has entry ∨ entry = .scope heap.scopes.size :=
  has_addScope _

@[simp] theorem functions_withReceiver (method : Function) (object : InstanceId) :
    (heap.withReceiver method object).functions = heap.functions :=
  rfl

/-- The scope over which the methods of a class are closed is the current one or a new one. -/
theorem has_withSuperclass (scope : ScopeId) (parent : Option ClassId) :
    (heap.withSuperclass scope parent).1.Has entry ↔
      heap.Has entry ∨
        parent.isSome ∧ entry = .scope (heap.withSuperclass scope parent).2 := by
  cases parent <;> simp [withSuperclass]

end Heap

/-! ## References in a changed heap -/

namespace Heap.Refers

variable {heap : Heap} {entry other : Entry}

/-- A new scope refers to the scope around it and to what it binds. -/
theorem of_addScope
    {scope : Scope}
    (refers : (heap.addScope scope).Refers entry other) :
    heap.Refers entry other ∨
      entry = .scope heap.scopes.size ∧
        ((∃ outer, scope.enclosing = some outer ∧ other = .scope outer) ∨
          ∃ name value, scope.bindings.get? name = some value ∧ value.entry? = some other) := by
  cases refers with
  | enclosing known isOuter =>
      simp only [addScope, Array.getElem?_push] at known
      split at known
      next new =>
        obtain rfl := Option.some.inj known
        exact .inr ⟨congrArg _ new, .inl ⟨_, isOuter, rfl⟩⟩
      · exact .inl (.enclosing known isOuter)
  | bound known bound isEntry =>
      simp only [addScope, Array.getElem?_push] at known
      split at known
      next new =>
        obtain rfl := Option.some.inj known
        exact .inr ⟨congrArg _ new, .inr ⟨_, _, bound, isEntry⟩⟩
      · exact .inl (.bound known bound isEntry)
  | _ => exact .inl (by constructor <;> assumption)

/-- A binding makes its scope refer to the bound value, and changes nothing else. -/
theorem of_define
    {scope : ScopeId}
    {name : String}
    {value : Value}
    (refers : (heap.define scope name value).Refers entry other) :
    heap.Refers entry other ∨ entry = .scope scope ∧ value.entry? = some other := by
  cases refers with
  | enclosing known isOuter =>
      simp only [define, Array.getElem?_modify] at known
      split at known
      · obtain ⟨before, isBefore, rfl⟩ := Option.map_eq_some_iff.mp known
        exact .inl (.enclosing isBefore isOuter)
      · exact .inl (.enclosing known isOuter)
  | bound known bound isEntry =>
      simp only [define, Array.getElem?_modify] at known
      split at known
      next same =>
        obtain ⟨before, isBefore, rfl⟩ := Option.map_eq_some_iff.mp known
        rw [Bindings.get?_insert] at bound
        split at bound
        · obtain rfl := Option.some.inj bound
          exact .inr ⟨congrArg _ same.symm, isEntry⟩
        · exact .inl (.bound isBefore bound isEntry)
      · exact .inl (.bound known bound isEntry)
  | _ => exact .inl (by constructor <;> assumption)

/-- A new function refers to the scope that it is closed over. -/
theorem of_addFunction
    {function : Function}
    (refers : (heap.addFunction function).Refers entry other) :
    heap.Refers entry other ∨
      entry = .function heap.functions.size ∧ other = .scope function.closure := by
  cases refers with
  | closure known =>
      simp only [addFunction, Array.getElem?_push] at known
      split at known
      next new =>
        obtain rfl := Option.some.inj known
        exact .inr ⟨congrArg _ new, rfl⟩
      · exact .inl (.closure known)
  | _ => exact .inl (by constructor <;> assumption)

/-- A new class refers to its superclass and to the scopes of its methods. -/
theorem of_addClass
    {declared : Class}
    (refers : (heap.addClass declared).Refers entry other) :
    heap.Refers entry other ∨
      entry = .classObject heap.classes.size ∧
        ((∃ parent, declared.superclass = some parent ∧ other = .classObject parent) ∨
          ∃ name method, declared.methods.get? name = some method ∧
            other = .scope method.closure) := by
  cases refers with
  | superclass known isParent =>
      simp only [addClass, Array.getElem?_push] at known
      split at known
      next new =>
        obtain rfl := Option.some.inj known
        exact .inr ⟨congrArg _ new, .inl ⟨_, isParent, rfl⟩⟩
      · exact .inl (.superclass known isParent)
  | method known isMethod =>
      simp only [addClass, Array.getElem?_push] at known
      split at known
      next new =>
        obtain rfl := Option.some.inj known
        exact .inr ⟨congrArg _ new, .inr ⟨_, _, isMethod, rfl⟩⟩
      · exact .inl (.method known isMethod)
  | _ => exact .inl (by constructor <;> assumption)

/-- A new instance refers to its class. -/
theorem of_addInstance
    {classId : ClassId}
    (refers : (heap.addInstance ⟨classId, Bindings.empty⟩).Refers entry other) :
    heap.Refers entry other ∨
      entry = .instanceObject heap.instances.size ∧ other = .classObject classId := by
  cases refers with
  | classOf known =>
      simp only [addInstance, Array.getElem?_push] at known
      split at known
      next new =>
        obtain rfl := Option.some.inj known
        exact .inr ⟨congrArg _ new, rfl⟩
      · exact .inl (.classOf known)
  | field known isField isEntry =>
      simp only [addInstance, Array.getElem?_push] at known
      split at known
      · obtain rfl := Option.some.inj known
        simp at isField
      · exact .inl (.field known isField isEntry)
  | _ => exact .inl (by constructor <;> assumption)

/-- A field makes its instance refer to the value, and changes nothing else. -/
theorem of_setField
    {object : InstanceId}
    {name : String}
    {value : Value}
    (refers : (heap.setField object name value).Refers entry other) :
    heap.Refers entry other ∨
      entry = .instanceObject object ∧ value.entry? = some other := by
  cases refers with
  | classOf known =>
      simp only [setField, Array.getElem?_modify] at known
      split at known
      · obtain ⟨before, isBefore, rfl⟩ := Option.map_eq_some_iff.mp known
        have before := Heap.Refers.classOf isBefore
        exact .inl before
      · exact .inl (.classOf known)
  | field known isField isEntry =>
      simp only [setField, Array.getElem?_modify] at known
      split at known
      next same =>
        obtain ⟨before, isBefore, rfl⟩ := Option.map_eq_some_iff.mp known
        rw [Bindings.get?_insert] at isField
        split at isField
        · obtain rfl := Option.some.inj isField
          exact .inr ⟨congrArg _ same.symm, isEntry⟩
        · exact .inl (.field isBefore isField isEntry)
      · exact .inl (.field known isField isEntry)
  | _ => exact .inl (by constructor <;> assumption)

/-- A scope for a receiver refers to the receiver and to the scope around the method. -/
theorem of_withReceiver
    {method : Function}
    {object : InstanceId}
    (refers : (heap.withReceiver method object).Refers entry other) :
    heap.Refers entry other ∨ other = .scope method.closure ∨ other = .instanceObject object := by
  rcases refers.of_addScope with before | ⟨-, ⟨outer, isOuter, rfl⟩ | ⟨name, value, bound, isEntry⟩⟩
  · exact .inl before
  · obtain rfl := Option.some.inj isOuter
    exact .inr (.inl rfl)
  · obtain ⟨rfl, rfl⟩ : name = receiverName ∧ value = .instanceObject object := by
      simpa using Bindings.mem_of_get?_ofList bound
    exact .inr (.inr (Option.some.inj isEntry).symm)

/-- The scope over which the methods of a class are closed is the current one or a new one. -/
theorem of_withSuperclass
    {scope : ScopeId}
    {parent : Option ClassId}
    (refers : (heap.withSuperclass scope parent).1.Refers entry other) :
    heap.Refers entry other ∨ other = .scope scope ∨
      ∃ id, parent = some id ∧ other = .classObject id := by
  cases parent with
  | none => exact .inl refers
  | some id =>
      rcases refers.of_addScope with
        before | ⟨-, ⟨outer, isOuter, rfl⟩ | ⟨name, value, bound, isEntry⟩⟩
      · exact .inl before
      · obtain rfl := Option.some.inj isOuter
        exact .inr (.inl rfl)
      · obtain ⟨rfl, rfl⟩ : name = superclassName ∧ value = .classObject id := by
          simpa using Bindings.mem_of_get?_ofList bound
        exact .inr (.inr ⟨id, rfl, (Option.some.inj isEntry).symm⟩)

end Heap.Refers

/-- A method in the table of a class is one of its declarations, closed over its scope. -/
theorem mem_of_get?_methodTable
    {closure : ScopeId}
    {methods : List FunctionDeclaration}
    {name : String}
    {method : Function}
    (found : (methodTable closure methods).get? name = some method) :
    method.closure = closure ∧ method.declaration ∈ methods ∧
      method.declaration.name.text = name := by
  have member := Bindings.mem_of_get?_ofList found
  obtain ⟨declaration, isMethod, same⟩ := List.mem_map.mp member
  obtain ⟨rfl, rfl⟩ := Prod.mk.inj same
  exact ⟨rfl, isMethod, rfl⟩

/-! ## References after an act -/

namespace Act

variable {state : State} {entry other : Entry}

/-- Nothing that has been made goes away. -/
theorem has_result (act : Act) (has : state.heap.Has entry) :
    (act.result state).heap.Has entry := by
  cases act with
  | declareClass name parent methods =>
      simp [result, Heap.withClass, Heap.has_withSuperclass, has]
  | _ => simp [result, State.define, has]

/-- A class leads to its superclass, to the scope around it, or to new things. -/
theorem refers_withClass
    {heap : Heap}
    {scope : ScopeId}
    {name : String}
    {parent : Option ClassId}
    {methods : List FunctionDeclaration}
    (refers : (heap.withClass scope name parent methods).Refers entry other) :
    heap.Refers entry other ∨ (∃ id, parent = some id ∧ other = .classObject id) ∨
      other = .scope scope ∨
        ¬ heap.Has other ∧ (heap.withClass scope name parent methods).Has other := by
  rcases refers.of_define with declaring | ⟨-, isClass⟩
  · rcases declaring.of_addClass with around | ⟨-, ⟨id, rfl, rfl⟩ | ⟨_, method, isMethod, rfl⟩⟩
    · rcases around.of_withSuperclass with before | rfl | found
      · rcases before.of_define with before | ⟨-, isEntry⟩
        · exact .inl before
        · cases isEntry
      · exact .inr (.inr (.inl rfl))
      · exact .inr (.inl found)
    · exact .inr (.inl ⟨id, rfl, rfl⟩)
    · rw [(mem_of_get?_methodTable isMethod).1]
      cases parent with
      | none => exact .inr (.inr (.inl rfl))
      | some id =>
          exact .inr (.inr (.inr (by
            simp [Heap.withClass, Heap.withSuperclass, Heap.Has, Heap.define, Heap.addClass,
              Heap.addScope])))
  · obtain rfl := Option.some.inj isClass
    refine .inr (.inr (.inr ?_))
    cases parent <;>
      simp [Heap.withClass, Heap.withSuperclass, Heap.Has, Heap.define, Heap.addClass,
        Heap.addScope]

/--
What an act makes something refer to is what it takes, the current scope, or new.
-/
theorem refers_result
    {act : Act}
    (refers : (act.result state).heap.Refers entry other) :
    state.heap.Refers entry other ∨ other ∈ act.uses ∨ other = .scope state.scope ∨
      ¬ state.heap.Has other ∧ (act.result state).heap.Has other := by
  cases act with
  | define scope name value =>
      rcases refers.of_define with before | ⟨-, isEntry⟩
      · exact .inl before
      · exact .inr (.inl (by simp [uses, isEntry]))
  | setField object name value =>
      rcases refers.of_setField with before | ⟨-, isEntry⟩
      · exact .inl before
      · exact .inr (.inl (by simp [uses, isEntry]))
  | print text => exact .inl refers
  | readClock => exact .inl refers
  | bind method object =>
      rcases refers.of_addFunction with before | ⟨-, rfl⟩
      · rcases before.of_withReceiver with before | rfl | rfl
        · exact .inl before
        · exact .inr (.inl (by simp [uses]))
        · exact .inr (.inl (by simp [uses]))
      · exact .inr (.inr (.inr (by
          simp [result, Heap.Has, Heap.withReceiver, Heap.addScope, Heap.addFunction])))
  | declareFunction declaration =>
      rcases refers.of_define with before | ⟨-, isEntry⟩
      · rcases before.of_addFunction with before | ⟨-, rfl⟩
        · exact .inl before
        · exact .inr (.inr (.inl rfl))
      · obtain rfl := Option.some.inj isEntry
        exact .inr (.inr (.inr (by simp [result, Heap.Has, Heap.addFunction, Heap.define])))
  | declareClass name parent methods =>
      rcases refers_withClass refers with before | ⟨id, rfl, rfl⟩ | rfl | new
      · exact .inl before
      · exact .inr (.inl (by simp [uses]))
      · exact .inr (.inr (.inl rfl))
      · exact .inr (.inr (.inr new))
  | enterBlock =>
      rcases refers.of_addScope with before | ⟨-, ⟨outer, isOuter, rfl⟩ | ⟨_, _, bound, -⟩⟩
      · exact .inl before
      · obtain rfl := Option.some.inj isOuter
        exact .inr (.inr (.inl rfl))
      · simp at bound
  | activate function arguments =>
      rcases refers.of_addScope with
        before | ⟨-, ⟨outer, isOuter, rfl⟩ | ⟨_, value, bound, isEntry⟩⟩
      · exact .inl before
      · obtain rfl := Option.some.inj isOuter
        exact .inr (.inl (by simp [uses]))
      · have isArgument := (List.of_mem_zip (Bindings.mem_of_get?_ofList bound)).2
        exact .inr (.inl (List.mem_cons_of_mem _
          (List.mem_filterMap.mpr ⟨value, isArgument, isEntry⟩)))
  | leave scope => exact .inl refers
  | construct classId =>
      rcases refers.of_addInstance with before | ⟨-, rfl⟩
      · exact .inl before
      · exact .inr (.inl (by simp [uses]))
  | receive method object =>
      rcases refers.of_withReceiver with before | rfl | rfl
      · exact .inl before
      · exact .inr (.inl (by simp [uses]))
      · exact .inr (.inl (by simp [uses]))

end Act

/-! ## Whole heaps -/

/-- Nothing in a heap refers to what has not been made. -/
def Heap.Whole (heap : Heap) : Prop :=
  heap.Closed heap.Has

/-- A run in a whole heap that has got hold of nothing that has not been made. -/
structure Progress.Whole (progress : Progress) : Prop where
  heap : progress.state.heap.Whole
  known : ∀ entry ∈ progress.known, progress.state.heap.Has entry

section

variable {root : Task} {start : State} {progress : Progress} {entry : Entry}

/-- What is reached from what is known is in the heap. -/
theorem Progress.Whole.has_of_reached
    (whole : progress.Whole)
    (reached : progress.state.heap.Reached progress.known entry) :
    progress.state.heap.Has entry := by
  obtain ⟨first, isKnown, path⟩ := reached
  exact whole.heap.follow (whole.known first isKnown) path

/-- What an act gives has been made by it. -/
theorem Act.has_gives {act : Act} {state : State} (given : entry ∈ act.gives state) :
    (act.result state).heap.Has entry := by
  cases act <;> simp [gives] at given <;> subst given <;> simp [result]

/-- A course that begins in a whole heap stays in whole heaps. -/
theorem Course.whole
    (course : Course root start progress)
    (heap : start.heap.Whole)
    (roots : ∀ entry ∈ root.roots start, start.heap.Has entry) :
    progress.Whole := by
  induction course with
  | begin => exact ⟨heap, roots⟩
  | learn _ reached inductionHypothesis =>
      exact ⟨inductionHypothesis.heap,
        List.forall_mem_cons.mpr
          ⟨inductionHypothesis.has_of_reached reached, inductionHypothesis.known⟩⟩
  | @act progress task begun act course _ _ atHand inductionHypothesis =>
      have scope := inductionHypothesis.has_of_reached course.reached_scope
      refine ⟨fun first other has refers => ?_, fun entry isKnown => ?_⟩
      · rcases Act.refers_result refers with before | taken | rfl | new
        · exact act.has_result
            (inductionHypothesis.heap _ _ (Heap.has_of_refers before) before)
        · exact act.has_result (inductionHypothesis.has_of_reached (atHand.reached _ taken))
        · exact act.has_result scope
        · exact new.2
      · rcases List.mem_append.mp isKnown with given | before
        · exact Act.has_gives given
        · exact act.has_result (inductionHypothesis.known entry before)

end

end Lox.Execution
