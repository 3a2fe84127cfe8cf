import Lox.Proofs.Execution.CourseRuns
import Lox.Proofs.Execution.References
import Lox.Proofs.Execution.Restoration
import Mathlib.Data.List.Forall2

namespace Lox.Execution

/-!
# The hierarchy of classes, and what instances find in it

A class is made after its superclass, whatever names lead to either of them, so no chain of
superclasses comes back to where it was.  What the methods of a class are is decided by the
declaration that made it, and what the fields of an instance are by what was set last.
Both are read off the acts of a session.
-/

/-! ## Histories -/

/--
The states that a series of programs comes by, each with the acts until then.  Before a
program is run, distances of occurrences may be settled in any way.
-/
inductive Visited (clock : Clock) : List Act → State → Prop where
  | start : Visited clock [] (State.initial clock)
  | settled {history state} (distances : Distances) :
      Visited clock history state →
      Visited clock history { state with distances := distances }
  | underway {history state root progress} :
      Visited clock history state →
      root.handed = [] →
      Course root state progress →
      Visited clock (history ++ progress.acts) progress.state

/-- What the declaration of a class says, with the class that its superclass clause named. -/
structure ClassDeclaration where
  name : String
  parent : Option ClassId
  methods : List FunctionDeclaration

/-- The last method of a name in the body of a class. -/
def ClassDeclaration.method?
    (declaration : ClassDeclaration)
    (name : String) :
    Option FunctionDeclaration :=
  declaration.methods.reverse.find? (·.name.text = name)

/-- The class that an act declares. -/
def Act.classDeclared? : Act → Option ClassDeclaration
  | .declareClass name parent methods => some ⟨name, parent, methods⟩
  | _ => none

/-- The value that an act sets a field of an instance to. -/
def Act.fieldSet? (object : InstanceId) (name : String) : Act → Option Value
  | .setField owner field value => if owner = object ∧ field = name then some value else none
  | _ => none

/-- The value that a field of an instance was set to last. -/
def lastSet? (history : List Act) (object : InstanceId) (name : String) : Option Value :=
  history.reverse.findSome? (·.fieldSet? object name)

/-- A class is as its declaration says, and its methods are closed over one scope. -/
structure ClassDeclaration.Makes (declaration : ClassDeclaration) (made : Class) : Prop where
  name : made.name = declaration.name
  superclass : made.superclass = declaration.parent
  methods :
    ∃ closure, ∀ name,
      made.methods.get? name =
        (declaration.method? name).map (⟨·, closure, name = constructorName⟩)

namespace Heap

/-- The chain of a class: the class, its superclass, and so on to one that has none. -/
inductive Lineage (heap : Heap) : ClassId → List ClassId → Prop where
  | base {id made} :
      heap.classes[id]? = some made →
      made.superclass = none →
      Lineage heap id [id]
  | derived {id made parent ancestors} :
      heap.classes[id]? = some made →
      made.superclass = some parent →
      Lineage heap parent ancestors →
      Lineage heap id (id :: ancestors)

/-- The method that a class has itself. -/
def ownMethod? (heap : Heap) (id : ClassId) (name : String) : Option Function :=
  heap.classes[id]?.bind (·.methods.get? name)

end Heap

/--
What a heap owes to the acts that have made it: nothing in it leads to what has not been
made, its classes are those that were declared, in this order, their chains end without
coming back, and look-ups find the nearest method and the last value.
-/
structure Recorded (history : List Act) (state : State) : Prop where
  whole : state.heap.Closed state.heap.Has
  classes :
    List.Forall₂ ClassDeclaration.Makes (history.filterMap Act.classDeclared?)
      state.heap.classes.toList
  acyclic :
    ∀ id, state.heap.Has (.classObject id) → ∃ ids, state.heap.Lineage id ids ∧ ids.Nodup
  methods :
    ∀ id ids name, state.heap.Lineage id ids →
      state.heap.findMethod? id name = ids.findSome? (state.heap.ownMethod? · name)
  properties :
    ∀ (object : InstanceId) made (name : Identifier),
      state.heap.instances[object]? = some made →
        readProperty object name state =
          match lastSet? history object name.text with
          | some value => .ok value state
          | none =>
              match state.heap.findMethod? made.classId name.text with
              | some method =>
                  .ok (.functionObject state.heap.functions.size)
                    ((Act.bind method object).result state)
              | none => .error (.error (.undefinedProperty name)) state

/-! ## The last method of a name -/

/-- Of two methods with one name the later counts. -/
theorem get?_methodTable (closure : ScopeId) (methods : List FunctionDeclaration) (name : String) :
    (methodTable closure methods).get? name =
      (methods.reverse.find? (·.name.text = name)).map
        (⟨·, closure, name = constructorName⟩) := by
  unfold methodTable
  rw [Bindings.get?_ofList, ← List.map_reverse, List.find?_map, Option.map_map]
  change Option.map _ (methods.reverse.find? (·.name.text = name)) = _
  cases found : methods.reverse.find? (·.name.text = name) with
  | none => rfl
  | some declaration =>
      obtain rfl : declaration.name.text = name := by simpa using List.find?_some found
      rfl

/-! ## What an act does to classes and fields -/

section

variable {state : State} {history : List Act}

/-- An act declares one class, which is as the declaration says, or leaves the classes alone. -/
theorem Act.classes_result (act : Act) (state : State) :
    act.classDeclared? = none ∧ (act.result state).heap.classes = state.heap.classes ∨
      ∃ declaration made, act.classDeclared? = some declaration ∧ declaration.Makes made ∧
        (act.result state).heap.classes = state.heap.classes.push made := by
  cases act with
  | declareClass name parent methods =>
      let around := (state.heap.define state.scope name .nil).withSuperclass state.scope parent
      refine .inr ⟨⟨name, parent, methods⟩, ⟨name, parent, methodTable around.2 methods⟩, rfl,
        ⟨rfl, rfl, around.2, get?_methodTable around.2 methods⟩, ?_⟩
      cases parent <;> rfl
  | _ => exact .inl ⟨rfl, rfl⟩

/-- A field has the value that an act sets it to, or else the one it had. -/
theorem Act.getField?_result
    {act : Act}
    (taken : ∀ entry ∈ act.uses, state.heap.Has entry)
    (object : InstanceId)
    (name : String) :
    (act.result state).heap.getField? object name =
      (act.fieldSet? object name).or (state.heap.getField? object name) := by
  cases act with
  | setField owner field value =>
      have has : owner < state.heap.instances.size := taken (.instanceObject owner) (by simp [uses])
      simp only [result, fieldSet?, Heap.getField?, Heap.setField, Array.getElem?_modify]
      by_cases same : owner = object
      · subst same
        rw [if_pos rfl, Array.getElem?_eq_getElem has]
        by_cases named : field = name <;> simp [named, Bindings.get?_insert]
      · simp [same]
  | construct classId =>
      simp only [result, fieldSet?, Heap.getField?, Heap.addInstance, Array.getElem?_push]
      split
      next new => simp [new]
      · rfl
  | declareClass name parent methods => cases parent <;> rfl
  | _ => rfl

theorem lastSet?_append (act : Act) (object : InstanceId) (name : String) :
    lastSet? (history ++ [act]) object name =
      (act.fieldSet? object name).or (lastSet? history object name) := by
  unfold lastSet?
  rw [List.reverse_append]
  simp only [List.reverse_singleton, List.singleton_append, List.findSome?_cons]
  cases act.fieldSet? object name <;> rfl

/-- What every act keeps of the classes and the instances. -/
structure Ordered (history : List Act) (heap : Heap) : Prop where
  classes :
    List.Forall₂ ClassDeclaration.Makes (history.filterMap Act.classDeclared?)
      heap.classes.toList
  superclasses :
    ∀ (id : ClassId) made parent, heap.classes[id]? = some made →
      made.superclass = some parent → parent < id
  fields : ∀ object name, heap.getField? object name = lastSet? history object name

/-- As a class takes a superclass that has been made, it comes behind it. -/
theorem Ordered.act
    {act : Act}
    (ordered : Ordered history state.heap)
    (taken : ∀ entry ∈ act.uses, state.heap.Has entry) :
    Ordered (history ++ [act]) (act.result state).heap where
  classes := by
    rw [List.filterMap_append]
    rcases act.classes_result state with
      ⟨nothing, same⟩ | ⟨declaration, made, declares, makes, same⟩
    · simpa [nothing, same] using ordered.classes
    · simpa [declares, same] using List.rel_append ordered.classes (.cons makes .nil)
  superclasses id made parent known isParent := by
    rcases act.classes_result state with ⟨-, same⟩ | ⟨declaration, added, declares, makes, same⟩
    · exact ordered.superclasses id made parent (same ▸ known) isParent
    rw [same, Array.getElem?_push] at known
    split at known
    next new =>
      obtain rfl := Option.some.inj known
      have named : declaration.parent = some parent := makes.superclass.symm.trans isParent
      have has : state.heap.Has (.classObject parent) := by
        refine taken _ ?_
        cases act with
        | declareClass name superclass methods =>
            obtain rfl := Option.some.inj declares
            simp [Act.uses, show superclass = some parent from named]
        | _ => cases declares
      rw [new]
      exact has
    · exact ordered.superclasses id made parent known isParent
  fields object name := by
    rw [Act.getField?_result taken, lastSet?_append, ordered.fields]

theorem Course.ordered
    {root : Task}
    {start : State}
    {progress : Progress}
    (course : Course root start progress)
    (heap : start.heap.Whole)
    (roots : ∀ entry ∈ root.roots start, start.heap.Has entry)
    (ordered : Ordered history start.heap) :
    Ordered (history ++ progress.acts) progress.state.heap := by
  induction course with
  | begin => simpa using ordered
  | learn _ _ inductionHypothesis => exact inductionHypothesis
  | act course _ _ atHand inductionHypothesis =>
      have whole := course.whole heap roots
      simpa [Progress.after] using inductionHypothesis.act
        fun entry taken => whole.has_of_reached (atHand.reached entry taken)

end

/-! ## Chains -/

section

variable {heap : Heap} {id : ClassId} {ids : List ClassId}

/-- Where superclasses come first, a chain goes down, and so it repeats no class. -/
theorem Heap.Lineage.descends
    (lineage : heap.Lineage id ids)
    (ordered : ∀ (id : ClassId) made parent, heap.classes[id]? = some made →
      made.superclass = some parent → parent < id) :
    (∀ ancestor ∈ ids, ancestor ≤ id) ∧ ids.Nodup ∧ ids.length ≤ id + 1 := by
  induction lineage with
  | base => simp
  | @derived id made parent ancestors known isParent _ inductionHypothesis =>
      obtain ⟨bound, distinct, short⟩ := inductionHypothesis
      have less := ordered id made parent known isParent
      have below : ∀ ancestor ∈ ancestors, ancestor < id := fun ancestor member =>
        Nat.lt_of_le_of_lt (bound ancestor member) less
      refine ⟨List.forall_mem_cons.mpr ⟨Nat.le_refl id, fun ancestor member => ?_⟩, ?_, ?_⟩
      · exact Nat.le_of_lt (below ancestor member)
      · exact List.nodup_cons.mpr ⟨fun member => Nat.lt_irrefl id (below id member), distinct⟩
      · exact Nat.succ_le_succ (Nat.le_trans short less)

theorem Heap.exists_lineage
    (ordered : ∀ (id : ClassId) made parent, heap.classes[id]? = some made →
      made.superclass = some parent → parent < id)
    (has : heap.Has (.classObject id)) :
    ∃ ids, heap.Lineage id ids := by
  induction id using Nat.strongRecOn with
  | ind id inductionHypothesis =>
      have known : heap.classes[id]? = some _ := Array.getElem?_eq_getElem has
      cases isParent : heap.classes[id].superclass with
      | none => exact ⟨_, .base known isParent⟩
      | some parent =>
          have less := ordered id _ parent known isParent
          obtain ⟨ids, lineage⟩ := inductionHypothesis parent less (Nat.lt_trans less has)
          exact ⟨_, .derived known isParent lineage⟩

/-- A search through a chain with enough fuel finds what the nearest class has. -/
theorem Heap.Lineage.findMethodWithin?_eq
    (lineage : heap.Lineage id ids)
    (name : String)
    {fuel : Nat}
    (enough : ids.length ≤ fuel) :
    heap.findMethodWithin? name fuel id = ids.findSome? (heap.ownMethod? · name) := by
  induction lineage generalizing fuel with
  | @base id made known isLast =>
      cases fuel with
      | zero => simp at enough
      | succ fuel =>
          simp only [findMethodWithin?, known, isLast, Heap.ownMethod?, List.findSome?_cons]
          cases own : made.methods.get? name <;> simp [own]
  | @derived id made parent ancestors known isParent _ inductionHypothesis =>
      cases fuel with
      | zero => simp at enough
      | succ fuel =>
          have inherited := inductionHypothesis (Nat.le_of_succ_le_succ enough)
          simp only [findMethodWithin?, known, isParent, Heap.ownMethod?, List.findSome?_cons]
          cases own : made.methods.get? name with
          | some method => simp [own]
          | none => simpa [own, Heap.ownMethod?] using inherited

theorem Heap.Lineage.findMethod?_eq
    (lineage : heap.Lineage id ids)
    (ordered : ∀ (id : ClassId) made parent, heap.classes[id]? = some made →
      made.superclass = some parent → parent < id)
    (name : String) :
    heap.findMethod? id name = ids.findSome? (heap.ownMethod? · name) := by
  refine lineage.findMethodWithin?_eq name (Nat.le_trans (lineage.descends ordered).2.2 ?_)
  cases lineage with
  | base known _ => exact (Array.getElem?_eq_some_iff.mp known).1
  | derived known _ _ => exact (Array.getElem?_eq_some_iff.mp known).1

end

/-! ## Properties -/

theorem readProperty_apply (object : InstanceId) (name : Identifier) (state : State) :
    readProperty object name state =
      match state.heap.getField? object name.text with
      | some value => .ok value state
      | none =>
          match state.heap.methodOf? object name.text with
          | some method =>
              .ok (.functionObject state.heap.functions.size)
                ((Act.bind method object).result state)
          | none => .error (.error (.undefinedProperty name)) state := by
  unfold readProperty
  rw [bind_of_ok (get_apply state)]
  cases state.heap.getField? object name.text with
  | some value => rfl
  | none => cases state.heap.methodOf? object name.text <;> rfl

/-- What every act keeps is all that the heap owes to its history. -/
theorem Ordered.recorded
    {history : List Act}
    {state : State}
    (ordered : Ordered history state.heap)
    (whole : state.heap.Whole) :
    Recorded history state := by
  refine ⟨whole, ordered.classes, fun id has => ?_, fun id ids name lineage => ?_,
    fun object made name known => ?_⟩
  · obtain ⟨ids, lineage⟩ := Heap.exists_lineage ordered.superclasses has
    exact ⟨ids, lineage, (lineage.descends ordered.superclasses).2.1⟩
  · exact lineage.findMethod?_eq ordered.superclasses name
  · rw [readProperty_apply, ordered.fields]
    simp [Heap.methodOf?, known]

/-! ## Sessions -/

theorem State.whole_initial (clock : Clock) : (State.initial clock).heap.Whole := by
  intro entry other has refers
  rcases refers.of_addScope with nothing | ⟨-, ⟨outer, isOuter, -⟩ | ⟨name, value, bound, isEntry⟩⟩
  · cases nothing <;> contradiction
  · cases isOuter
  · obtain ⟨rfl, rfl⟩ : name = NativeFunction.clock.name ∧ value = .native .clock := by
      simpa using Bindings.mem_of_get?_ofList bound
    cases isEntry

namespace Visited

variable {clock : Clock} {history : List Act} {state : State}

/-- Everything in a visited state has been made, in the order of its history. -/
theorem sound (visited : Visited clock history state) :
    state.heap.Whole ∧ state.heap.Has (.scope state.scope) ∧
      state.heap.Has (.scope state.globals) ∧ Ordered history state.heap := by
  induction visited with
  | start =>
      refine ⟨State.whole_initial clock, Nat.zero_lt_one, Nat.zero_lt_one, .nil, ?_, ?_⟩
      · intro id made parent known
        cases known
      · intro object name
        rfl
  | settled _ _ inductionHypothesis => exact inductionHypothesis
  | @underway history state root progress _ nothing course inductionHypothesis =>
      obtain ⟨whole, scope, globals, ordered⟩ := inductionHypothesis
      have roots : ∀ entry ∈ root.roots state, state.heap.Has entry := by
        simp [Task.roots, nothing, scope, globals]
      have after := course.whole whole roots
      exact ⟨after.heap, after.has_of_reached course.reached_scope,
        after.has_of_reached course.reached_globals, course.ordered whole roots ordered⟩

theorem recorded (visited : Visited clock history state) : Recorded history state := by
  obtain ⟨whole, -, -, ordered⟩ := visited.sound
  exact ordered.recorded whole

end Visited

theorem endState_interpret (fuel : Nat) (program : List Stmt) (state : State) :
    endState (interpret fuel program state) = endState (executeAll fuel program state) := by
  unfold interpret
  split
  next stopped => rw [stopped]; rfl
  · rfl

/-- A series of programs comes by the state behind it. -/
theorem visited_afterRounds (clock : Clock) (rounds : List Round) :
    ∃ history, Visited clock history ((State.initial clock).afterRounds rounds) := by
  suffices further : ∀ state history, Visited clock history state →
      ∃ history, Visited clock history (state.afterRounds rounds) from
    further _ [] .start
  induction rounds with
  | nil => exact fun state history visited => ⟨history, visited⟩
  | cons round rest inductionHypothesis =>
      intro state history visited
      have settled := visited.settled round.distances
      have reaches : Reaches (.statements round.fuel round.program)
          { state with distances := round.distances } _ _ := .here
      obtain ⟨progress, course, same⟩ := reaches.course_end
      have ran := settled.underway rfl course
      rw [same, Task.run, endState_map, ← endState_interpret] at ran
      exact inductionHypothesis _ _ ran

end Lox.Execution
