import Lox.Proofs.Execution.Agreement
import Lox.Proofs.Execution.Hierarchy

namespace Lox.Execution

open Scoping

/-!
# The scopes of `this` and `super`

Where all names are legible, only two kinds of acts make a scope that holds a keyword:
binding a method makes one with `this`, and declaring a subclass one with `super`.  What
they hold stays as it is, and a run is never in one of them itself.
-/

/-! ## Legible acts -/

/-- One of the names that scopes hold without being declared. -/
def IsKeyword (name : String) : Prop :=
  name = receiverName ∨ name = superclassName

theorem IsKeyword.ne {name : Identifier} {keyword : String} (isKeyword : IsKeyword keyword)
    (legible : name.Legible) : name.text ≠ keyword := by
  rcases isKeyword with rfl | rfl
  · exact legible.1
  · exact legible.2

namespace Act

/-- The declared names that an act binds. -/
def names : Act → List String
  | .define _ name _ => [name]
  | .declareFunction declaration => [declaration.name.text]
  | .declareClass name _ _ => [name]
  | .activate function _ => function.declaration.parameters.map (·.text)
  | _ => []

/-- An act that binds no keyword to anything that a program has named so. -/
def Legible (act : Act) : Prop :=
  ∀ name ∈ act.names, ∀ keyword, IsKeyword keyword → name ≠ keyword

theorem legible_of_none {act : Act} (nothing : act.names = []) : act.Legible := by
  intro name member
  rw [nothing] at member
  exact absurd member List.not_mem_nil

/-- The value of a keyword in the scope that an act makes. -/
def held (keyword : String) : Act → Option Value
  | .bind _ object => if receiverName = keyword then some (.instanceObject object) else none
  | .receive _ object => if receiverName = keyword then some (.instanceObject object) else none
  | .declareClass _ (some parent) _ =>
      if superclassName = keyword then some (.classObject parent) else none
  | _ => none

end Act

/-- The names that a ready task binds are legible. -/
theorem Does.legible
    {task : Task}
    {begun state : State}
    {act : Act}
    {resolved : Settlement → Prop}
    (does : Does task begun state act)
    (ready : TaskReady resolved begun task) :
    act.Legible := by
  have single : ∀ {name : Identifier}, name.Legible →
      ∀ text ∈ [name.text], ∀ keyword, IsKeyword keyword → text ≠ keyword := by
    intro name legible text member keyword isKeyword
    obtain rfl := List.mem_singleton.mp member
    exact isKeyword.ne legible
  cases does with
  | assign _ _ =>
      obtain ⟨_, _, proper, -⟩ := ready
      exact single proper.1
  | varDeclaration =>
      obtain ⟨_, proper, -⟩ := ready
      exact single proper.1
  | initialized _ =>
      obtain ⟨_, proper, -⟩ := ready
      exact single proper.1
  | functionDeclaration =>
      obtain ⟨_, proper, -⟩ := ready
      exact single proper.1
  | baseClass =>
      obtain ⟨_, proper, -⟩ := ready
      exact single proper.1
  | subclass _ =>
      obtain ⟨_, proper, -⟩ := ready
      exact single proper.1
  | @activation _ function _ _ =>
      obtain ⟨-, ⟨_, _, _, proper, _⟩, _⟩ := ready
      intro text member keyword isKeyword
      obtain ⟨parameter, isParameter, rfl⟩ := List.mem_map.mp member
      obtain ⟨⟨_, parameters, _⟩, _, _⟩ := function
      exact isKeyword.ne (proper.1 parameter isParameter)
  | _ => exact Act.legible_of_none rfl

/-! ## Keywords in a changed heap -/

namespace Heap

variable {heap : Heap}

theorem getLocal?_beyond (heap : Heap) (name : String) :
    heap.getLocal? heap.scopes.size name = none := by
  simp [getLocal?]

theorem getLocal?_addScope (scope : Scope) (id : ScopeId) (name : String) :
    (heap.addScope scope).getLocal? id name =
      if id = heap.scopes.size then scope.bindings.get? name else heap.getLocal? id name := by
  simp only [getLocal?, addScope, Array.getElem?_push]
  split <;> rfl

theorem getLocal?_define_of_ne
    {name other : String}
    (different : name ≠ other)
    (scope id : ScopeId)
    (value : Value) :
    (heap.define scope name value).getLocal? id other = heap.getLocal? id other := by
  simp only [getLocal?, define, Array.getElem?_modify]
  split
  · cases heap.scopes[id]? with
    | none => rfl
    | some found => exact Bindings.get?_insert_of_ne found.bindings different value
  · rfl

end Heap

namespace Act

variable {act : Act} {state : State} {keyword : String} {scope : ScopeId}

/-- Only a new scope gets a keyword, and the others keep theirs. -/
theorem getLocal?_result
    (legible : act.Legible)
    (isKeyword : IsKeyword keyword)
    (scope : ScopeId) :
    (act.result state).heap.getLocal? scope keyword =
      if scope = state.heap.scopes.size then act.held keyword
      else state.heap.getLocal? scope keyword := by
  have unchanged : ∀ heap : Heap, heap.getLocal? scope keyword =
      state.heap.getLocal? scope keyword →
      heap.getLocal? scope keyword =
        if scope = state.heap.scopes.size then none else state.heap.getLocal? scope keyword := by
    intro heap same
    split
    next isNew => rw [same, isNew, Heap.getLocal?_beyond]
    · exact same
  have different : ∀ name ∈ act.names, name ≠ keyword :=
    fun name member => legible name member keyword isKeyword
  cases act with
  | define target name value =>
      exact unchanged _ (Heap.getLocal?_define_of_ne (different name (by simp [names])) _ _ _)
  | declareFunction declaration =>
      exact unchanged _ (Heap.getLocal?_define_of_ne (different _ (by simp [names])) _ _ _)
  | declareClass name parent methods =>
      have named := different name (by simp [names])
      cases parent with
      | none =>
          refine unchanged _ ?_
          exact (Heap.getLocal?_define_of_ne named _ _ _).trans
            (Heap.getLocal?_define_of_ne named _ _ _)
      | some parent =>
          have beneath : (state.heap.define state.scope name .nil).getLocal? scope keyword =
              state.heap.getLocal? scope keyword := Heap.getLocal?_define_of_ne named _ _ _
          have size : (state.heap.define state.scope name .nil).scopes.size =
              state.heap.scopes.size := by simp [Heap.define]
          refine (Heap.getLocal?_define_of_ne named _ _ _).trans ?_
          refine (Heap.getLocal?_addScope _ _ _).trans ?_
          rw [beneath, size]
          rfl
  | activate function arguments =>
      refine (Heap.getLocal?_addScope _ _ _).trans ?_
      split
      · cases found : (Bindings.ofList
          ((function.declaration.parameters.map (·.text)).zip arguments)).get? keyword with
        | none => rfl
        | some value =>
            have member := (List.of_mem_zip (Bindings.mem_of_get?_ofList found)).1
            exact absurd rfl (different keyword member)
      · rfl
  | enterBlock => exact Heap.getLocal?_addScope _ _ _
  | bind method object => exact Heap.getLocal?_addScope _ _ _
  | receive method object => exact Heap.getLocal?_addScope _ _ _
  | _ => exact unchanged _ rfl

/-- No act takes a scope or a name in it away. -/
theorem grows (act : Act) (state : State) : Grows state.heap (act.result state).heap := by
  cases act with
  | define target name value => exact .define _ _ _ _
  | declareFunction declaration => exact .define _ _ _ _
  | declareClass name parent methods =>
      have named := Grows.define state.heap state.scope name .nil
      cases parent with
      | none => exact named.trans (.define _ _ _ _)
      | some parent => exact (named.trans (.addScope _ _)).trans (.define _ _ _ _)
  | bind method object => exact .addScope _ _
  | enterBlock => exact .addScope _ _
  | activate function arguments => exact .addScope _ _
  | receive method object => exact .addScope _ _
  | _ => exact .refl _

/-- What is around a scope that exists stays around it. -/
theorem enclosing?_kept
    (act : Act)
    (has : state.heap.Has (.scope scope)) :
    (act.result state).heap.enclosing? scope = state.heap.enclosing? scope :=
  (act.grows state).enclosing? (Array.getElem?_eq_getElem has)

/-- A class stays as it was declared. -/
theorem classes_kept
    (act : Act)
    {id : ClassId}
    {made : Class}
    (known : state.heap.classes[id]? = some made) :
    (act.result state).heap.classes[id]? = some made := by
  rcases act.classes_result state with ⟨-, same⟩ | ⟨_, added, -, -, same⟩
  · rw [same, known]
  · have before : id ≠ state.heap.classes.size :=
      Nat.ne_of_lt (Array.getElem?_eq_some_iff.mp known).1
    rw [same, Array.getElem?_push, if_neg before, known]

/-- An instance stays one of its class. -/
theorem instances_kept
    (act : Act)
    {object : InstanceId}
    {made : Instance}
    (known : state.heap.instances[object]? = some made) :
    ∃ later, (act.result state).heap.instances[object]? = some later ∧
      later.classId = made.classId := by
  cases act with
  | setField owner name value =>
      by_cases same : owner = object
      · exact ⟨{ made with fields := made.fields.insert name value },
          by simp [result, Heap.setField, Array.getElem?_modify, same, known], rfl⟩
      · exact ⟨made, by simp [result, Heap.setField, Array.getElem?_modify, same, known], rfl⟩
  | construct classId =>
      have before : object ≠ state.heap.instances.size :=
        Nat.ne_of_lt (Array.getElem?_eq_some_iff.mp known).1
      exact ⟨made, by simp [result, Heap.addInstance, Array.getElem?_push, before, known], rfl⟩
  | declareClass name parent methods => cases parent <;> exact ⟨made, known, rfl⟩
  | _ => exact ⟨made, known, rfl⟩

end Act

/-! ## What is carried on -/

/--
A later heap has all that was there, with the same keywords in the same chains of scopes,
the same classes, and instances that are still of their classes.
-/
structure Heap.Carries (before after : Heap) : Prop where
  has : ∀ entry, before.Has entry → after.Has entry
  keywords :
    ∀ (scope : ScopeId) keyword, before.Has (.scope scope) → IsKeyword keyword →
      after.getLocal? scope keyword = before.getLocal? scope keyword
  around :
    ∀ scope : ScopeId, before.Has (.scope scope) →
      after.enclosing? scope = before.enclosing? scope
  classes : ∀ (id : ClassId) made, before.classes[id]? = some made → after.classes[id]? = some made
  instances :
    ∀ (object : InstanceId) made, before.instances[object]? = some made →
      ∃ later, after.instances[object]? = some later ∧ later.classId = made.classId

namespace Heap.Carries

variable {before middle after : Heap}

theorem refl (heap : Heap) : heap.Carries heap where
  has _ known := known
  keywords _ _ _ _ := rfl
  around _ _ := rfl
  classes _ _ known := known
  instances _ made known := ⟨made, known, rfl⟩

theorem trans (first : before.Carries middle) (second : middle.Carries after) :
    before.Carries after where
  has entry known := second.has entry (first.has entry known)
  keywords scope keyword known isKeyword :=
    (second.keywords scope keyword (first.has _ known) isKeyword).trans
      (first.keywords scope keyword known isKeyword)
  around scope known :=
    (second.around scope (first.has _ known)).trans (first.around scope known)
  classes id made known := second.classes id made (first.classes id made known)
  instances object made known := by
    obtain ⟨between, isBetween, same⟩ := first.instances object made known
    obtain ⟨later, isLater, sameLater⟩ := second.instances object between isBetween
    exact ⟨later, isLater, sameLater.trans same⟩

end Heap.Carries

/-- Nothing of all this is changed by an act. -/
theorem Act.carries {act : Act} (legible : act.Legible) (state : State) :
    state.heap.Carries (act.result state).heap where
  has _ known := act.has_result known
  keywords scope keyword known isKeyword := by
    rw [getLocal?_result legible isKeyword, if_neg (Nat.ne_of_lt known)]
  around _ known := act.enclosing?_kept known
  classes _ _ known := act.classes_kept known
  instances _ _ known := act.instances_kept known

/-! ## Acts in a row -/

/-- The state after some acts. -/
def State.replay (state : State) (acts : List Act) : State :=
  acts.foldl Act.result state

section

variable {state : State} {acts : List Act}

theorem State.replay_append (state : State) (acts others : List Act) :
    state.replay (acts ++ others) = (state.replay acts).replay others :=
  List.foldl_append

/-- What a scope holds of a keyword never changes after the scope has been made. -/
theorem State.carries_replay (legible : ∀ act ∈ acts, act.Legible) (state : State) :
    state.heap.Carries (state.replay acts).heap := by
  induction acts generalizing state with
  | nil => exact .refl state.heap
  | cons first rest inductionHypothesis =>
      obtain ⟨legibleFirst, legibleRest⟩ := List.forall_mem_cons.mp legible
      exact (first.carries legibleFirst state).trans
        (inductionHypothesis legibleRest (first.result state))

/-- No act has to do with distances. -/
theorem State.replay_distances (state : State) (distances : Distances) (acts : List Act) :
    { state with distances := distances }.replay acts =
      { state.replay acts with distances := distances } := by
  induction acts generalizing state with
  | nil => rfl
  | cons first rest inductionHypothesis =>
      have same : first.result { state with distances := distances } =
          { first.result state with distances := distances } := by
        cases first <;> rfl
      change State.replay (first.result { state with distances := distances }) rest = _
      rw [same]
      exact inductionHypothesis (first.result state)

/-- A course is the series of its acts. -/
theorem Course.replay
    {root : Task}
    {start : State}
    {progress : Progress}
    (course : Course root start progress) :
    progress.state = start.replay progress.acts := by
  induction course with
  | begin => rfl
  | learn _ _ inductionHypothesis => exact inductionHypothesis
  | act _ _ _ _ inductionHypothesis =>
      rw [Progress.after, State.replay_append, ← inductionHypothesis]
      rfl

/-- The heap of a visited state is what its history has made. -/
theorem Visited.replay
    {clock : Clock}
    (visited : Visited clock acts state) :
    state.heap = ((State.initial clock).replay acts).heap := by
  suffices same : { state with distances := Distances.empty } =
      (State.initial clock).replay acts by
    rw [← same]
  induction visited with
  | start => rfl
  | settled _ _ inductionHypothesis => exact inductionHypothesis
  | @underway history state root progress _ _ course inductionHypothesis =>
      rw [State.replay_append, ← inductionHypothesis, State.replay_distances, course.replay]

end

end Lox.Execution
