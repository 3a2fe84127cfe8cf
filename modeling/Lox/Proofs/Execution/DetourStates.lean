import Lox.Proofs.Execution.Detours
import Lox.Proofs.Execution.TwinStates

namespace Lox.Execution

/-!
# States of two runs, the first one with detours

Both runs make the same functions, classes and instances in the same order, and values are
the same in both.  The first run makes more scopes than the second one.  Each of its scopes
has a counterpart: the scope that is made in its place, or else, for a scope that the second
run does without, the counterpart of the scope around it.  No counterpart ever changes.
-/

/-- What stands for a scope of the first run, and the detour that is seen from the scope. -/
structure Counterpart where
  scope : ScopeId
  detour : Detour

/--
A scope of the first run and the one that was made in its place.  They bind the same names
to the same values, and both are outermost or lie in scopes that correspond.
-/
inductive ScopeAlike (marks : List Counterpart) : Detour → Scope → Scope → Prop where
  | outermost {bindings} : ScopeAlike marks none ⟨bindings, none⟩ ⟨bindings, none⟩
  | inner {bindings outer outer'} {detour : Detour} :
      marks[outer]? = some ⟨outer', detour⟩ →
      ScopeAlike marks detour.inside ⟨bindings, some outer⟩ ⟨bindings, some outer'⟩

/-- A scope was made in the place of one of the first run. -/
def MadeFor (marks : List Counterpart) (left right : ScopeId) : Prop :=
  ∃ detour : Detour, detour ≠ some 0 ∧ marks[left]? = some ⟨right, detour⟩

section

variable (long short : Distances)

/-- Functions that do the same, made in scopes that correspond. -/
structure ClosureShortened (marks : List Counterpart) (left right : Function) : Prop where
  isConstructor : left.isConstructor = right.isConstructor
  receiver : left.isConstructor = true → MadeFor marks left.closure right.closure
  declaration :
    ∃ detour, marks[left.closure]? = some ⟨right.closure, detour⟩ ∧
      FunctionShortened long short detour left.declaration right.declaration

/-- Methods that do the same once there is a scope with `this` around them. -/
structure MethodShortened (marks : List Counterpart) (left right : Function) : Prop where
  isConstructor : left.isConstructor = right.isConstructor
  declaration :
    ∃ detour : Detour, marks[left.closure]? = some ⟨right.closure, detour⟩ ∧
      FunctionShortened long short detour.inside left.declaration right.declaration

/-- Classes of one name with methods that do the same. -/
abbrev ClassShortened (marks : List Counterpart) : Class → Class → Prop :=
  ClassAlike (MethodShortened long short marks)

/-- Heaps of two runs, the first one with detours. -/
structure HeapShortened (marks : List Counterpart) (left right : Heap) : Prop where
  size : left.scopes.size = marks.length
  made :
    ∀ {id other : ScopeId} {detour : Detour}, marks[id]? = some ⟨other, detour⟩ → detour ≠ some 0 →
      ∃ first second, left.scopes[id]? = some first ∧ right.scopes[other]? = some second ∧
        ScopeAlike marks detour first second
  skipped :
    ∀ {id other : ScopeId}, marks[id]? = some ⟨other, some 0⟩ →
      ∃ outer, left.enclosing? id = some outer ∧ marks[outer]? = some ⟨other, none⟩
  distinct :
    ∀ {first second other}, MadeFor marks first other → MadeFor marks second other →
      first = second
  functions : Aligned (ClosureShortened long short marks) left.functions right.functions
  classes : Aligned (ClassShortened long short marks) left.classes right.classes
  instances : left.instances = right.instances

/-- States of two runs, the first one with a detour as seen from its current scope. -/
structure StateShortened
    (marks : List Counterpart)
    (detour : Detour)
    (left right : State) :
    Prop where
  heap : HeapShortened long short marks left.heap right.heap
  scope : marks[left.scope]? = some ⟨right.scope, detour⟩
  globals : MadeFor marks left.globals right.globals
  long : left.distances = long
  short : right.distances = short
  transcript : left.transcript = right.transcript
  clock : left.clock = right.clock

end

variable {long short : Distances} {marks later : List Counterpart} {left right : Heap}
  {detour : Detour}

/-! ## More counterparts -/

theorem mark_kept
    {id : ScopeId}
    {mark : Counterpart}
    (longer : marks <+: later)
    (known : marks[id]? = some mark) :
    later[id]? = some mark := by
  obtain ⟨added, rfl⟩ := longer
  obtain ⟨within, -⟩ := List.getElem?_eq_some_iff.mp known
  rw [List.getElem?_append_left within, known]

theorem MadeFor.grows
    {scope other : ScopeId}
    (made : MadeFor marks scope other)
    (longer : marks <+: later) :
    MadeFor later scope other := by
  obtain ⟨detour, apart, known⟩ := made
  exact ⟨detour, apart, mark_kept longer known⟩

theorem ScopeAlike.bindings
    {first second : Scope}
    (alike : ScopeAlike marks detour first second) :
    first.bindings = second.bindings := by
  cases alike <;> rfl

/-- Scopes that are alike are both outermost, or lie in scopes that correspond. -/
theorem ScopeAlike.around
    {first second : Scope}
    (alike : ScopeAlike marks detour first second) :
    first.enclosing = none ∧ second.enclosing = none ∨
      ∃ outer outer' : ScopeId, ∃ around : Detour,
        first.enclosing = some outer ∧ second.enclosing = some outer' ∧
          marks[outer]? = some ⟨outer', around⟩ := by
  cases alike with
  | outermost => exact .inl ⟨rfl, rfl⟩
  | inner around => exact .inr ⟨_, _, _, rfl, rfl, around⟩

theorem ScopeAlike.grows
    {first second : Scope}
    (alike : ScopeAlike marks detour first second)
    (longer : marks <+: later) :
    ScopeAlike later detour first second := by
  cases alike with
  | outermost => exact .outermost
  | inner known => exact .inner (mark_kept longer known)

theorem ClosureShortened.grows
    {first second : Function}
    (shortened : ClosureShortened long short marks first second)
    (longer : marks <+: later) :
    ClosureShortened long short later first second := by
  obtain ⟨detour, known, same⟩ := shortened.declaration
  exact ⟨shortened.isConstructor, fun isConstructor =>
    (shortened.receiver isConstructor).grows longer, detour, mark_kept longer known, same⟩

theorem MethodShortened.grows
    {first second : Function}
    (shortened : MethodShortened long short marks first second)
    (longer : marks <+: later) :
    MethodShortened long short later first second := by
  obtain ⟨detour, known, same⟩ := shortened.declaration
  exact ⟨shortened.isConstructor, detour, mark_kept longer known, same⟩

theorem ClassShortened.grows
    {first second : Class}
    (shortened : ClassShortened long short marks first second)
    (longer : marks <+: later) :
    ClassShortened long short later first second :=
  ⟨shortened.name, shortened.superclass, fun name =>
    rel_imp (shortened.methods name) fun _ _ methods => methods.grows longer⟩

/-! ## Scopes that correspond -/

/-- The way to a scope further out leads through the scope right outside. -/
theorem Heap.ancestor?_outwards (heap : Heap) (depth : Nat) (scope : ScopeId) :
    heap.ancestor? (depth + 1) scope = (heap.enclosing? scope).bind (heap.ancestor? depth) := by
  rw [Heap.ancestor?]
  cases heap.enclosing? scope <;> rfl

namespace HeapShortened

/-- A counterpart of the first run's scopes is a scope of the second run. -/
theorem lt_of_made
    (shortened : HeapShortened long short marks left right)
    {scope other : ScopeId}
    (made : MadeFor marks scope other) :
    scope < marks.length ∧ other < right.scopes.size := by
  obtain ⟨detour, apart, known⟩ := made
  obtain ⟨first, second, isFirst, isSecond, -⟩ := shortened.made known apart
  exact ⟨(List.getElem?_eq_some_iff.mp known).1, (Array.getElem?_eq_some_iff.mp isSecond).1⟩

/-- Corresponding scopes bind the same names to the same values. -/
theorem getLocal?
    (shortened : HeapShortened long short marks left right)
    {scope other : ScopeId}
    (made : MadeFor marks scope other)
    (name : String) :
    left.getLocal? scope name = right.getLocal? other name := by
  obtain ⟨detour, apart, known⟩ := made
  obtain ⟨first, second, isFirst, isSecond, alike⟩ := shortened.made known apart
  simp [Heap.getLocal?, isFirst, isSecond, alike.bindings]

/-- What is some scopes up in the first run is found without the detour in the second one. -/
theorem ancestor?
    (shortened : HeapShortened long short marks left right)
    {scope other : ScopeId}
    {depth : Nat}
    (known : marks[scope]? = some ⟨other, detour⟩)
    (apart : detour ≠ some depth) :
    Option.Rel (MadeFor marks) (left.ancestor? depth scope)
      (right.ancestor? (detour.shorten depth) other) := by
  induction depth generalizing scope other detour with
  | zero =>
      rw [Detour.shorten_zero]
      exact .some ⟨detour, apart, known⟩
  | succ depth inductionHypothesis =>
      rw [left.ancestor?_outwards]
      by_cases here : detour = some 0
      · -- The second run starts outside of the scope that it does without.
        subst here
        obtain ⟨outer, enclosing, isOuter⟩ := shortened.skipped known
        rw [enclosing, Detour.shorten_here]
        exact inductionHypothesis isOuter (by simp)
      · obtain ⟨first, second, isFirst, isSecond, alike⟩ := shortened.made known here
        unfold Heap.enclosing?
        rw [isFirst]
        cases alike with
        | outermost =>
            rw [Detour.shorten_none, right.ancestor?_outwards, Heap.enclosing?, isSecond]
            exact .none
        | @inner _ outer outer' further isOuter =>
            have beyond : further ≠ some depth := by
              rintro rfl
              exact apart rfl
            rw [Detour.shorten_inside, right.ancestor?_outwards, Heap.enclosing?, isSecond]
            exact inductionHypothesis isOuter beyond

/-- A name some scopes up has the same value in both runs. -/
theorem getAt?
    (shortened : HeapShortened long short marks left right)
    {scope other : ScopeId}
    {depth : Nat}
    (known : marks[scope]? = some ⟨other, detour⟩)
    (apart : detour ≠ some depth)
    (name : String) :
    left.getAt? scope depth name = right.getAt? other (detour.shorten depth) name := by
  unfold Heap.getAt?
  rcases eq_none_or_some_of_rel (shortened.ancestor? known apart) with
    ⟨none, none'⟩ | ⟨found, found', known, known', made⟩
  · rw [none, none']
    rfl
  · rw [known, known']
    exact shortened.getLocal? made name

/-! ## Changes of both heaps -/

/-- What was made before stays alike where both heaps have changed. -/
theorem changed
    {after after' : Heap}
    (shortened : HeapShortened long short marks left right)
    (longer : marks <+: later)
    (size : after.scopes.size = later.length)
    (made :
      ∀ {id other : ScopeId} {detour : Detour}, later[id]? = some ⟨other, detour⟩ →
        detour ≠ some 0 →
          ∃ first second, after.scopes[id]? = some first ∧ after'.scopes[other]? = some second ∧
            ScopeAlike later detour first second)
    (skipped :
      ∀ {id other : ScopeId}, later[id]? = some ⟨other, some 0⟩ →
        ∃ outer, after.enclosing? id = some outer ∧ later[outer]? = some ⟨other, none⟩)
    (distinct :
      ∀ {first second other}, MadeFor later first other → MadeFor later second other →
        first = second)
    (functions : after.functions = left.functions ∧ after'.functions = right.functions)
    (classes : after.classes = left.classes ∧ after'.classes = right.classes)
    (instances : after.instances = left.instances ∧ after'.instances = right.instances) :
    HeapShortened long short later after after' where
  size := size
  made := made
  skipped := skipped
  distinct := distinct
  functions := by
    rw [functions.1, functions.2]
    exact shortened.functions.imp fun _ _ related => related.grows longer
  classes := by
    rw [classes.1, classes.2]
    exact shortened.classes.imp fun _ _ related => ClassShortened.grows related longer
  instances := by rw [instances.1, instances.2, shortened.instances]

end HeapShortened

/-- A new counterpart is that of the scope made last; all others are older. -/
theorem mark_cases
    {id : ScopeId}
    {mark new : Counterpart}
    (known : (marks ++ [new])[id]? = some mark) :
    marks[id]? = some mark ∨ id = marks.length ∧ mark = new := by
  by_cases isNew : id = marks.length
  · subst isNew
    obtain rfl : new = mark := by simpa using known
    exact .inr ⟨rfl, rfl⟩
  · obtain ⟨within, -⟩ := List.getElem?_eq_some_iff.mp known
    rw [List.length_append] at within
    have older : id < marks.length := Nat.lt_of_le_of_ne (Nat.le_of_lt_succ within) isNew
    rw [List.getElem?_append_left older] at known
    exact .inl known

theorem mark_new (new : Counterpart) : (marks ++ [new])[marks.length]? = some new := by
  simp

/-- A scope that was there before another one was made is still there. -/
theorem scope_kept
    {heap : Heap}
    {id : ScopeId}
    {scope : Scope}
    (known : heap.scopes[id]? = some scope)
    (new : Scope) :
    (heap.addScope new).scopes[id]? = some scope := by
  have older : id ≠ heap.scopes.size := Nat.ne_of_lt (Array.getElem?_eq_some_iff.mp known).1
  simp [Heap.addScope, Array.getElem?_push, older, known]

/-- What is around a scope stays the same when the heap grows. -/
theorem enclosing_kept
    {before after : Heap}
    (grows : Grows before after)
    {id outer : ScopeId}
    (enclosing : before.enclosing? id = some outer) :
    after.enclosing? id = some outer := by
  obtain ⟨scope, known, -⟩ := Option.bind_eq_some_iff.mp enclosing
  rw [grows.enclosing? known, enclosing]

theorem scope_new (heap : Heap) (new : Scope) :
    (heap.addScope new).scopes[heap.scopes.size]? = some new := by
  simp [Heap.addScope]

namespace HeapShortened

/-- Both runs make a scope with the same bindings, in scopes that correspond. -/
theorem addScope
    (shortened : HeapShortened long short marks left right)
    {outer outer' : ScopeId}
    (around : marks[outer]? = some ⟨outer', detour⟩)
    (bindings : Bindings Value) :
    HeapShortened long short (marks ++ [⟨right.scopes.size, detour.inside⟩])
      (left.addScope ⟨bindings, some outer⟩) (right.addScope ⟨bindings, some outer'⟩) := by
  have longer := List.prefix_append marks [⟨right.scopes.size, detour.inside⟩]
  -- The new scope of the second run is the counterpart of no older one.
  have older : ∀ {scope other : ScopeId},
      MadeFor (marks ++ [⟨right.scopes.size, detour.inside⟩]) scope other →
        MadeFor marks scope other ∨ scope = marks.length ∧ other = right.scopes.size := by
    rintro scope other ⟨found, apart, known⟩
    rcases mark_cases known with before | ⟨isNew, same⟩
    · exact .inl ⟨found, apart, before⟩
    · exact .inr ⟨isNew, congrArg Counterpart.scope same⟩
  refine shortened.changed longer (by simp [Heap.addScope, shortened.size]) ?_ ?_ ?_
    ⟨rfl, rfl⟩ ⟨rfl, rfl⟩ ⟨rfl, rfl⟩
  · intro id other found known apart
    rcases mark_cases known with before | ⟨rfl, same⟩
    · obtain ⟨first, second, isFirst, isSecond, alike⟩ := shortened.made before apart
      exact ⟨first, second, scope_kept isFirst _, scope_kept isSecond _, alike.grows longer⟩
    · obtain ⟨rfl, rfl⟩ := Counterpart.mk.inj same
      rw [← shortened.size]
      exact ⟨_, _, scope_new left _, scope_new right _, .inner (mark_kept longer around)⟩
  · intro id other known
    rcases mark_cases known with before | ⟨rfl, same⟩
    · obtain ⟨outer, enclosing, isOuter⟩ := shortened.skipped before
      exact ⟨outer, enclosing_kept (.addScope left _) enclosing, mark_kept longer isOuter⟩
    · exact absurd (congrArg Counterpart.detour same).symm detour.inside_ne_here
  · intro first second other isFirst isSecond
    rcases older isFirst with before | ⟨rfl, isNew⟩
    · rcases older isSecond with beforeToo | ⟨-, isNew⟩
      · exact shortened.distinct before beforeToo
      · exact absurd isNew (Nat.ne_of_lt (shortened.lt_of_made before).2)
    · rcases older isSecond with before | ⟨rfl, -⟩
      · exact absurd isNew (Nat.ne_of_lt (shortened.lt_of_made before).2)
      · rfl

/-- The first run makes a scope that the second one does without. -/
theorem skipScope
    (shortened : HeapShortened long short marks left right)
    {outer outer' : ScopeId}
    (around : marks[outer]? = some ⟨outer', none⟩)
    (bindings : Bindings Value) :
    HeapShortened long short (marks ++ [⟨outer', some 0⟩])
      (left.addScope ⟨bindings, some outer⟩) right := by
  have longer := List.prefix_append marks [⟨outer', some 0⟩]
  have older : ∀ {scope other : ScopeId}, MadeFor (marks ++ [⟨outer', some 0⟩]) scope other →
      MadeFor marks scope other := by
    rintro scope other ⟨found, apart, known⟩
    rcases mark_cases known with before | ⟨-, same⟩
    · exact ⟨found, apart, before⟩
    · exact absurd (congrArg Counterpart.detour same) apart
  refine shortened.changed longer (by simp [Heap.addScope, shortened.size]) ?_ ?_
    (fun isFirst isSecond => shortened.distinct (older isFirst) (older isSecond))
    ⟨rfl, rfl⟩ ⟨rfl, rfl⟩ ⟨rfl, rfl⟩
  · intro id other found known apart
    rcases mark_cases known with before | ⟨-, same⟩
    · obtain ⟨first, second, isFirst, isSecond, alike⟩ := shortened.made before apart
      exact ⟨first, second, scope_kept isFirst _, isSecond, alike.grows longer⟩
    · exact absurd (congrArg Counterpart.detour same) apart
  · intro id other known
    rcases mark_cases known with before | ⟨rfl, same⟩
    · obtain ⟨outer, enclosing, isOuter⟩ := shortened.skipped before
      exact ⟨outer, enclosing_kept (.addScope left _) enclosing, mark_kept longer isOuter⟩
    · obtain rfl : other = outer' := congrArg Counterpart.scope same
      refine ⟨outer, ?_, mark_kept longer around⟩
      rw [Heap.enclosing?, ← shortened.size, scope_new]
      rfl

/-- Both runs bind a name to the same value, in scopes that correspond. -/
theorem define
    (shortened : HeapShortened long short marks left right)
    {scope other : ScopeId}
    (made : MadeFor marks scope other)
    (name : String)
    (value : Value) :
    HeapShortened long short marks (left.define scope name value)
      (right.define other name value) := by
  refine shortened.changed List.prefix_rfl (by simp [Heap.define, shortened.size]) ?_ ?_
    shortened.distinct ⟨rfl, rfl⟩ ⟨rfl, rfl⟩ ⟨rfl, rfl⟩
  · intro id target found known apart
    obtain ⟨first, second, isFirst, isSecond, alike⟩ := shortened.made known apart
    simp only [Heap.define, Array.getElem?_modify, isFirst, isSecond]
    by_cases same : scope = id
    · subst same
      obtain ⟨here, _, isHere⟩ := made
      obtain ⟨rfl, rfl⟩ := Counterpart.mk.inj (Option.some.inj (isHere.symm.trans known))
      rw [if_pos rfl, if_pos rfl]
      refine ⟨_, _, rfl, rfl, ?_⟩
      cases alike with
      | outermost => exact .outermost
      | inner isOuter => exact .inner isOuter
    · have different : other ≠ target := by
        rintro rfl
        exact same (shortened.distinct made ⟨found, apart, known⟩)
      rw [if_neg same, if_neg different]
      exact ⟨first, second, rfl, rfl, alike⟩
  · intro id target known
    obtain ⟨outer, enclosing, isOuter⟩ := shortened.skipped known
    exact ⟨outer, enclosing_kept (.define left _ _ _) enclosing, isOuter⟩

/-- Both runs make functions that do the same. -/
theorem addFunction
    (shortened : HeapShortened long short marks left right)
    {first second : Function}
    (functions : ClosureShortened long short marks first second) :
    HeapShortened long short marks (left.addFunction first) (right.addFunction second) :=
  { shortened with functions := shortened.functions.push functions }

/-- Both runs make classes whose methods do the same. -/
theorem addClass
    (shortened : HeapShortened long short marks left right)
    {first second : Class}
    (classes : ClassShortened long short marks first second) :
    HeapShortened long short marks (left.addClass first) (right.addClass second) :=
  { shortened with classes := shortened.classes.push classes }

theorem addInstance
    (shortened : HeapShortened long short marks left right)
    (created : Instance) :
    HeapShortened long short marks (left.addInstance created) (right.addInstance created) :=
  { shortened with instances := by simp [Heap.addInstance, shortened.instances] }

theorem setField
    (shortened : HeapShortened long short marks left right)
    (object : InstanceId)
    (name : String)
    (value : Value) :
    HeapShortened long short marks (left.setField object name value)
      (right.setField object name value) :=
  { shortened with instances := by simp [Heap.setField, shortened.instances] }

end HeapShortened

end Lox.Execution
