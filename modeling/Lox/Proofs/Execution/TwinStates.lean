import Lox.Proofs.Execution.Layout
import Lox.Proofs.Execution.Tables
import Lox.Proofs.Execution.Twins

namespace Lox.Execution

/-!
# Twin states

States of two runs that have made the same scopes, functions, classes and instances
in the same order.  Corresponding scopes have one label, which is chosen when they are
made and never changes, and bind corresponding names to the same values.  Functions
are twins in the scopes around them.
-/

variable (pairing : Pairing)

/-! ## Layers -/

/--
The scopes from one on outwards have given labels, up to the global scope.  Every
scope was made after the one around it.
-/
inductive Layered (labels : List Label) (heap : Heap) : ScopeId → List Label → Prop where
  | outermost : Layered labels heap pairing.globals []
  | inner {scope outer label levels} :
      labels[scope]? = some label →
      heap.enclosing? scope = some outer →
      outer < scope →
      Layered labels heap outer levels →
      Layered labels heap scope (label :: levels)

/-- Functions that do the same, made under corresponding scopes. -/
structure ClosureTwins (labels : List Label) (heap : Heap) (left right : Function) : Prop where
  closure : left.closure = right.closure
  isConstructor : left.isConstructor = right.isConstructor
  receiver :
    left.isConstructor = true →
      ∃ label, labels[left.closure]? = some label ∧ label.renames receiverName receiverName
  declaration :
    ∃ levels,
      Layered pairing labels heap left.closure levels ∧
        FunctionTwins pairing levels left.declaration right.declaration

/-- Methods that do the same once there is a scope with `this` around them. -/
structure MethodTwins (labels : List Label) (heap : Heap) (left right : Function) : Prop where
  closure : left.closure = right.closure
  isConstructor : left.isConstructor = right.isConstructor
  declaration :
    ∃ levels,
      Layered pairing labels heap left.closure levels ∧
        FunctionTwins pairing (pairing.receiver :: levels) left.declaration right.declaration

/-- Classes of one name with corresponding methods. -/
structure ClassTwins (labels : List Label) (heap : Heap) (left right : Class) : Prop where
  name : left.name = right.name
  superclass : left.superclass = right.superclass
  methods :
    ∀ name,
      Option.Rel (MethodTwins pairing labels heap) (left.methods.get? name)
        (right.methods.get? name)

/-- Heaps of two runs that have made the same things. -/
structure HeapTwins (labels : List Label) (left right : Heap) : Prop where
  leftSize : left.scopes.size = labels.length
  rightSize : right.scopes.size = labels.length
  scopes :
    ∀ (id : ScopeId) label first second, labels[id]? = some label →
      left.scopes[id]? = some first → right.scopes[id]? = some second →
        first.enclosing = second.enclosing ∧ label.Relates first.bindings second.bindings
  globals : labels[pairing.globals]? = some .identity
  outermost : left.enclosing? pairing.globals = none
  functions : Aligned (ClosureTwins pairing labels left) left.functions right.functions
  classes : Aligned (ClassTwins pairing labels left) left.classes right.classes
  instances : left.instances = right.instances

/-- States of two runs that have made the same things and done the same. -/
structure StateTwins (labels : List Label) (left right : State) : Prop where
  heap : HeapTwins pairing labels left.heap right.heap
  scope : left.scope = right.scope
  leftGlobals : left.globals = pairing.globals
  rightGlobals : right.globals = pairing.globals
  distances :
    ∀ id id' depth, pairing.settled id id' depth →
      left.distances.get? id = depth ∧ right.distances.get? id' = depth
  transcript : left.transcript = right.transcript
  clock : left.clock = right.clock

variable {pairing} {labels later : List Label} {left right after : Heap} {levels : List Label}

/-! ## Growing -/

theorem label_kept
    {id : ScopeId}
    {label : Label}
    (longer : labels <+: later)
    (known : labels[id]? = some label) :
    later[id]? = some label := by
  obtain ⟨added, rfl⟩ := longer
  obtain ⟨within, -⟩ := List.getElem?_eq_some_iff.mp known
  rw [List.getElem?_append_left within, known]

theorem Layered.grows
    {scope : ScopeId}
    (layered : Layered pairing labels left scope levels)
    (longer : labels <+: later)
    (grown : Grows left after) :
    Layered pairing later after scope levels := by
  induction layered with
  | outermost => exact .outermost
  | @inner scope outer label levels isLabel enclosing older _ inductionHypothesis =>
      refine .inner (label_kept longer isLabel) ?_ older inductionHypothesis
      obtain ⟨found, known, -⟩ := Option.bind_eq_some_iff.mp enclosing
      exact (grown.enclosing? known).trans enclosing

theorem ClosureTwins.grows
    {first second : Function}
    (twins : ClosureTwins pairing labels left first second)
    (longer : labels <+: later)
    (grown : Grows left after) :
    ClosureTwins pairing later after first second := by
  obtain ⟨levels, layered, same⟩ := twins.declaration
  refine ⟨twins.closure, twins.isConstructor, fun isConstructor => ?_,
    levels, layered.grows longer grown, same⟩
  obtain ⟨label, isLabel, renames⟩ := twins.receiver isConstructor
  exact ⟨label, label_kept longer isLabel, renames⟩

theorem MethodTwins.grows
    {first second : Function}
    (twins : MethodTwins pairing labels left first second)
    (longer : labels <+: later)
    (grown : Grows left after) :
    MethodTwins pairing later after first second := by
  obtain ⟨levels, layered, same⟩ := twins.declaration
  exact ⟨twins.closure, twins.isConstructor, levels, layered.grows longer grown, same⟩

theorem ClassTwins.grows
    {first second : Class}
    (twins : ClassTwins pairing labels left first second)
    (longer : labels <+: later)
    (grown : Grows left after) :
    ClassTwins pairing later after first second := by
  refine ⟨twins.name, twins.superclass, fun name => ?_⟩
  obtain ⟨none, none'⟩ | ⟨method, method', known, known', methods⟩ :=
    eq_none_or_some_of_rel (twins.methods name)
  · rw [none, none']
    exact .none
  · rw [known, known']
    exact .some (methods.grows longer grown)

/-! ## Scopes that correspond -/

theorem Layered.innermost
    {scope : ScopeId}
    {label : Label}
    (layered : Layered pairing labels left scope (label :: levels)) :
    labels[scope]? = some label := by
  cases layered with
  | inner isLabel _ _ _ => exact isLabel

/-- A number of steps up there is a scope with the label at that level. -/
theorem Layered.ancestor?
    {scope : ScopeId}
    {depth : Nat}
    {label : Label}
    (layered : Layered pairing labels left scope levels)
    (known : levels[depth]? = some label) :
    ∃ id, left.ancestor? depth scope = some id ∧ labels[id]? = some label := by
  induction layered generalizing depth with
  | outermost => simp at known
  | @inner scope outer here levels isLabel enclosing _ _ inductionHypothesis =>
      cases depth with
      | zero =>
          obtain rfl : here = label := by simpa using known
          exact ⟨scope, rfl, isLabel⟩
      | succ depth =>
          obtain ⟨id, above, isLabel⟩ := inductionHypothesis (by simpa using known)
          exact ⟨id, by simp [Heap.ancestor?, enclosing, above], isLabel⟩

namespace HeapTwins

variable {right' : Heap}

/-- A scope with a label is there in both heaps. -/
theorem find
    (twins : HeapTwins pairing labels left right)
    {id : ScopeId}
    {label : Label}
    (known : labels[id]? = some label) :
    ∃ first second,
      left.scopes[id]? = some first ∧
        right.scopes[id]? = some second ∧
        first.enclosing = second.enclosing ∧
        label.Relates first.bindings second.bindings := by
  obtain ⟨within, -⟩ := List.getElem?_eq_some_iff.mp known
  have inLeft : id < left.scopes.size := twins.leftSize ▸ within
  have inRight : id < right.scopes.size := twins.rightSize ▸ within
  exact ⟨left.scopes[id], right.scopes[id], by simp, by simp,
    twins.scopes id label _ _ known (by simp) (by simp)⟩

/-- The same scope is around corresponding scopes. -/
theorem enclosing?
    (twins : HeapTwins pairing labels left right)
    (id : ScopeId) :
    right.enclosing? id = left.enclosing? id := by
  unfold Heap.enclosing?
  cases known : labels[id]? with
  | some label =>
      obtain ⟨first, second, isFirst, isSecond, same, -⟩ := twins.find known
      simp [isFirst, isSecond, same]
  | none =>
      have beyond := List.getElem?_eq_none_iff.mp known
      have beyondLeft : left.scopes.size ≤ id := by rw [twins.leftSize]; exact beyond
      have beyondRight : right.scopes.size ≤ id := by rw [twins.rightSize]; exact beyond
      rw [Array.getElem?_eq_none beyondLeft, Array.getElem?_eq_none beyondRight]

theorem ancestor?
    (twins : HeapTwins pairing labels left right)
    (depth : Nat)
    (scope : ScopeId) :
    right.ancestor? depth scope = left.ancestor? depth scope := by
  induction depth generalizing scope with
  | zero => rfl
  | succ depth inductionHypothesis =>
      unfold Heap.ancestor?
      rw [twins.enclosing? scope]
      cases left.enclosing? scope with
      | none => rfl
      | some outer => exact inductionHypothesis outer

/-- Corresponding names have the same value in corresponding scopes. -/
theorem getLocal?
    (twins : HeapTwins pairing labels left right)
    {id : ScopeId}
    {label : Label}
    (known : labels[id]? = some label)
    {name other : String}
    (renames : label.renames name other) :
    right.getLocal? id other = left.getLocal? id name := by
  obtain ⟨first, second, isFirst, isSecond, -, relates⟩ := twins.find known
  simp [Heap.getLocal?, isFirst, isSecond, relates.renamed renames]

/-- Global names have the same value. -/
theorem global?
    (twins : HeapTwins pairing labels left right)
    (name : String) :
    right.getLocal? pairing.globals name = left.getLocal? pairing.globals name :=
  twins.getLocal? twins.globals (Label.identity_renames name)

/-- The scope in which a name is declared gives it the name that it has in the other run. -/
theorem declares
    (twins : HeapTwins pairing labels left right)
    {scope : ScopeId}
    (layered : Layered pairing labels left scope levels)
    {name other : String}
    (declares : Declares levels name other) :
    ∃ label, labels[scope]? = some label ∧ label.renames name other := by
  cases layered with
  | outermost => exact ⟨.identity, twins.globals, trivial, declares⟩
  | inner isLabel _ _ _ => exact ⟨_, isLabel, declares⟩

/-! ## Changes of both heaps -/

/-- What was made before stays twins in heaps that have grown. -/
theorem grows
    (twins : HeapTwins pairing labels left right)
    (longer : labels <+: later)
    (grown : Grows left after)
    (leftSize : after.scopes.size = later.length)
    (rightSize : right'.scopes.size = later.length)
    (scopes :
      ∀ (id : ScopeId) label first second, later[id]? = some label →
        after.scopes[id]? = some first → right'.scopes[id]? = some second →
          first.enclosing = second.enclosing ∧
            label.Relates first.bindings second.bindings)
    (functions :
      Aligned (ClosureTwins pairing labels left) after.functions right'.functions)
    (classes : Aligned (ClassTwins pairing labels left) after.classes right'.classes)
    (instances : after.instances = right'.instances) :
    HeapTwins pairing later after right' where
  leftSize := leftSize
  rightSize := rightSize
  scopes := scopes
  globals := label_kept longer twins.globals
  outermost := by
    obtain ⟨first, -, isFirst, -⟩ := twins.find twins.globals
    rw [grown.enclosing? isFirst]
    exact twins.outermost
  functions := functions.imp fun _ _ related => related.grows longer grown
  classes := classes.imp fun _ _ related => related.grows longer grown
  instances := instances

/-- Both runs make a scope, with corresponding bindings, under the same scope. -/
theorem addScope
    (twins : HeapTwins pairing labels left right)
    {label : Label}
    {bindings bindings' : Bindings Value}
    (relates : label.Relates bindings bindings')
    (enclosing : Option ScopeId) :
    HeapTwins pairing (labels ++ [label]) (left.addScope ⟨bindings, enclosing⟩)
      (right.addScope ⟨bindings', enclosing⟩) := by
  refine twins.grows (List.prefix_append labels [label]) (.addScope _ _)
    (by simp [Heap.addScope, twins.leftSize]) (by simp [Heap.addScope, twins.rightSize]) ?_
    twins.functions twins.classes twins.instances
  intro id found first second known isFirst isSecond
  simp only [Heap.addScope, Array.getElem?_push] at isFirst isSecond
  rw [twins.leftSize] at isFirst
  rw [twins.rightSize] at isSecond
  by_cases isNew : id = labels.length
  · subst isNew
    simp only [if_true, Option.some.injEq] at isFirst isSecond
    obtain rfl : label = found := by simpa using known
    exact ⟨isFirst ▸ isSecond ▸ rfl, isFirst ▸ isSecond ▸ relates⟩
  · simp only [isNew, if_false] at isFirst isSecond
    have within : id < labels.length := by
      obtain ⟨within, -⟩ := List.getElem?_eq_some_iff.mp known
      rw [List.length_append] at within
      exact Nat.lt_of_le_of_ne (Nat.le_of_lt_succ within) isNew
    rw [List.getElem?_append_left within] at known
    exact twins.scopes id found first second known isFirst isSecond

/-- Both runs bind corresponding names of a scope to the same value. -/
theorem define
    (twins : HeapTwins pairing labels left right)
    {scope : ScopeId}
    {label : Label}
    (isLabel : labels[scope]? = some label)
    {name other : String}
    (renames : label.renames name other)
    (value : Value) :
    HeapTwins pairing labels (left.define scope name value)
      (right.define scope other value) := by
  refine twins.grows List.prefix_rfl (.define _ _ _ _)
    (by simp [Heap.define, twins.leftSize]) (by simp [Heap.define, twins.rightSize]) ?_
    twins.functions twins.classes twins.instances
  intro id found first second known isFirst isSecond
  simp only [Heap.define, Array.getElem?_modify] at isFirst isSecond
  by_cases same : scope = id
  · subst same
    obtain rfl : label = found := Option.some.inj (isLabel.symm.trans known)
    simp only [if_true, Option.map_eq_some_iff] at isFirst isSecond
    obtain ⟨before, isBefore, rfl⟩ := isFirst
    obtain ⟨before', isBefore', rfl⟩ := isSecond
    obtain ⟨enclosing, relates⟩ := twins.scopes scope label _ _ known isBefore isBefore'
    exact ⟨enclosing, relates.insert renames value⟩
  · simp only [same, if_false] at isFirst isSecond
    exact twins.scopes id found first second known isFirst isSecond

/-- Both runs make functions that are twins. -/
theorem addFunction
    (twins : HeapTwins pairing labels left right)
    {first second : Function}
    (functions : ClosureTwins pairing labels left first second) :
    HeapTwins pairing labels (left.addFunction first) (right.addFunction second) :=
  twins.grows List.prefix_rfl (.of_scopes rfl) twins.leftSize twins.rightSize twins.scopes
    (twins.functions.push functions) twins.classes twins.instances

/-- Both runs make classes that are twins. -/
theorem addClass
    (twins : HeapTwins pairing labels left right)
    {first second : Class}
    (classes : ClassTwins pairing labels left first second) :
    HeapTwins pairing labels (left.addClass first) (right.addClass second) :=
  twins.grows List.prefix_rfl (.of_scopes rfl) twins.leftSize twins.rightSize twins.scopes
    twins.functions (twins.classes.push classes) twins.instances

theorem addInstance
    (twins : HeapTwins pairing labels left right)
    (created : Instance) :
    HeapTwins pairing labels (left.addInstance created) (right.addInstance created) :=
  twins.grows List.prefix_rfl (.of_scopes rfl) twins.leftSize twins.rightSize twins.scopes
    twins.functions twins.classes (by simp [Heap.addInstance, twins.instances])

theorem setField
    (twins : HeapTwins pairing labels left right)
    (object : InstanceId)
    (name : String)
    (value : Value) :
    HeapTwins pairing labels (left.setField object name value)
      (right.setField object name value) :=
  twins.grows List.prefix_rfl (.of_scopes rfl) twins.leftSize twins.rightSize twins.scopes
    twins.functions twins.classes (by simp [Heap.setField, twins.instances])

end HeapTwins

end Lox.Execution
