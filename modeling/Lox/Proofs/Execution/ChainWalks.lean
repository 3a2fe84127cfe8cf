import Lox.Proofs.Execution.TaskTwins

namespace Lox.Execution

open Scoping

/-!
# Searching outwards

An occurrence goes to the scope at its distance, or to the global scope.  A plain search
for its name goes outwards from the current scope instead, to the nearest scope that has
the name.  Both come to the same scope as long as the labels of no nearer scope allow for
the name.
-/

/-! ## Plain searches -/

/-- The value of a variable, searched outwards from the current scope. -/
def lookUpOutwards (name : Identifier) : Eval Value := fun state =>
  match state.heap.get? state.scope name.text with
  | some value => .ok value state
  | none => .error (.error (.undefinedVariable name)) state

/-- Assign to a variable, searched outwards from the current scope. -/
def assignOutwards (name : Identifier) (value : Value) : Eval Unit := fun state =>
  match state.heap.assign? state.scope name.text value with
  | some heap => .ok () { state with heap := heap }
  | none => .error (.error (.undefinedVariable name)) state

/-- What happens at the site of a variable or `this` that a task evaluates. -/
def Task.deed? : Task → Option Deed
  | .expression _ (.reference occurrence) => some (.reads occurrence)
  | .expression _ (.assign target _) => some (.assigns target)
  | .expression _ (.this id line) => some (.this id line)
  | _ => none

/--
The node of a task does what a search from the current scope does: it has the same
value or error, or assigns in the same scope once the value is given.
-/
def SearchAgrees (state : State) : Task → Prop
  | .expression _ (.reference occurrence) =>
      lookUp occurrence.id occurrence.name state = lookUpOutwards occurrence.name state
  | .expression _ (.assign target value) =>
      ∀ fuel found after, evaluate fuel value state = .ok found after →
        assignTo target found after = assignOutwards target.name found after
  | .expression _ (.this id line) =>
      lookUp id ⟨receiverName, line⟩ state = lookUpOutwards ⟨receiverName, line⟩ state
  | _ => True

/-! ## Scopes that never have a name -/

/-- A scope with the label never has a name. -/
def Label.Lacks (label : Label) (name : String) : Prop :=
  ∀ other, ¬label.renames name other

/--
No scope nearer than the one at a depth ever has a name; without a depth, no local
scope does.
-/
def Clear (levels : List Label) (name : String) : Option Nat → Prop
  | some depth => ∀ nearer < depth, ∀ label, levels[nearer]? = some label → label.Lacks name
  | none => ∀ label ∈ levels, label.Lacks name

variable {pairing : Pairing} {labels levels : List Label} {heap : Heap} {scope : ScopeId}
  {name : String}

theorem HeapTwins.getLocal?_of_lacks
    (twins : HeapTwins pairing labels heap heap)
    {label : Label}
    (known : labels[scope]? = some label)
    (lacks : label.Lacks name) :
    heap.getLocal? scope name = none := by
  obtain ⟨found, _, isFound, -, -, relates⟩ := twins.find known
  cases bound : found.bindings.get? name with
  | none => simp [Heap.getLocal?, isFound, bound]
  | some value =>
      obtain ⟨other, renames⟩ := relates.covered bound
      exact absurd renames (lacks other)

/-- A layered scope is one of the table. -/
theorem Layered.within
    (layered : Layered pairing labels heap scope levels)
    (twins : HeapTwins pairing labels heap heap) :
    scope < heap.scopes.size := by
  rw [twins.leftSize]
  cases layered with
  | outermost => exact (List.getElem?_eq_some_iff.mp twins.globals).1
  | inner isLabel _ _ _ => exact (List.getElem?_eq_some_iff.mp isLabel).1

/-! ## The scope that a search comes to -/

/-- The scope at a depth, or without one the global scope if it has the name. -/
def Heap.holder?
    (heap : Heap)
    (globals scope : ScopeId)
    (name : String) :
    Option Nat → Option ScopeId
  | some depth => heap.ancestor? depth scope
  | none => (heap.getLocal? globals name).map fun _ => globals

theorem binderWithin?_of_bound
    {value : Value}
    (bound : heap.getLocal? scope name = some value)
    (fuel : Nat) :
    heap.binderWithin? name (fuel + 1) scope = some scope := by
  simp [Heap.binderWithin?, bound]

theorem binderWithin?_of_unbound
    (unbound : heap.getLocal? scope name = none)
    (fuel : Nat) :
    heap.binderWithin? name (fuel + 1) scope =
      (heap.enclosing? scope).bind (heap.binderWithin? name fuel) := by
  simp [Heap.binderWithin?, unbound]

/-- Every step of a search goes to an older scope, so that it needs no more steps than scopes. -/
theorem binderWithin?_of_clear
    (twins : HeapTwins pairing labels heap heap)
    (layered : Layered pairing labels heap scope levels)
    {settled : Option Nat}
    (clear : Clear levels name settled)
    (bound : ∀ depth, settled = some depth →
      ∃ value, heap.getAt? scope depth name = some value)
    {fuel : Nat}
    (enough : scope < fuel) :
    heap.binderWithin? name fuel scope = heap.holder? pairing.globals scope name settled := by
  -- The induction is on the scopes around; the fuel stays above the position of the scope.
  induction layered generalizing settled fuel with
  | outermost =>
      obtain ⟨fuel, rfl⟩ := Nat.exists_eq_succ_of_ne_zero (Nat.ne_zero_of_lt enough)
      cases found : heap.getLocal? pairing.globals name with
      | some value =>
          rw [binderWithin?_of_bound found]
          cases settled with
          | none => simp [Heap.holder?, found]
          | some depth =>
              obtain ⟨_, known⟩ := bound depth rfl
              cases depth with
              | zero => rfl
              | succ depth =>
                  simp [Heap.getAt?, Heap.ancestor?, twins.outermost] at known
      | none =>
          rw [binderWithin?_of_unbound found, twins.outermost]
          cases settled with
          | none => simp [Heap.holder?, found]
          | some depth =>
              obtain ⟨_, known⟩ := bound depth rfl
              cases depth with
              | zero => simp [Heap.getAt?, Heap.ancestor?, found] at known
              | succ depth =>
                  simp [Heap.getAt?, Heap.ancestor?, twins.outermost] at known
  | @inner scope outer label levels isLabel enclosing older _ inductionHypothesis =>
      obtain ⟨fuel, rfl⟩ := Nat.exists_eq_succ_of_ne_zero (Nat.ne_zero_of_lt enough)
      have enoughOutside : outer < fuel := Nat.lt_of_lt_of_le older (Nat.le_of_lt_succ enough)
      cases settled with
      | none =>
          have lacks := clear label List.mem_cons_self
          have outside : Clear levels name none :=
            fun label member => clear label (List.mem_cons_of_mem _ member)
          rw [binderWithin?_of_unbound (twins.getLocal?_of_lacks isLabel lacks), enclosing]
          exact inductionHypothesis outside (by simp) enoughOutside
      | some depth =>
          cases depth with
          | zero =>
              obtain ⟨value, known⟩ := bound 0 rfl
              exact binderWithin?_of_bound known fuel
          | succ depth =>
              have lacks := clear 0 (Nat.succ_pos depth) label rfl
              have outside : Clear levels name (some depth) :=
                fun nearer before => clear (nearer + 1) (Nat.succ_lt_succ before)
              rw [binderWithin?_of_unbound (twins.getLocal?_of_lacks isLabel lacks), enclosing,
                Heap.holder?, Heap.ancestor?, enclosing]
              refine inductionHypothesis outside (fun found same => ?_) enoughOutside
              obtain rfl := Option.some.inj same
              obtain ⟨value, known⟩ := bound (depth + 1) rfl
              refine ⟨value, ?_⟩
              simpa [Heap.getAt?, Heap.ancestor?, enclosing] using known

/-- A search from a scope comes to the scope that an occurrence goes to. -/
theorem binder?_of_clear
    (twins : HeapTwins pairing labels heap heap)
    (layered : Layered pairing labels heap scope levels)
    {settled : Option Nat}
    (clear : Clear levels name settled)
    (bound : ∀ depth, settled = some depth →
      ∃ value, heap.getAt? scope depth name = some value) :
    heap.binder? scope name = heap.holder? pairing.globals scope name settled :=
  binderWithin?_of_clear twins layered clear bound (layered.within twins)

variable {state : State}

/-- An occurrence has the value that a search for its name finds. -/
theorem lookUp_of_clear
    (twins : StateTwins pairing labels state state)
    (layered : Layered pairing labels state.heap state.scope levels)
    {id : NodeId}
    {name : Identifier}
    (clear : Clear levels name.text (state.distances.get? id))
    (bound : ∀ depth, state.distances.get? id = some depth →
      state.HasValue depth name.text) :
    lookUp id name state = lookUpOutwards name state := by
  have binder := binder?_of_clear twins.heap layered clear bound
  have same : state.heap.get? state.scope name.text =
      match state.distances.get? id with
      | some distance => state.heap.getAt? state.scope distance name.text
      | none => state.global? name.text := by
    unfold Heap.get?
    rw [binder, ← twins.leftGlobals]
    cases state.distances.get? id with
    | some distance => rfl
    | none =>
        unfold State.global?
        cases found : state.heap.getLocal? state.globals name.text with
        | some value => simp [Heap.holder?, found]
        | none => simp [Heap.holder?, found]
  unfold lookUp lookUpOutwards
  rw [same, bind_of_ok (get_apply state)]
  cases state.distances.get? id with
  | some distance =>
      dsimp only
      cases state.heap.getAt? state.scope distance name.text with
      | some value => rfl
      | none => rfl
  | none =>
      dsimp only
      cases state.global? name.text with
      | some value => rfl
      | none => rfl

/-- An assignment goes to the scope that a search for its name finds. -/
theorem assignTo_of_clear
    (twins : StateTwins pairing labels state state)
    (layered : Layered pairing labels state.heap state.scope levels)
    {target : Reference}
    (clear : Clear levels target.name.text (state.distances.get? target.id))
    (bound : ∀ depth, state.distances.get? target.id = some depth →
      state.HasValue depth target.name.text)
    (value : Value) :
    assignTo target value state = assignOutwards target.name value state := by
  have binder := binder?_of_clear twins.heap layered clear bound
  rw [← twins.leftGlobals] at binder
  unfold assignTo assignOutwards Heap.assign?
  rw [binder]
  cases state.distances.get? target.id with
  | some distance =>
      simp only [Heap.holder?]
      cases state.heap.ancestor? distance state.scope with
      | some written => rfl
      | none => rfl
  | none =>
      simp only [Heap.holder?, State.global?]
      cases state.heap.getLocal? state.globals target.name.text with
      | some found => rfl
      | none => rfl

end Lox.Execution
