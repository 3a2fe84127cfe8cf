import Lox.Execution.State
import Lox.Proofs.Bindings
import Lox.Proofs.Scoping.Proper

namespace Lox.Execution

open Scoping

/-!
# Scopes of a run and places of the program

A scope of a run covers a place of the program if the scopes above it correspond
to the local scopes around the place, one by one, and bind the names that were
declared there.  Nothing that a run does takes this away again: scopes keep what
encloses them, and names stay bound.
-/

/-! ## Growing heaps -/

/-- A heap has more scopes than another one, or more names in them. -/
def Grows (before after : Heap) : Prop :=
  ∀ (id : ScopeId) (scope : Scope), before.scopes[id]? = some scope →
    ∃ later, after.scopes[id]? = some later ∧
      later.enclosing = scope.enclosing ∧
      ∀ name, scope.bindings.contains name = true → later.bindings.contains name = true

namespace Grows

variable {before middle after : Heap}

theorem of_scopes (same : after.scopes = before.scopes) : Grows before after :=
  fun _ scope known => ⟨scope, by rw [same, known], rfl, fun _ bound => bound⟩

theorem refl (heap : Heap) : Grows heap heap :=
  of_scopes rfl

theorem trans (first : Grows before middle) (second : Grows middle after) :
    Grows before after := by
  intro id scope known
  obtain ⟨later, found, enclosing, bound⟩ := first id scope known
  obtain ⟨last, known, enclosingLast, boundLast⟩ := second id later found
  exact ⟨last, known, enclosingLast.trans enclosing,
    fun name isBound => boundLast name (bound name isBound)⟩

theorem addScope (heap : Heap) (scope : Scope) : Grows heap (heap.addScope scope) := by
  intro id found known
  refine ⟨found, ?_, rfl, fun _ bound => bound⟩
  obtain ⟨within, -⟩ := Array.getElem?_eq_some_iff.mp known
  have before : id ≠ heap.scopes.size := Nat.ne_of_lt within
  simp [Heap.addScope, Array.getElem?_push, before, known]

/-- A new binding takes nothing away. -/
theorem define (heap : Heap) (scope : ScopeId) (name : String) (value : Value) :
    Grows heap (heap.define scope name value) := by
  intro id found known
  unfold Heap.define
  simp only [Array.getElem?_modify, known]
  by_cases same : scope = id
  · refine ⟨{ found with bindings := found.bindings.insert name value },
      by simp [same], rfl, ?_⟩
    intro other bound
    exact (Bindings.contains_insert _ _ _ _).mpr (.inr bound)
  · exact ⟨found, by simp [same], rfl, fun _ bound => bound⟩

/-- What is around a scope stays the same. -/
theorem enclosing?
    (grows : Grows before after)
    {id : ScopeId}
    {scope : Scope}
    (known : before.scopes[id]? = some scope) :
    after.enclosing? id = before.enclosing? id := by
  obtain ⟨later, laterKnown, enclosing, -⟩ := grows id scope known
  simp [Heap.enclosing?, known, laterKnown, enclosing]

/-- The scope a number of steps up stays the same. -/
theorem ancestor?
    (grows : Grows before after)
    {distance : Nat}
    {scope found : ScopeId}
    (known : before.ancestor? distance scope = some found) :
    after.ancestor? distance scope = some found := by
  induction distance generalizing scope with
  | zero => exact known
  | succ distance inductionHypothesis =>
      unfold Heap.ancestor? Heap.enclosing? at known ⊢
      cases table : before.scopes[scope]? with
      | none => simp [table] at known
      | some here =>
          obtain ⟨later, laterKnown, enclosing, -⟩ := grows scope here table
          simp only [table, Option.bind_some] at known
          simp only [laterKnown, Option.bind_some, enclosing]
          cases outer : here.enclosing with
          | none => simp [outer] at known
          | some above =>
              simp only [outer] at known ⊢
              exact inductionHypothesis known

end Grows

/-! ## Covered places -/

/--
A scope covers a place: the scopes above it exist, one for each local scope of the
place, and bind the declared names, except for one that is being initialized.
-/
def Covers
    (heap : Heap)
    (scope : ScopeId)
    (place : Place)
    (initializing : Option String) :
    Prop :=
  ∀ (depth : Nat) (names : List String), place.scopes[depth]? = some names →
    ∃ id found, heap.ancestor? depth scope = some id ∧ heap.scopes[id]? = some found ∧
      ∀ name ∈ names, (depth = 0 → initializing ≠ some name) →
        found.bindings.contains name = true

namespace Covers

variable {heap after : Heap} {scope : ScopeId} {place : Place}
  {initializing : Option String}

theorem of_global (none : place.scopes = []) : Covers heap scope place initializing := by
  intro depth names known
  simp [none] at known

theorem grows
    (covers : Covers heap scope place initializing)
    (grown : Grows heap after) :
    Covers after scope place initializing := by
  intro depth names known
  obtain ⟨id, found, above, table, bound⟩ := covers depth names known
  obtain ⟨later, laterTable, -, kept⟩ := grown id found table
  exact ⟨id, later, grown.ancestor? above, laterTable,
    fun name member waiting => kept name (bound name member waiting)⟩

theorem of_scopes
    (covers : Covers heap scope place initializing)
    {other : Place}
    (same : other.scopes = place.scopes) :
    Covers heap scope other initializing :=
  fun depth names known => covers depth names (same ▸ known)

/-- At the start of an initializer, its name need not be bound. -/
theorem declaring
    (covers : Covers heap scope place none)
    (name : String) :
    Covers heap scope (place.declaring [name]) (some name) := by
  intro depth names known
  cases shape : place.scopes with
  | nil => simp [Place.declaring, shape] at known
  | cons innermost outer =>
      simp only [Place.declaring, shape] at known
      cases depth with
      | zero =>
          obtain rfl : innermost ++ [name] = names := by simpa using known
          obtain ⟨id, found, above, table, bound⟩ := covers 0 innermost (by simp [shape])
          refine ⟨id, found, above, table, fun other member waiting => ?_⟩
          -- Only the new name may be missing, and it is the one being initialized.
          rcases List.mem_append.mp member with inInnermost | isName
          · exact bound other inInnermost (by simp)
          · exact absurd (List.mem_singleton.mp isName ▸ rfl) (waiting rfl)
      | succ depth =>
          have outerKnown : outer[depth]? = some names := by simpa using known
          obtain ⟨id, found, above, table, bound⟩ :=
            covers (depth + 1) names (by simpa [shape] using outerKnown)
          exact ⟨id, found, above, table, fun other member _ => bound other member (by simp)⟩

/-- Once its name is bound, a declaration is covered. -/
theorem define
    {name : String}
    (covers : Covers heap scope (place.declaring [name]) (some name))
    (value : Value) :
    Covers (heap.define scope name value) scope (place.declaring [name]) none := by
  intro depth names known
  have grown := Grows.define heap scope name value
  obtain ⟨id, found, above, table, bound⟩ := covers depth names known
  cases depth with
  | zero =>
      obtain rfl : scope = id := by simpa [Heap.ancestor?] using above
      refine ⟨scope, { found with bindings := found.bindings.insert name value }, rfl,
        by simp [Heap.define, Array.getElem?_modify, table], ?_⟩
      intro other member _
      rw [Bindings.contains_insert]
      by_cases same : name = other
      · exact .inl same
      · exact .inr (bound other member fun _ waiting => same (Option.some.inj waiting))
  | succ depth =>
      obtain ⟨later, laterTable, -, kept⟩ := grown id found table
      exact ⟨id, later, grown.ancestor? above, laterTable,
        fun other member _ => kept other (bound other member (by simp))⟩

/-- A new scope covers the start of a local scope whose names it binds. -/
theorem addScope
    (covers : Covers heap scope place none)
    {bindings : Bindings Value}
    {names : List String}
    (binds : ∀ name ∈ names, bindings.contains name = true) :
    Covers (heap.addScope ⟨bindings, some scope⟩) heap.scopes.size
      (place.entering.declaring names) none := by
  have grown := Grows.addScope heap ⟨bindings, some scope⟩
  have table : (heap.addScope ⟨bindings, some scope⟩).scopes[heap.scopes.size]? =
      some ⟨bindings, some scope⟩ := by
    simp [Heap.addScope]
  intro depth found known
  cases depth with
  | zero =>
      obtain rfl : names = found := by
        simpa [Place.entering, Place.declaring] using known
      exact ⟨heap.scopes.size, _, rfl, table, fun name member _ => binds name member⟩
  | succ depth =>
      obtain ⟨id, outer, above, outerTable, bound⟩ :=
        (covers.grows grown) depth found
          (by simpa [Place.entering, Place.declaring] using known)
      refine ⟨id, outer, ?_, outerTable, fun name member _ =>
        bound name member (by simp)⟩
      unfold Heap.ancestor? Heap.enclosing?
      rw [table]
      exact above

/-- A name that is declared at a covered place is bound where the place has it. -/
theorem bound
    (covers : Covers heap scope place initializing)
    {name : String}
    {depth : Nat}
    (declared : place.depth? name = some depth)
    (initialized : depth = 0 → initializing ≠ some name) :
    ∃ id found value, heap.ancestor? depth scope = some id ∧
      heap.scopes[id]? = some found ∧ found.bindings.get? name = some value := by
  have binds := place.binds_depth? name
  rw [declared] at binds
  obtain ⟨⟨names, known, member⟩, -⟩ := binds
  obtain ⟨id, found, above, table, all⟩ := covers depth names known
  obtain ⟨value, isBound⟩ :=
    Option.isSome_iff_exists.mp (all name member initialized)
  exact ⟨id, found, value, above, table, isBound⟩

/-- A scope exists wherever a place has one. -/
theorem exists_scope
    (covers : Covers heap scope place initializing)
    {name : String}
    {depth : Nat}
    (declared : place.depth? name = some depth) :
    ∃ id found, heap.ancestor? depth scope = some id ∧ heap.scopes[id]? = some found := by
  have binds := place.binds_depth? name
  rw [declared] at binds
  obtain ⟨⟨names, known, -⟩, -⟩ := binds
  obtain ⟨id, found, above, table, -⟩ := covers depth names known
  exact ⟨id, found, above, table⟩

end Covers

end Lox.Execution
