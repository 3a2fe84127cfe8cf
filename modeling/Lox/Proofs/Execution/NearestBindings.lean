import Lox.Proofs.Execution.ChainWalks
import Lox.Proofs.Execution.DetourStates
import Lox.Proofs.Execution.Frames
import Mathlib.Data.Fintype.Card

namespace Lox.Execution

/-!
# Nearest bindings

A search for a name goes outwards, scope by scope, up to the nearest scope that binds the
name.  It comes to the same scope as an access at the distance of that scope.  So it reads
the same value, or writes the same heap, in which that one binding has changed and nothing
else; and where no scope around binds the name, it fails and leaves everything as it was.
-/

namespace Heap

variable {heap : Heap} {name : String} {scope binder : ScopeId} {distance : Nat}

/-- The nearest scope that binds a name, and the number of steps up to it. -/
structure Nearest
    (heap : Heap)
    (name : String)
    (scope : ScopeId)
    (distance : Nat)
    (binder : ScopeId) :
    Prop where
  reached : heap.ancestor? distance scope = some binder
  bound : (heap.getLocal? binder name).isSome
  first :
    ∀ nearer < distance, ∀ between, heap.ancestor? nearer scope = some between →
      heap.getLocal? between name = none

/-- No scope binds a name, from a scope outwards. -/
def Unbound (heap : Heap) (name : String) (scope : ScopeId) : Prop :=
  ∀ distance around, heap.ancestor? distance scope = some around →
    heap.getLocal? around name = none

/-- From every scope the way outwards comes to an end. -/
def ChainsEnd (heap : Heap) : Prop :=
  ∀ scope, ∃ length, heap.ancestor? length scope = none

/-! ## Searching step by step -/

/-- A search outwards, and the scope that it finds, if there is one. -/
inductive Search (heap : Heap) (name : String) : ScopeId → Option ScopeId → Prop where
  | here {scope : ScopeId}
      (bound : (heap.getLocal? scope name).isSome) :
      Search heap name scope (some scope)
  | outwards {scope outer : ScopeId} {found : Option ScopeId}
      (unbound : heap.getLocal? scope name = none)
      (enclosing : heap.enclosing? scope = some outer)
      (further : Search heap name outer found) :
      Search heap name scope found
  | outermost {scope : ScopeId}
      (unbound : heap.getLocal? scope name = none)
      (alone : heap.enclosing? scope = none) :
      Search heap name scope none

/-- A scope that binds the name is its own nearest one, and no other one is as near. -/
theorem nearest_zero_iff :
    heap.Nearest name scope 0 binder ↔
      scope = binder ∧ (heap.getLocal? scope name).isSome := by
  constructor
  · rintro ⟨reached, bound, -⟩
    obtain rfl : scope = binder := Option.some.inj reached
    exact ⟨rfl, bound⟩
  · rintro ⟨rfl, bound⟩
    exact ⟨rfl, bound, fun nearer before => absurd before (Nat.not_lt_zero nearer)⟩

/-- Any other nearest scope is that of the scope right outside. -/
theorem nearest_succ_iff :
    heap.Nearest name scope (distance + 1) binder ↔
      heap.getLocal? scope name = none ∧
        ∃ outer, heap.enclosing? scope = some outer ∧
          heap.Nearest name outer distance binder := by
  constructor
  · rintro ⟨reached, bound, first⟩
    rw [ancestor?_outwards] at reached
    obtain ⟨outer, enclosing, above⟩ := Option.bind_eq_some_iff.mp reached
    refine ⟨first 0 (Nat.succ_pos distance) scope rfl, outer, enclosing, above, bound, ?_⟩
    intro nearer before between isBetween
    refine first (nearer + 1) (Nat.succ_lt_succ before) between ?_
    rw [ancestor?_outwards, enclosing, Option.bind_some, isBetween]
  · rintro ⟨unbound, outer, enclosing, reached, bound, first⟩
    refine ⟨by rw [ancestor?_outwards, enclosing, Option.bind_some, reached], bound, ?_⟩
    intro nearer before between isBetween
    cases nearer with
    | zero =>
        obtain rfl : scope = between := Option.some.inj isBetween
        exact unbound
    | succ nearer =>
        rw [ancestor?_outwards, enclosing, Option.bind_some] at isBetween
        exact first nearer (Nat.lt_of_succ_lt_succ before) between isBetween

/-- A search within some steps finds the nearest scope that is fewer steps away. -/
theorem binderWithin?_eq_some_iff {fuel : Nat} :
    heap.binderWithin? name fuel scope = some binder ↔
      ∃ distance < fuel, heap.Nearest name scope distance binder := by
  induction fuel generalizing scope with
  | zero => simp [binderWithin?]
  | succ fuel inductionHypothesis =>
      cases found : heap.getLocal? scope name with
      | some value =>
          rw [binderWithin?_of_bound found]
          constructor
          · intro same
            refine ⟨0, Nat.succ_pos fuel, nearest_zero_iff.mpr ⟨Option.some.inj same, ?_⟩⟩
            simp [found]
          · rintro ⟨distance, -, nearest⟩
            cases distance with
            | zero => rw [(nearest_zero_iff.mp nearest).1]
            | succ distance => simp [(nearest_succ_iff.mp nearest).1] at found
      | none =>
          rw [binderWithin?_of_unbound found, Option.bind_eq_some_iff]
          constructor
          · rintro ⟨outer, enclosing, further⟩
            obtain ⟨distance, short, nearest⟩ := inductionHypothesis.mp further
            exact ⟨distance + 1, Nat.succ_lt_succ short,
              nearest_succ_iff.mpr ⟨found, outer, enclosing, nearest⟩⟩
          · rintro ⟨distance, short, nearest⟩
            cases distance with
            | zero =>
                have bound := (nearest_zero_iff.mp nearest).2
                simp [found] at bound
            | succ distance =>
                obtain ⟨-, outer, enclosing, further⟩ := nearest_succ_iff.mp nearest
                exact ⟨outer, enclosing,
                  inductionHypothesis.mpr ⟨distance, Nat.lt_of_succ_lt_succ short, further⟩⟩

/-! ## How far a search goes -/

/-- Steps up in two parts. -/
theorem ancestor?_add (first second : Nat) :
    heap.ancestor? (first + second) scope =
      (heap.ancestor? first scope).bind (heap.ancestor? second) := by
  induction first generalizing scope with
  | zero => simp [ancestor?]
  | succ first inductionHypothesis =>
      rw [Nat.succ_add, ancestor?_outwards, ancestor?_outwards, Option.bind_assoc]
      exact congrArg _ (funext fun outer => inductionHypothesis)

/-- A scope of which something is known is one of the table. -/
theorem lt_of_isSome_getLocal? (bound : (heap.getLocal? scope name).isSome) :
    scope < heap.scopes.size := by
  by_contra beyond
  simp [getLocal?, Array.getElem?_eq_none (Nat.le_of_not_lt beyond)] at bound

theorem lt_of_enclosing? {outer : ScopeId} (enclosing : heap.enclosing? scope = some outer) :
    scope < heap.scopes.size := by
  by_contra beyond
  simp [enclosing?, Array.getElem?_eq_none (Nat.le_of_not_lt beyond)] at enclosing

namespace Nearest

variable (nearest : heap.Nearest name scope distance binder)

include nearest

/-- On the way to the nearest scope there is a scope of the table at every step. -/
theorem passes {step : Nat} (within : step ≤ distance) :
    ∃ between < heap.scopes.size,
      heap.ancestor? step scope = some between ∧
        heap.ancestor? (distance - step) between = some binder := by
  have reached := nearest.reached
  obtain ⟨rest, rfl⟩ : ∃ rest, distance = step + rest := ⟨distance - step, by omega⟩
  rw [ancestor?_add] at reached
  obtain ⟨between, isBetween, onwards⟩ := Option.bind_eq_some_iff.mp reached
  rw [Nat.add_sub_cancel_left]
  refine ⟨between, ?_, isBetween, onwards⟩
  cases rest with
  | zero =>
      obtain rfl : between = binder := Option.some.inj onwards
      exact lt_of_isSome_getLocal? nearest.bound
  | succ rest =>
      rw [ancestor?_outwards] at onwards
      obtain ⟨outer, enclosing, -⟩ := Option.bind_eq_some_iff.mp onwards
      exact lt_of_enclosing? enclosing

/-- No scope is passed twice on the way, since from there the way would be shorter. -/
theorem passes_once
    {step later : Nat}
    (before : step < later)
    (within : later ≤ distance) :
    heap.ancestor? step scope ≠ heap.ancestor? later scope := by
  intro same
  obtain ⟨between, -, isBetween, onwards⟩ := nearest.passes within
  have shortcut : heap.ancestor? (step + (distance - later)) scope = some binder := by
    rw [ancestor?_add, same, isBetween, Option.bind_some, onwards]
  have bound := nearest.bound
  rw [nearest.first _ (by omega) binder shortcut] at bound
  cases bound

/-- The nearest scope is fewer steps away than there are scopes. -/
theorem distance_lt : distance < heap.scopes.size := by
  choose! passed inside isPassed _ using
    fun step (within : step ≤ distance) => nearest.passes within
  let place (step : Fin (distance + 1)) : Fin heap.scopes.size :=
    ⟨passed step, inside step (Nat.le_of_lt_succ step.isLt)⟩
  have apart : Function.Injective place := by
    intro step later same
    have samePlace : heap.ancestor? step scope = heap.ancestor? later scope := by
      rw [isPassed step (by omega), isPassed later (by omega)]
      exact congrArg some (Fin.mk.inj same)
    rcases Nat.lt_trichotomy step later with before | equal | behind
    · exact absurd samePlace (nearest.passes_once before (by omega))
    · exact Fin.ext equal
    · exact absurd samePlace.symm (nearest.passes_once behind (by omega))
  have few := Fintype.card_le_of_injective place apart
  rwa [Fintype.card_fin, Fintype.card_fin] at few

end Nearest

/-- The scope that a search finds is the nearest one, however far away that is. -/
theorem binder?_eq_some_iff :
    heap.binder? scope name = some binder ↔
      ∃ distance, heap.Nearest name scope distance binder := by
  unfold binder?
  rw [binderWithin?_eq_some_iff]
  constructor
  · rintro ⟨distance, -, nearest⟩
    exact ⟨distance, nearest⟩
  · rintro ⟨distance, nearest⟩
    exact ⟨distance, nearest.distance_lt, nearest⟩

/-- A search finds nothing exactly if no scope around binds the name. -/
theorem binder?_eq_none_iff : heap.binder? scope name = none ↔ heap.Unbound name scope := by
  constructor
  · intro nothing
    -- Of the scopes that bind the name, the one at the least distance would be found.
    by_contra bound
    have some : ∃ distance around, heap.ancestor? distance scope = some around ∧
        (heap.getLocal? around name).isSome := by
      simpa [Unbound, Option.isSome_iff_ne_none] using bound
    classical
    obtain ⟨binder, reached, isBound⟩ := Nat.find_spec some
    have nearest : heap.Nearest name scope (Nat.find some) binder := by
      refine ⟨reached, isBound, fun nearer before between isBetween => ?_⟩
      by_contra isThere
      exact Nat.find_min some before
        ⟨between, isBetween, Option.isSome_iff_ne_none.mpr isThere⟩
    rw [binder?_eq_some_iff.mpr ⟨_, nearest⟩] at nothing
    cases nothing
  · intro unbound
    rw [Option.eq_none_iff_forall_ne_some]
    intro binder found
    obtain ⟨distance, nearest⟩ := binder?_eq_some_iff.mp found
    have isBound := nearest.bound
    rw [unbound distance binder nearest.reached] at isBound
    cases isBound

/-- A search goes on in the scope right outside. -/
theorem binder?_of_enclosing
    (unbound : heap.getLocal? scope name = none)
    {outer : ScopeId}
    (enclosing : heap.enclosing? scope = some outer) :
    heap.binder? scope name = heap.binder? outer name := by
  refine Option.ext fun binder => ?_
  rw [binder?_eq_some_iff, binder?_eq_some_iff]
  constructor
  · rintro ⟨distance, nearest⟩
    cases distance with
    | zero =>
        have bound := (nearest_zero_iff.mp nearest).2
        simp [unbound] at bound
    | succ distance =>
        obtain ⟨-, other, isOther, further⟩ := nearest_succ_iff.mp nearest
        obtain rfl : outer = other := Option.some.inj (enclosing.symm.trans isOther)
        exact ⟨distance, further⟩
  · rintro ⟨distance, nearest⟩
    exact ⟨distance + 1, nearest_succ_iff.mpr ⟨unbound, outer, enclosing, nearest⟩⟩

/-- A search ends in a scope with none outside. -/
theorem binder?_of_outermost
    (unbound : heap.getLocal? scope name = none)
    (alone : heap.enclosing? scope = none) :
    heap.binder? scope name = none := by
  refine binder?_eq_none_iff.mpr fun distance around reached => ?_
  cases distance with
  | zero =>
      obtain rfl : scope = around := Option.some.inj reached
      exact unbound
  | succ distance => simp [ancestor?_outwards, alone] at reached

/-- Where the way outwards ends, a search comes to an end with the scope that is computed. -/
theorem search_binder? (ends : heap.ChainsEnd) (name : String) (scope : ScopeId) :
    heap.Search name scope (heap.binder? scope name) := by
  obtain ⟨length, ended⟩ := ends scope
  induction length generalizing scope with
  | zero => cases ended
  | succ length inductionHypothesis =>
      by_cases bound : (heap.getLocal? scope name).isSome
      · rw [binder?_eq_some_iff.mpr ⟨0, nearest_zero_iff.mpr ⟨rfl, bound⟩⟩]
        exact .here bound
      have unbound := Option.not_isSome_iff_eq_none.mp bound
      rw [ancestor?_outwards] at ended
      cases enclosing : heap.enclosing? scope with
      | none =>
          rw [binder?_of_outermost unbound enclosing]
          exact .outermost unbound enclosing
      | some outer =>
          rw [enclosing] at ended
          rw [binder?_of_enclosing unbound enclosing]
          exact .outwards unbound enclosing (inductionHypothesis outer ended)

/-! ## Writing where a search ends -/

section

variable {value : Value}

@[simp]
theorem enclosing?_define (target : ScopeId) :
    (heap.define target name value).enclosing? scope = heap.enclosing? scope := by
  simp only [enclosing?, define, Array.getElem?_modify]
  split
  · cases heap.scopes[scope]? <;> rfl
  · rfl

@[simp]
theorem ancestor?_define (target : ScopeId) :
    (heap.define target name value).ancestor? distance scope =
      heap.ancestor? distance scope := by
  induction distance generalizing scope with
  | zero => rfl
  | succ distance inductionHypothesis =>
      rw [ancestor?_outwards, ancestor?_outwards, enclosing?_define]
      exact congrArg _ (funext fun outer => inductionHypothesis)

/-- A scope of the table has the value that is bound in it. -/
theorem getLocal?_define_self (inTable : scope < heap.scopes.size) :
    (heap.define scope name value).getLocal? scope name = some value := by
  simp [getLocal?, define, Array.getElem?_modify, Array.getElem?_eq_getElem inTable]

theorem getLocal?_define_of_ne_scope
    {target : ScopeId}
    (different : target ≠ scope)
    (other : String) :
    (heap.define target name value).getLocal? scope other = heap.getLocal? scope other := by
  simp [getLocal?, define, Array.getElem?_modify, different]

/-- A name that is bound again stays bound where it was, and is bound nowhere else. -/
theorem isSome_getLocal?_define
    (bound : (heap.getLocal? binder name).isSome)
    (scope : ScopeId)
    (other : String) :
    ((heap.define binder name value).getLocal? scope other).isSome =
      (heap.getLocal? scope other).isSome := by
  by_cases sameName : name = other
  · subst sameName
    by_cases sameScope : binder = scope
    · subst sameScope
      rw [getLocal?_define_self (lt_of_isSome_getLocal? bound), bound]
      rfl
    · rw [getLocal?_define_of_ne_scope sameScope]
  · rw [getLocal?_define_of_ne sameName]

/-- So the nearest scopes are what they were. -/
theorem Nearest.define
    (bound : (heap.getLocal? binder name).isSome)
    {step : Nat}
    {other : ScopeId}
    (nearest : heap.Nearest name scope step other) :
    (heap.define binder name value).Nearest name scope step other where
  reached := by rw [ancestor?_define, nearest.reached]
  bound := by rw [isSome_getLocal?_define bound, nearest.bound]
  first nearer before between isBetween := by
    rw [ancestor?_define] at isBetween
    rw [← Option.not_isSome_iff_eq_none, isSome_getLocal?_define bound,
      nearest.first nearer before between isBetween]
    simp

end

end Heap

/-! ## The value of a search -/

section

variable {state : State} {name : Identifier} {distance : Nat} {binder : ScopeId}

/-- A search outwards has the value of the nearest scope. -/
theorem lookUpOutwards_of_nearest
    (nearest : state.heap.Nearest name.text state.scope distance binder)
    {found : Value}
    (known : state.heap.getLocal? binder name.text = some found) :
    lookUpOutwards name state = .ok found state := by
  have isBinder := Heap.binder?_eq_some_iff.mpr ⟨distance, nearest⟩
  simp [lookUpOutwards, Heap.get?, isBinder, known]

/-- An assignment outwards writes to the nearest scope. -/
theorem assignOutwards_of_nearest
    (nearest : state.heap.Nearest name.text state.scope distance binder)
    (value : Value) :
    assignOutwards name value state =
      .ok () { state with heap := state.heap.define binder name.text value } := by
  have isBinder := Heap.binder?_eq_some_iff.mpr ⟨distance, nearest⟩
  simp [assignOutwards, Heap.assign?, isBinder]

/--
A search for a name outwards ends at the scope that is computed for it.  If a scope at the
least possible distance binds the name, then reading the name is reading it at this
distance, and assigning to it gives the very heap that an assignment at this distance
gives.  In this heap the name has the assigned value from every scope that has the same
nearest binding; all other bindings are as they were, and so is what encloses what.  If no
scope around binds the name, then reading it and assigning to it are errors about the name
on its line, and leave the state as it was.
-/
theorem search_agrees_with_distance
    (state : State)
    (ends : state.heap.ChainsEnd)
    (name : Identifier)
    (value : Value) :
    state.heap.Search name.text state.scope (state.heap.binder? state.scope name.text) ∧
      (∀ distance binder,
        state.heap.Nearest name.text state.scope distance binder →
          ∃ found changed,
            state.heap.getAt? state.scope distance name.text = some found ∧
              lookUpOutwards name state = .ok found state ∧
              state.heap.assignAt? state.scope distance name.text value = some changed ∧
              assignOutwards name value state = .ok () { state with heap := changed } ∧
              (∀ scope step, state.heap.Nearest name.text scope step binder →
                lookUpOutwards name { state with heap := changed, scope := scope } =
                  .ok value { state with heap := changed, scope := scope }) ∧
              (∀ scope other, (scope, other) ≠ (binder, name.text) →
                changed.getLocal? scope other = state.heap.getLocal? scope other) ∧
              ∀ scope, changed.enclosing? scope = state.heap.enclosing? scope) ∧
      (state.heap.Unbound name.text state.scope →
        lookUpOutwards name state = .error (.error (.undefinedVariable name)) state ∧
          assignOutwards name value state =
            .error (.error (.undefinedVariable name)) state) := by
  refine ⟨Heap.search_binder? ends name.text state.scope, ?bound, ?unbound⟩
  case bound =>
    intro distance binder nearest
    obtain ⟨found, known⟩ := Option.isSome_iff_exists.mp nearest.bound
    refine ⟨found, state.heap.define binder name.text value, ?_,
      lookUpOutwards_of_nearest nearest known, ?_,
      assignOutwards_of_nearest nearest value, ?again, ?others,
      fun scope => Heap.enclosing?_define binder⟩
    · rw [Heap.getAt?, nearest.reached, Option.bind_some, known]
    · rw [Heap.assignAt?, nearest.reached, Option.map_some]
    case again =>
      intro scope step again
      have inTable := Heap.lt_of_isSome_getLocal? nearest.bound
      exact lookUpOutwards_of_nearest (again.define nearest.bound)
        (Heap.getLocal?_define_self inTable)
    case others =>
      intro scope other different
      by_cases sameName : name.text = other
      · have sameScope : binder ≠ scope := fun same => different (by rw [same, sameName])
        exact Heap.getLocal?_define_of_ne_scope sameScope other
      · exact Heap.getLocal?_define_of_ne sameName binder scope value
  case unbound =>
    intro unbound
    have nothing := Heap.binder?_eq_none_iff.mpr unbound
    constructor
    · simp [lookUpOutwards, Heap.get?, nothing]
    · simp [assignOutwards, Heap.assign?, nothing]

/-- Three scopes; the one in the middle hides a global name from the innermost one. -/
def hidingState : State :=
  let globals : Scope := ⟨⟨[("a", .nil)]⟩, none⟩
  let middle : Scope := ⟨⟨[("a", .bool true)]⟩, some 0⟩
  let innermost : Scope := ⟨⟨[("b", .nil)]⟩, some 1⟩
  ⟨⟨#[globals, middle, innermost], #[], #[], #[]⟩, 0, 2, .empty, .empty, ⟨0⟩⟩

theorem search_agrees_with_distance_hidden :
    hidingState.heap.ChainsEnd ∧
      hidingState.heap.Nearest "a" 2 1 1 ∧
      hidingState.heap.getAt? 2 1 "a" = some (.bool true) ∧
      lookUpOutwards ⟨"a", 7⟩ hidingState = .ok (.bool true) hidingState ∧
      hidingState.heap.Unbound "c" 2 ∧
      lookUpOutwards ⟨"c", 7⟩ hidingState =
        .error (.error (.undefinedVariable ⟨"c", 7⟩)) hidingState := by
  have ends : hidingState.heap.ChainsEnd := by
    intro scope
    match scope with
    | 0 | 1 | 2 => exact ⟨3, rfl⟩
    | _ + 3 => exact ⟨1, rfl⟩
  have nearest : hidingState.heap.Nearest "a" 2 1 1 := by
    refine ⟨rfl, rfl, fun nearer before between isBetween => ?_⟩
    obtain rfl : nearer = 0 := by omega
    obtain rfl : 2 = between := Option.some.inj isBetween
    rfl
  have unbound : hidingState.heap.Unbound "c" 2 :=
    Heap.binder?_eq_none_iff.mp rfl
  obtain ⟨found, changed, reads, looksUp, -⟩ :=
    (search_agrees_with_distance hidingState ends ⟨"a", 7⟩ .nil).2.1 1 1 nearest
  obtain rfl : Value.bool true = found := Option.some.inj reads
  exact ⟨ends, nearest, reads, looksUp, unbound,
    ((search_agrees_with_distance hidingState ends ⟨"c", 7⟩ .nil).2.2 unbound).1⟩

end

end Lox.Execution
