import Lox.Proofs.Execution.DetourEnds
import Lox.Proofs.Execution.ForLoops
import Mathlib.Data.Finset.Dedup
import Mathlib.Data.Finset.Range

namespace Lox.Execution

open Scoping

/-!
# Runs of loops

Whatever the state in which a loop is run, it ends like the loop that is meant.  That one is
run as a copy, with the distances that resolution settles for it where there are no blocks,
since functions in the heap may still rely on the distances of the loop itself.
-/

/-! ## Identities for a copy -/

/-- Nothing in a state has an identity from some number on. -/
structure State.Below (base : NodeId) (state : State) : Prop where
  heap : Mentions (· < base) state.heap
  distances : ∀ id, base ≤ id → state.distances.get? id = none

/-- The declarations of all functions and methods in a heap. -/
def Heap.declarations (heap : Heap) : List FunctionDeclaration :=
  heap.functions.toList.map (·.declaration) ++
    heap.classes.toList.flatMap fun made => made.methods.entries.map (·.2.declaration)

/-- The identities in a heap are those in the declarations in it. -/
theorem mentions_of_declarations
    {heap : Heap}
    {kept : NodeId → Prop}
    (known : ∀ declaration ∈ heap.declarations, ∀ id ∈ declaration.ids, kept id) :
    Mentions kept heap where
  scopes := rfl
  functions := by
    refine ⟨rfl, fun id first second isFirst isSecond => ?_⟩
    obtain rfl : first = second := by simpa [isFirst] using isSecond
    have member : first.declaration ∈ heap.declarations :=
      List.mem_append_left _ (List.mem_map_of_mem (Array.mem_toList_iff.mpr
        (Array.mem_of_getElem? isFirst)))
    exact ⟨.self (fun _ => rfl) _ fun id occurs => ⟨rfl, known _ member id occurs⟩, rfl, rfl⟩
  classes := by
    refine ⟨rfl, fun id first second isFirst isSecond => ?_⟩
    obtain rfl : first = second := by simpa [isFirst] using isSecond
    refine ⟨rfl, rfl, List.forall₂_same.mpr fun entry isEntry => ⟨rfl, ?_⟩⟩
    have member : entry.2.declaration ∈ heap.declarations :=
      List.mem_append_right _ (List.mem_flatMap.mpr ⟨first, Array.mem_toList_iff.mpr
        (Array.mem_of_getElem? isFirst), List.mem_map_of_mem isEntry⟩)
    exact ⟨.self (fun _ => rfl) _ fun id occurs => ⟨rfl, known _ member id occurs⟩, rfl, rfl⟩
  instances := rfl

/-- From some number on there is no identity in a state. -/
theorem State.exists_below (state : State) : ∃ base, state.Below base := by
  obtain ⟨base, bound⟩ :=
    (state.heap.declarations.flatMap (·.ids)).toFinset.exists_nat_subset_range
  have below : ∀ declaration ∈ state.heap.declarations, ∀ id ∈ declaration.ids,
      id < max base state.distances.entries.size := fun declaration member id occurs =>
    have inHeap := List.mem_toFinset.mpr (List.mem_flatMap.mpr ⟨declaration, member, occurs⟩)
    lt_of_lt_of_le (Finset.mem_range.mp (bound inHeap)) (le_max_left _ _)
  refine ⟨_, mentions_of_declarations below, fun id above => ?_⟩
  have missing : state.distances.entries[id]? = none :=
    Array.getElem?_eq_none ((le_max_right _ _).trans above)
  rw [Distances.get?, missing, Option.join_none]

/-- A state in which the distances of a copy of a loop have been recorded. -/
def State.recordingLoop (state : State) (loop : ForLoop) (base : NodeId) (place : Place) :
    State :=
  { state with distances := state.distances.record (loop.settlements (base + ·) place) }

/-- The run of a loop as it is meant, as a copy with identities from some number on. -/
def ForLoop.runDirectly
    (loop : ForLoop)
    (base : NodeId)
    (place : Place)
    (fuel : Nat)
    (state : State) :
    EStateM.Result Exit State Unit :=
  (loop.renumbered (base + ·)).run fuel (state.recordingLoop loop base place)

section

variable {loop : ForLoop} {base : NodeId} {place : Place} {state : State}

/-- Whatever is in the state already has the same distances as before. -/
theorem recordingLoop_below {id : NodeId} (below : id < base) :
    (state.recordingLoop loop base place).distances.get? id = state.distances.get? id := by
  refine Distances.get?_record_of_not_settled ?_ _
  intro settlement settled same
  obtain ⟨found, -, rfl⟩ := List.mem_map.mp settled
  have above : base ≤ base + found.id := Nat.le_add_right base found.id
  rw [show base + found.id = id from same] at above
  exact absurd below (Nat.not_lt_of_le above)

namespace ForLoop

variable {resolved : Settlement → Prop}

/-- The copy does the same as the loop, without the blocks. -/
theorem shortened_copy
    (settled : AllSettled state.distances resolved (loop.desugared.sites place))
    (distinct : loop.desugared.ids.Nodup)
    (below : state.Below base) :
    LoopShortened state.distances (state.recordingLoop loop base place).distances loop
      (loop.renumbered (base + ·)) := by
  refine shortened_of_settled settled (recorded place (fun _ _ => Nat.add_left_cancel) distinct ?_)
  exact fun id _ => below.distances (base + id) (Nat.le_add_right base id)

theorem start_shortened (whole : state.Whole) (below : state.Below base) :
    StateShortened state.distances (state.recordingLoop loop base place).distances
      (unmoved state.heap) none state (state.recordingLoop loop base place) :=
  .self whole below.heap fun _ => recordingLoop_below

/-- From runs that are alike, everything goes on alike. -/
theorem alike_of_endAlike
    (whole : state.Whole)
    {fuel : Nat}
    {outcome : EStateM.Result Exit State Unit}
    (ended :
      EndAlike state.distances (state.recordingLoop loop base place).distances
        (unmoved state.heap) none Equal (execute fuel loop.desugared state) outcome) :
    Corresponds (AlikeSince (· < base) state) ExitShortened Eq
      (execute fuel loop.desugared state) outcome := by
  obtain ⟨later, longer, ended⟩ := ended
  have restores := restores_steady.execute fuel loop.desugared state
  have grows := grows_steady.execute fuel loop.desugared state
  have since : ∀ {final final'},
      StateShortened state.distances (state.recordingLoop loop base place).distances later none
        final final' →
      Restores state final → Grows state.heap final.heap →
        AlikeSince (· < base) state final final' :=
    fun related back grown =>
      related.alikeSince longer whole back grown fun _ => recordingLoop_below
  generalize execute fuel loop.desugared state = first at ended restores grows ⊢
  cases ended with
  | ok same related => exact .ok same (since related restores grows)
  | error alike related => exact .error alike (since related restores grows)

/-- What the parser makes of a loop ends like the loop that is meant, if it ends. -/
theorem alike_runDirectly
    (settled : AllSettled state.distances resolved (loop.desugared.sites place))
    (distinct : loop.desugared.ids.Nodup)
    (whole : state.Whole)
    (below : state.Below base)
    {fuel : Nat}
    (ends : ¬ Exhausted (execute fuel loop.desugared state)) :
    Corresponds (AlikeSince (· < base) state) ExitShortened Eq
      (execute fuel loop.desugared state) (loop.runDirectly base place fuel state) := by
  have shortened := shortened_copy settled distinct below
  rcases shortened.run_left fuel _ _ (start_shortened whole below) with lacks | ended
  · exact absurd lacks ends
  · exact alike_of_endAlike whole ended

/-- The loop that is meant, if it ends, ends like what the parser makes of it. -/
theorem runDirectly_alike
    (settled : AllSettled state.distances resolved (loop.desugared.sites place))
    (distinct : loop.desugared.ids.Nodup)
    (whole : state.Whole)
    (below : state.Below base)
    {fuel : Nat}
    (ends : ¬ Exhausted (loop.runDirectly base place fuel state)) :
    Corresponds (AlikeSince (· < base) state) ExitShortened Eq
      (execute (2 * fuel + 4) loop.desugared state) (loop.runDirectly base place fuel state) := by
  have shortened := shortened_copy settled distinct below
  rcases shortened.run_right fuel _ _ (start_shortened whole below) with lacks | ended
  · exact absurd lacks ends
  · exact alike_of_endAlike whole ended

end ForLoop

end

end Lox.Execution
