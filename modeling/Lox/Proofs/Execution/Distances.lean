import Lox.Execution.State

namespace Lox.Execution

/-!
# Recorded distances

Recording the distance of an occurrence leaves those of all others as they were.
What resolution has settled is recorded exactly, as long as no identity was
settled in two ways.
-/

namespace Distances

@[simp]
theorem get?_empty (id : NodeId) : empty.get? id = none := by
  simp [empty, get?]

/-- A recorded distance is found under its occurrence, and only there. -/
theorem get?_insert (distances : Distances) (id other : NodeId) (depth : Nat) :
    (distances.insert id depth).get? other =
      if id = other then some depth else distances.get? other := by
  unfold insert get?
  split
  next within =>
    rw [Array.getElem?_setIfInBounds]
    by_cases same : id = other
    · simp [same, same ▸ within]
    · simp [same]
  next beyond =>
    rw [Array.getElem?_push]
    have size : (distances.entries ++
        Array.replicate (id - distances.entries.size) none).size = id := by
      rw [Array.size_append, Array.size_replicate]
      exact Nat.add_sub_of_le (Nat.le_of_not_lt beyond)
    rw [size]
    by_cases same : id = other
    · simp [same]
    · rw [if_neg (Ne.symm same), if_neg same, Array.getElem?_append]
      split
      · rfl
      next outside =>
        have missing : distances.entries[other]? = none :=
          Array.getElem?_eq_none (Nat.le_of_not_lt outside)
        rw [missing, Array.getElem?_replicate]
        split <;> rfl

theorem record_cons
    (distances : Distances)
    (first : Scoping.Settlement)
    (rest : List Scoping.Settlement) :
    distances.record (first :: rest) =
      (match first.depth with
        | some depth => distances.insert first.id depth
        | none => distances).record rest :=
  rfl

/-- Recording nothing but global occurrences changes nothing. -/
theorem record_of_global
    {settled : List Scoping.Settlement}
    (global : ∀ settlement ∈ settled, settlement.depth = none)
    (distances : Distances) :
    distances.record settled = distances := by
  induction settled generalizing distances with
  | nil => rfl
  | cons first rest inductionHypothesis =>
      obtain ⟨here, behind⟩ := List.forall_mem_cons.mp global
      rw [record_cons, here]
      exact inductionHypothesis behind distances

/-- Occurrences that were not settled keep their distances. -/
theorem get?_record_of_not_settled
    {settled : List Scoping.Settlement}
    {id : NodeId}
    (others : ∀ settlement ∈ settled, settlement.id ≠ id)
    (distances : Distances) :
    (distances.record settled).get? id = distances.get? id := by
  induction settled generalizing distances with
  | nil => rfl
  | cons first rest inductionHypothesis =>
      rw [record_cons, inductionHypothesis fun later member => others later (by simp [member])]
      cases first.depth with
      | none => rfl
      | some depth =>
          have other : first.id ≠ id := others first (by simp)
          simp [get?_insert, other]

/-- An occurrence that is settled in one way gets the depth at which it is. -/
theorem get?_record
    {settled : List Scoping.Settlement}
    {id : NodeId}
    {depth : Option Nat}
    (same : ∀ settlement ∈ settled, settlement.id = id → settlement.depth = depth)
    {distances : Distances}
    (before : distances.get? id = none ∨ distances.get? id = depth)
    (recorded : (∃ settlement ∈ settled, settlement.id = id) ∨ distances.get? id = depth) :
    (distances.record settled).get? id = depth := by
  induction settled generalizing distances with
  | nil => simpa [record] using recorded
  | cons first rest inductionHypothesis =>
      rw [record_cons]
      have others : ∀ settlement ∈ rest, settlement.id = id → settlement.depth = depth :=
        fun settlement member => same settlement (by simp [member])
      by_cases isFirst : first.id = id
      · have known : first.depth = depth := same first (by simp) isFirst
        have here : (match first.depth with
            | some depth => distances.insert first.id depth
            | none => distances).get? id = depth := by
          rw [known]
          cases depth with
          | none => simpa using before
          | some depth => simp [get?_insert, isFirst]
        exact inductionHypothesis others (.inr here) (.inr here)
      · have unchanged : (match first.depth with
            | some depth => distances.insert first.id depth
            | none => distances).get? id = distances.get? id := by
          cases first.depth with
          | none => rfl
          | some depth => simp [get?_insert, isFirst]
        rw [← unchanged] at before
        refine inductionHypothesis others before ?_
        rcases recorded with ⟨settlement, member, found⟩ | already
        · rcases List.mem_cons.mp member with rfl | later
          · exact absurd found isFirst
          · exact .inl ⟨settlement, later, found⟩
        · exact .inr (unchanged.trans already)

/-- Distances that are recorded depend on identities and depths only. -/
theorem record_congr
    {settled others : List Scoping.Settlement}
    (same : others.map (fun settlement => (settlement.id, settlement.depth)) =
      settled.map (fun settlement => (settlement.id, settlement.depth)))
    (distances : Distances) :
    distances.record others = distances.record settled := by
  induction settled generalizing others distances with
  | nil =>
      obtain rfl : others = [] := by simpa using same
      rfl
  | cons first rest inductionHypothesis =>
      cases others with
      | nil => simp at same
      | cons other others =>
          simp only [List.map_cons, List.cons.injEq, Prod.mk.injEq] at same
          obtain ⟨⟨sameId, sameDepth⟩, sameRest⟩ := same
          rw [record_cons, record_cons, sameId, sameDepth]
          exact inductionHypothesis sameRest _

end Distances

end Lox.Execution
