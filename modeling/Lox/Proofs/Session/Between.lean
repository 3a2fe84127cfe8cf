import Lox.Proofs.Execution.Mentions
import Lox.Proofs.Session.History

namespace Lox.Session

open Scoping Execution

/-!
# States between programs

The state of a session between programs can come about in many ways: by programs that
were resolved and run, whatever became of them, by programs that the parser rejected,
and by statements that were run without having been resolved.  In all of them the
functions of the heap rely on what is recorded already, and later programs do not change
it for them.
-/

/-- An identity that has been handed out, but not to an occurrence of given programs. -/
def Stray (programs : List (List Stmt)) (session : Session) (id : NodeId) : Prop :=
  id < session.nextId ∧
    ∀ program ∈ programs, id ∉ idsOf (Stmt.occurrencesOfAll program)

/--
A session between programs, with programs that were parsed in it and that have only been
run, if at all, after having been resolved.  Any other statements may have been run with
any distances for their occurrences, as long as these belong to none of the programs: also
statements that were parsed in the session, but are not among the programs.
-/
inductive Between : List (List Stmt) → Session → Prop where
  | start (clock : Clock) (nextId : NodeId) : Between [] ⟨State.initial clock, nextId⟩
  | advanced {programs session nextId} :
      Between programs session →
      session.nextId ≤ nextId →
      Between programs { session with nextId := nextId }
  | parsed {programs session tokens program after} :
      Between programs session →
      parseTokens Grammar.program tokens session = .ok program after →
      Between (program :: programs) after
  | ran {programs session program} (fuel : Nat) :
      Between programs session →
      program ∈ programs →
      Between programs (endState (runProgram fuel program session))
  | strayed {programs session body distances} (fuel : Nat) :
      Between programs session →
      (∀ id ∈ idsOf (Stmt.occurrencesOfAll body), Stray programs session id) →
      (∀ id, Stray programs session id ∨
        distances.get? id = session.state.distances.get? id) →
      Between programs
        { session with
          state :=
            endState (Execution.interpret fuel body
              { session.state with distances := distances }) }

/-- Running a source leads from a state between programs to another, however it ends. -/
theorem Between.run
    {programs : List (List Stmt)}
    {session : Session}
    (between : Between programs session)
    (fuel : Nat)
    (source : List UInt8) :
    ∃ added, Between (added ++ programs) (endState (run fuel source session)) := by
  unfold Session.run scan
  cases Source.scan source with
  | error error => exact ⟨[], between⟩
  | ok tokens =>
      rw [bind_of_ok (pure_apply tokens session)]
      unfold runTokens
      rw [bind_apply]
      cases given : parseTokens Grammar.program tokens session with
      | error stop after =>
          obtain ⟨advances, same⟩ := advances_of_misparsed given
          refine ⟨[], ?_⟩
          dsimp only [endState]
          rw [same]
          exact between.advanced advances
      | ok program after =>
          exact ⟨[program], (between.parsed given).ran fuel List.mem_cons_self⟩

/-- What is settled under an identity in given programs is recorded. -/
def Faithful (programs : List (List Stmt)) (session : Session) (id : NodeId) : Prop :=
  id < session.nextId ∧
    ∀ program ∈ programs, ∀ settlement ∈ (Scoping.resolve program).settled,
      settlement.id = id → session.state.distances.get? id = settlement.depth

/--
What given programs have to do with a state between programs: no identity is settled in
two ways or will be handed out again, and functions rely on nothing that is not recorded.
-/
structure Orderly (programs : List (List Stmt)) (session : Session) : Prop where
  separate : Separate programs
  below :
    ∀ program ∈ programs, ∀ id ∈ idsOf (Stmt.occurrencesOfAll program), id < session.nextId
  recorded : RecordedAtMost programs session.state.distances
  unused : ∀ id, session.nextId ≤ id → session.state.distances.get? id = none
  faithful : Mentions (Faithful programs session) session.state.heap

section

variable {programs : List (List Stmt)} {session after : Session} {program : List Stmt}

/-- An identity that is settled is one of the program. -/
theorem mem_ids_of_settled
    {settlement : Settlement}
    (settled : settlement ∈ (Scoping.resolve program).settled) :
    settlement.id ∈ idsOf (Stmt.occurrencesOfAll program) :=
  (settled_sublist program).subset (List.mem_map_of_mem settled)

/-- Every occurrence of a program that is accepted is settled. -/
theorem settled_of_mem_ids
    (accepted : (Scoping.resolve program).verdict = .ok ())
    {id : NodeId}
    (occurs : id ∈ idsOf (Stmt.occurrencesOfAll program)) :
    ∃ settlement ∈ (Scoping.resolve program).settled, settlement.id = id := by
  rw [← occurrencesAt_statements program .outermost, ← settlements_occurrences, idsOf,
    List.map_map, ← programSites, ← settled_of_accepted accepted] at occurs
  obtain ⟨settlement, settled, rfl⟩ := List.mem_map.mp occurs
  exact ⟨settlement, settled, rfl⟩

theorem start_orderly (clock : Clock) (nextId : NodeId) :
    Orderly [] ⟨State.initial clock, nextId⟩ where
  separate := by simp [Separate]
  below := by simp
  recorded := by simp [RecordedAtMost]
  unused := by simp [State.initial]
  faithful := mentions_initial _ clock

theorem Orderly.advanced
    (orderly : Orderly programs session)
    {nextId : NodeId}
    (advances : session.nextId ≤ nextId) :
    Orderly programs { session with nextId := nextId } where
  separate := orderly.separate
  below program member id occurs :=
    Nat.lt_of_lt_of_le (orderly.below program member id occurs) advances
  recorded := orderly.recorded
  unused id beyond := orderly.unused id (Nat.le_trans advances beyond)
  faithful :=
    orderly.faithful.imp fun _ known => ⟨Nat.lt_of_lt_of_le known.1 advances, known.2⟩

/-! ## Parsing -/

/-- A program that is new has identities of its own. -/
theorem parsed_orderly
    {tokens : List Token}
    (orderly : Orderly programs session)
    (given : parseTokens Grammar.program tokens session = .ok program after) :
    Orderly (program :: programs) after := by
  obtain ⟨fresh, same⟩ := fresh_of_parsed given
  obtain ⟨state, nextId⟩ := after
  obtain rfl : state = session.state := same
  have above : ∀ settlement ∈ (Scoping.resolve program).settled,
      session.nextId ≤ settlement.id := fun settlement settled =>
    (fresh.bounded _ (mem_ids_of_settled settled)).1
  have older := orderly.advanced fresh.ordered
  refine ⟨?_, ?_, ?_, older.unused, ?_⟩
  · refine orderly.separate.cons fresh.distinct ?_
    intro settlement settled other member old inOther same
    have below := orderly.below other member old.id (mem_ids_of_settled inOther)
    rw [← same] at below
    exact absurd below (Nat.not_lt_of_le (above settlement settled))
  · exact List.forall_mem_cons.mpr
      ⟨fun id occurs => (fresh.bounded id occurs).2, older.below⟩
  · refine List.forall_mem_cons.mpr ⟨fun settlement settled => ?_, orderly.recorded⟩
    exact .inl (orderly.unused _ (above settlement settled))
  · refine orderly.faithful.imp fun id known =>
      ⟨Nat.lt_of_lt_of_le known.1 fresh.ordered, List.forall_mem_cons.mpr ⟨?_, known.2⟩⟩
    -- What is in the heap already has an identity below those of the new program.
    intro settlement settled same
    have beyond := above settlement settled
    rw [same] at beyond
    exact absurd known.1 (Nat.not_lt_of_le beyond)

/-! ## Resolving -/

/-- What functions rely on stays as it is when a program is resolved. -/
theorem Faithful.recording
    (orderly : Orderly programs session)
    (member : program ∈ programs)
    {id : NodeId}
    (known : Faithful programs session id) :
    Faithful programs (session.recording program) id := by
  refine ⟨known.1, fun other inPrograms settlement settled same => ?_⟩
  obtain rfl := same
  -- Resolving records what was settled under the identity, or leaves what was recorded.
  rcases orderly.separate.recorded_later orderly.recorded member inPrograms settled with
    now | before
  · exact now
  · rw [before]
    exact known.2 other inPrograms settlement settled rfl

theorem recording_orderly
    (orderly : Orderly programs session)
    (member : program ∈ programs) :
    Orderly programs (session.recording program) where
  separate := orderly.separate
  below := orderly.below
  recorded := orderly.separate.recorded_atMost orderly.recorded member
  unused id beyond := by
    refine (Distances.get?_record_of_not_settled ?_ _).trans (orderly.unused id beyond)
    intro settlement settled same
    have below := orderly.below program member settlement.id (mem_ids_of_settled settled)
    rw [same] at below
    exact absurd below (Nat.not_lt_of_le beyond)
  faithful := orderly.faithful.imp fun _ known => known.recording orderly member

/-- A program that is accepted relies on what is recorded when it has been resolved. -/
theorem faithful_of_accepted
    (orderly : Orderly programs session)
    (member : program ∈ programs)
    (accepted : (Scoping.resolve program).verdict = .ok ())
    {id : NodeId}
    (occurs : id ∈ idsOf (Stmt.occurrencesOfAll program)) :
    Faithful programs (session.recording program) id := by
  refine ⟨orderly.below program member id occurs, fun other inPrograms found inOther same => ?_⟩
  obtain ⟨settlement, settled, rfl⟩ := settled_of_mem_ids accepted occurs
  obtain rfl := orderly.separate other inPrograms found inOther program member settlement
    settled same
  exact orderly.separate.recorded_now orderly.recorded member settled

/-! ## Running -/

/-- A run of statements that rely on what is recorded keeps a session in order. -/
theorem interpret_orderly
    (orderly : Orderly programs session)
    {body : List Stmt}
    (known : ∀ id ∈ idsOf (Stmt.occurrencesOfAll body), Faithful programs session id)
    (fuel : Nat) :
    Orderly programs
      { session with state := endState (Execution.interpret fuel body session.state) } := by
  have unchanged := distances_steady.interpret fuel body session.state
  have mentions := interpret_mentions orderly.faithful known fuel
  generalize endState (Execution.interpret fuel body session.state) = final
    at unchanged mentions ⊢
  refine ⟨orderly.separate, orderly.below, ?_, ?_, mentions.imp fun id known => ?_⟩
  · rw [unchanged]
    exact orderly.recorded
  · rw [unchanged]
    exact orderly.unused
  · unfold Faithful
    rw [unchanged]
    exact known

/-- A run on the state of a session ends in that of the run. -/
theorem endState_interpret (fuel : Nat) (program : List Stmt) (session : Session) :
    endState (interpret fuel program session) =
      { session with
        state := endState (Execution.interpret fuel program session.state) } := by
  unfold interpret onState
  cases Execution.interpret fuel program session.state <;> rfl

theorem ran_orderly
    (orderly : Orderly programs session)
    (member : program ∈ programs)
    (fuel : Nat) :
    Orderly programs (endState (runProgram fuel program session)) := by
  have resolved := recording_orderly orderly member
  unfold runProgram
  rw [bind_apply, resolve_apply]
  cases accepted : (Scoping.resolve program).verdict with
  | error error => exact resolved
  | ok _ =>
      dsimp only
      rw [endState_interpret]
      exact interpret_orderly resolved
        (fun _ occurs => faithful_of_accepted orderly member accepted occurs) fuel

/-- Nothing is settled under an identity that belongs to none of the programs. -/
theorem Stray.not_settled
    {id : NodeId}
    (stray : Stray programs session id)
    (member : program ∈ programs)
    {settlement : Settlement}
    (settled : settlement ∈ (Scoping.resolve program).settled) :
    settlement.id ≠ id := by
  rintro rfl
  exact stray.2 program member (mem_ids_of_settled settled)

/-- Distances of what belongs to none of the programs may be changed in any way. -/
theorem Orderly.changed
    (orderly : Orderly programs session)
    {distances : Distances}
    (others : ∀ id, Stray programs session id ∨
      distances.get? id = session.state.distances.get? id) :
    Orderly programs
      { session with state := { session.state with distances := distances } } := by
  have kept : ∀ program ∈ programs, ∀ settlement ∈ (Scoping.resolve program).settled,
      distances.get? settlement.id = session.state.distances.get? settlement.id :=
    fun program member settlement settled =>
      (others settlement.id).resolve_left fun stray =>
        stray.not_settled member settled rfl
  refine ⟨orderly.separate, orderly.below, ?_, ?_, ?_⟩
  · intro program member settlement settled
    rw [kept program member settlement settled]
    exact orderly.recorded program member settlement settled
  · intro id beyond
    have same := (others id).resolve_left fun stray =>
      absurd stray.1 (Nat.not_lt_of_le beyond)
    exact same.trans (orderly.unused id beyond)
  · refine orderly.faithful.imp fun id known =>
      ⟨known.1, fun program member settlement settled same => ?_⟩
    have same' := kept program member settlement settled
    rw [same] at same'
    exact same'.trans (known.2 program member settlement settled same)

/-- Nothing that is settled in the programs depends on what belongs to none of them. -/
theorem Stray.faithful
    {id : NodeId}
    (stray : Stray programs session id) :
    Faithful programs session id := by
  refine ⟨stray.1, fun program member settlement settled same => ?_⟩
  exact absurd same (stray.not_settled member settled)

/-- Statements that are none of the programs may be run with any distances. -/
theorem strayed_orderly
    (orderly : Orderly programs session)
    {body : List Stmt}
    {distances : Distances}
    (strays : ∀ id ∈ idsOf (Stmt.occurrencesOfAll body), Stray programs session id)
    (others : ∀ id, Stray programs session id ∨
      distances.get? id = session.state.distances.get? id)
    (fuel : Nat) :
    Orderly programs
      { session with
        state :=
          endState (Execution.interpret fuel body
            { session.state with distances := distances }) } := by
  refine interpret_orderly (orderly.changed others) (fun id occurs => ?_) fuel
  exact Stray.faithful (strays id occurs)

end

/-- Every state between programs is in order. -/
theorem between_orderly
    {programs : List (List Stmt)}
    {session : Session}
    (between : Between programs session) :
    Orderly programs session := by
  induction between with
  | start clock nextId => exact start_orderly clock nextId
  | advanced _ advances orderly => exact orderly.advanced advances
  | parsed _ given orderly => exact parsed_orderly orderly given
  | ran fuel _ member orderly => exact ran_orderly orderly member fuel
  | strayed fuel _ strays others orderly => exact strayed_orderly orderly strays others fuel

end Lox.Session
