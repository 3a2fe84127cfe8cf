import Lox.Session
import Lox.Proofs.Execution.Agreement
import Lox.Proofs.Execution.Distances
import Lox.Proofs.Grammar.Rounds
import Lox.Proofs.Grammar.ProperTrees
import Lox.Proofs.Scoping.Exact
import Lox.Proofs.Source.Keywords
import Mathlib.Data.List.Nodup

namespace Lox.Session

open Scoping Execution

/-!
# What every session keeps

In a session, token lists are parsed, and programs that were parsed are resolved
and run, in any order and whatever becomes of them.  All of them share one state.
It stays coherent because no two occurrences share an identity, so that what is
resolved later leaves the distances alone on which older functions rely.
-/

/--
A session that can come about, with the programs that were parsed in it.  No scan
gives an identifier that is spelled like a keyword, so none is parsed.
-/
inductive Reachable : List (List Stmt) → Session → Prop where
  | start (clock : Clock) : Reachable [] (start clock)
  | parsed {programs session tokens program after} :
      Reachable programs session →
      Grammar.LegibleTokens tokens →
      parseTokens Grammar.program tokens session = .ok program after →
      Reachable (program :: programs) after
  | misparsed {programs session tokens stop after} :
      Reachable programs session →
      parseTokens Grammar.program tokens session = .error stop after →
      Reachable programs after
  | finished {programs session program after} (fuel : Nat) :
      Reachable programs session →
      program ∈ programs →
      runProgram fuel program session = .ok () after →
      Reachable programs after
  | stopped {programs session program stop after} (fuel : Nat) :
      Reachable programs session →
      program ∈ programs →
      runProgram fuel program session = .error stop after →
      Reachable programs after

/-- What resolution has settled in one of some programs, and what has been recorded. -/
def Resolved
    (programs : List (List Stmt))
    (distances : Distances)
    (settlement : Settlement) :
    Prop :=
  ∃ program ∈ programs,
    settlement ∈ (Scoping.resolve program).settled ∧
      distances.get? settlement.id = settlement.depth

/-- No identity is settled in two ways in some programs. -/
def Separate (programs : List (List Stmt)) : Prop :=
  ∀ program ∈ programs, ∀ settlement ∈ (Scoping.resolve program).settled,
    ∀ other ∈ programs, ∀ found ∈ (Scoping.resolve other).settled,
      settlement.id = found.id → settlement = found

/-- What is settled in some programs is recorded, or nothing is. -/
def RecordedAtMost (programs : List (List Stmt)) (distances : Distances) : Prop :=
  ∀ program ∈ programs, ∀ settlement ∈ (Scoping.resolve program).settled,
    distances.get? settlement.id = none ∨ distances.get? settlement.id = settlement.depth

/--
What the programs of a session have to do with its state: no identity is settled
in two ways or will be handed out again, nothing else is recorded, and the heap is
coherent with what has been recorded.
-/
structure Invariant (programs : List (List Stmt)) (session : Session) : Prop where
  proper : ∀ program ∈ programs, Stmt.AllProper program
  separate :
    ∀ program ∈ programs, ∀ settlement ∈ (Scoping.resolve program).settled,
      ∀ other ∈ programs, ∀ found ∈ (Scoping.resolve other).settled,
        settlement.id = found.id → settlement = found
  below :
    ∀ program ∈ programs, ∀ settlement ∈ (Scoping.resolve program).settled,
      settlement.id < session.nextId
  recorded :
    ∀ program ∈ programs, ∀ settlement ∈ (Scoping.resolve program).settled,
      session.state.distances.get? settlement.id = none ∨
        session.state.distances.get? settlement.id = settlement.depth
  unused : ∀ id, session.nextId ≤ id → session.state.distances.get? id = none
  coherent :
    Coherent session.state.distances (Resolved programs session.state.distances)
      session.state.heap

/-! ## Before the first program -/

theorem start_invariant (clock : Clock) : Invariant [] (start clock) where
  proper := by simp
  separate := by simp
  below := by simp
  recorded := by simp
  unused := by simp [start, State.initial]
  coherent := by
    refine Coherent.empty.addScope (.ofList ?_)
    simp [NativeFunction.name, receiverName, superclassName]

/-! ## Parsing -/

/-- The identities that resolution settles are some of those of the program, in order. -/
theorem settled_sublist (program : List Stmt) :
    ((Scoping.resolve program).settled.map (·.id)).Sublist
      (idsOf (Stmt.occurrencesOfAll program)) := by
  rw [(resolve_eq program).2, ← occurrencesAt_statements program .outermost,
    ← settlements_occurrences, idsOf, List.map_map]
  exact ((List.takeWhile_sublist _).filterMap _).map _

/-- In a program without repeated identities, each is settled in one way. -/
theorem settlement_unique
    {program : List Stmt}
    (distinct : (idsOf (Stmt.occurrencesOfAll program)).Nodup)
    {settlement found : Settlement}
    (first : settlement ∈ (Scoping.resolve program).settled)
    (second : found ∈ (Scoping.resolve program).settled)
    (same : settlement.id = found.id) :
    settlement = found :=
  List.inj_on_of_nodup_map ((settled_sublist program).nodup distinct) first second same

/-- Identities may be left out. -/
theorem Invariant.of_nextId
    {programs : List (List Stmt)}
    {session : Session}
    (holds : Invariant programs session)
    {nextId : NodeId}
    (advances : session.nextId ≤ nextId) :
    Invariant programs { session with nextId := nextId } :=
  { holds with
    below := fun program member settlement settled =>
      Nat.lt_of_lt_of_le (holds.below program member settlement settled) advances
    unused := fun id beyond => holds.unused id (Nat.le_trans advances beyond) }

section

variable {programs : List (List Stmt)} {session after : Session} {program : List Stmt}

/-- A program without repeated identities and with none of the others may be added. -/
theorem Separate.cons
    (separate : Separate programs)
    (distinct : (idsOf (Stmt.occurrencesOfAll program)).Nodup)
    (apart : ∀ settlement ∈ (Scoping.resolve program).settled,
      ∀ other ∈ programs, ∀ old ∈ (Scoping.resolve other).settled,
        settlement.id ≠ old.id) :
    Separate (program :: programs) := by
  refine List.forall_mem_cons.mpr ⟨fun settlement settled => ?_,
    fun other member old inOther => ?_⟩
  · refine List.forall_mem_cons.mpr ⟨fun second settledToo same => ?_,
      fun other member old inOther same => ?_⟩
    · exact settlement_unique distinct settled settledToo same
    · exact absurd same (apart settlement settled other member old inOther)
  · refine List.forall_mem_cons.mpr ⟨fun settlement settled same => ?_, ?_⟩
    · exact absurd same.symm (apart settlement settled other member old inOther)
    · exact separate other member old inOther

/-- Tokens are parsed from the next identity on, and nothing but that identity changes. -/
theorem read_of_parsed
    {parser : Grammar.Parser α}
    {tokens : List Token}
    {value : α}
    (given : parseTokens parser tokens session = .ok value after) :
    ∃ final,
      parser (Grammar.Reader.start tokens session.nextId) = .ok value final ∧
        after = { session with nextId := final.nextId } := by
  unfold parseTokens at given
  split at given
  next found final parsed =>
    obtain ⟨rfl, rfl⟩ := EStateM.Result.ok.inj given
    exact ⟨final, parsed, rfl⟩
  · cases given

theorem read_of_misparsed
    {parser : Grammar.Parser α}
    {tokens : List Token}
    {stop : Stop}
    (stopped : parseTokens parser tokens session = .error stop after) :
    ∃ error final,
      parser (Grammar.Reader.start tokens session.nextId) = .error error final ∧
        after = { session with nextId := final.nextId } := by
  unfold parseTokens at stopped
  split at stopped
  · cases stopped
  next error final parsed =>
    obtain ⟨-, rfl⟩ := EStateM.Result.error.inj stopped
    exact ⟨error, final, parsed, rfl⟩

/-- The occurrences of a program that is parsed get new identities, and nothing else happens. -/
theorem fresh_of_parsed
    {tokens : List Token}
    (given : parseTokens Grammar.program tokens session = .ok program after) :
    FreshIds (idsOf (Stmt.occurrencesOfAll program)) session.nextId after.nextId ∧
      after.state = session.state := by
  obtain ⟨final, parsed, rfl⟩ := read_of_parsed given
  rw [idsOf_statements]
  exact ⟨(Grammar.program_reads parsed).1.fresh, rfl⟩

/-- A program that is new has identities of its own. -/
theorem parsed_invariant
    {tokens : List Token}
    (holds : Invariant programs session)
    (legible : Grammar.LegibleTokens tokens)
    (given : parseTokens Grammar.program tokens session = .ok program after) :
    Invariant (program :: programs) after := by
  have fresh := (fresh_of_parsed given).1
  obtain ⟨final, parsed, rfl⟩ := read_of_parsed given
  have bounds : ∀ settlement ∈ (Scoping.resolve program).settled,
      session.nextId ≤ settlement.id ∧ settlement.id < final.nextId := by
    intro settlement settled
    refine fresh.bounded _ ((settled_sublist program).subset ?_)
    exact List.mem_map_of_mem settled
  -- Whatever was settled before has an identity below those of the new program.
  have apart : ∀ settlement ∈ (Scoping.resolve program).settled,
      ∀ other ∈ programs, ∀ old ∈ (Scoping.resolve other).settled,
        settlement.id ≠ old.id := by
    intro settlement settled other member old inOther same
    have above := (bounds settlement settled).1
    rw [same] at above
    exact absurd (holds.below other member old inOther) (Nat.not_lt_of_le above)
  have older := holds.of_nextId fresh.ordered
  refine ⟨?_, ?_, ?_, ?_, older.unused, ?_⟩
  · exact List.forall_mem_cons.mpr
      ⟨Grammar.allProper_of_parsed parsed legible, holds.proper⟩
  · exact Separate.cons holds.separate fresh.distinct apart
  · exact List.forall_mem_cons.mpr
      ⟨fun settlement settled => (bounds settlement settled).2, older.below⟩
  · refine List.forall_mem_cons.mpr ⟨fun settlement settled => ?_, holds.recorded⟩
    exact .inl (holds.unused _ (bounds settlement settled).1)
  · refine holds.coherent.of_resolution fun settlement isResolved => ⟨?_, rfl⟩
    obtain ⟨other, member, rest⟩ := isResolved
    exact ⟨other, List.mem_cons_of_mem _ member, rest⟩

/-- Tokens without a syntax error are a program that a new session parses. -/
theorem parseTokens_of_faultless
    {tokens : List Token}
    (faultless : (Grammar.readProgram (Grammar.Reader.start tokens 0)).errors = [])
    (clock : Clock) :
    let read := Grammar.readProgram (Grammar.Reader.start tokens 0)
    parseTokens Grammar.program tokens (start clock) =
      .ok read.statements ⟨State.initial clock, read.reader.nextId⟩ := by
  intro read
  have given := Grammar.program_of_faultless faultless
  unfold parseTokens
  simp only [start]
  rw [given]

/-- A program that is rejected by the parser only uses up identities. -/
theorem advances_of_misparsed
    {tokens : List Token}
    {stop : Stop}
    (stopped : parseTokens Grammar.program tokens session = .error stop after) :
    session.nextId ≤ after.nextId ∧ after = { session with nextId := after.nextId } := by
  obtain ⟨error, final, parsed, rfl⟩ := read_of_misparsed stopped
  have moves := Grammar.moves_program (Grammar.Reader.start tokens session.nextId)
  rw [parsed] at moves
  exact ⟨(Grammar.recedes_of_moves moves).nextId, rfl⟩

theorem misparsed_invariant
    {tokens : List Token}
    {stop : Stop}
    (holds : Invariant programs session)
    (stopped : parseTokens Grammar.program tokens session = .error stop after) :
    Invariant programs after := by
  obtain ⟨advances, same⟩ := advances_of_misparsed stopped
  rw [same]
  exact holds.of_nextId advances

/-! ## Resolving -/

/-- A session in which the distances of a program have been recorded. -/
def recording (session : Session) (program : List Stmt) : Session :=
  { session with
    state :=
      { session.state with
        distances :=
          session.state.distances.record (Scoping.resolve program).settled } }

/-- Resolving records distances, and stops if the program is rejected. -/
theorem resolve_apply (program : List Stmt) (session : Session) :
    resolve program session =
      match (Scoping.resolve program).verdict with
      | .ok () => .ok () (session.recording program)
      | .error error => .error (.diagnostic (.scoping error)) (session.recording program) := by
  have recorded : record (Scoping.resolve program).settled session =
      .ok () (session.recording program) :=
    rfl
  unfold resolve
  rw [bind_of_ok recorded]
  cases (Scoping.resolve program).verdict <;> rfl

/-- What resolution settles in a program is what is recorded. -/
theorem Separate.recorded_now
    (separate : Separate programs)
    (recorded : RecordedAtMost programs session.state.distances)
    (member : program ∈ programs)
    {settlement : Settlement}
    (settled : settlement ∈ (Scoping.resolve program).settled) :
    (session.recording program).state.distances.get? settlement.id = settlement.depth := by
  refine Distances.get?_record ?_ (recorded program member settlement settled)
    (.inl ⟨settlement, settled, rfl⟩)
  intro other inSettled same
  rw [separate program member other inSettled program member settlement settled same]

/-- What has been settled in any program is recorded as before, or now. -/
theorem Separate.recorded_later
    (separate : Separate programs)
    (recorded : RecordedAtMost programs session.state.distances)
    (member : program ∈ programs)
    {other : List Stmt}
    (inPrograms : other ∈ programs)
    {settlement : Settlement}
    (settled : settlement ∈ (Scoping.resolve other).settled) :
    (session.recording program).state.distances.get? settlement.id = settlement.depth ∨
      (session.recording program).state.distances.get? settlement.id =
        session.state.distances.get? settlement.id := by
  -- An identity that is settled again can only be the same settlement of the same program.
  by_cases shared : ∃ found ∈ (Scoping.resolve program).settled, found.id = settlement.id
  · obtain ⟨found, inProgram, same⟩ := shared
    obtain rfl := separate program member found inProgram other inPrograms settlement
      settled same
    exact .inl (separate.recorded_now recorded member inProgram)
  · refine .inr (Distances.get?_record_of_not_settled ?_ _)
    exact fun found inProgram same => shared ⟨found, inProgram, same⟩

/-- Recording does not contradict what is settled in other programs. -/
theorem Separate.recorded_atMost
    (separate : Separate programs)
    (recorded : RecordedAtMost programs session.state.distances)
    (member : program ∈ programs) :
    RecordedAtMost programs (session.recording program).state.distances := by
  intro other inPrograms settlement settled
  rcases separate.recorded_later recorded member inPrograms settled with now | before
  · exact .inr now
  · rw [before]
    exact recorded other inPrograms settlement settled

/-- What resolution settles in a program is what is recorded. -/
theorem Invariant.recorded_now
    (holds : Invariant programs session)
    (member : program ∈ programs)
    {settlement : Settlement}
    (settled : settlement ∈ (Scoping.resolve program).settled) :
    (session.recording program).state.distances.get? settlement.id = settlement.depth :=
  Separate.recorded_now holds.separate holds.recorded member settled

/-- What has been settled in any program is recorded as before, or now. -/
theorem Invariant.recorded_later
    (holds : Invariant programs session)
    (member : program ∈ programs)
    {other : List Stmt}
    (inPrograms : other ∈ programs)
    {settlement : Settlement}
    (settled : settlement ∈ (Scoping.resolve other).settled) :
    (session.recording program).state.distances.get? settlement.id = settlement.depth ∨
      (session.recording program).state.distances.get? settlement.id =
        session.state.distances.get? settlement.id :=
  Separate.recorded_later holds.separate holds.recorded member inPrograms settled

/-- Recording keeps the invariant: what was recorded for others stays. -/
theorem recording_invariant
    (holds : Invariant programs session)
    (member : program ∈ programs) :
    Invariant programs (session.recording program) := by
  refine ⟨holds.proper, holds.separate, holds.below, ?_, ?_, ?_⟩
  · exact Separate.recorded_atMost holds.separate holds.recorded member
  · intro id beyond
    refine (Distances.get?_record_of_not_settled ?_ _).trans (holds.unused id beyond)
    intro settlement settled same
    have below := holds.below program member settlement settled
    rw [same] at below
    exact absurd below (Nat.not_lt_of_le beyond)
  · refine holds.coherent.of_resolution ?_
    rintro settlement ⟨other, inPrograms, settled, known⟩
    have kept : (session.recording program).state.distances.get? settlement.id =
        settlement.depth := by
      rcases holds.recorded_later member inPrograms settled with now | before
      · exact now
      · exact before.trans known
    exact ⟨⟨other, inPrograms, settled, kept⟩, kept.trans known.symm⟩

/-! ## Running -/

/-- A program that is accepted is ready to run once its distances are recorded. -/
theorem ready_of_accepted
    (holds : Invariant programs session)
    (member : program ∈ programs)
    (accepted : (Scoping.resolve program).verdict = .ok ()) :
    Ready (Resolved programs (session.recording program).state.distances) .outermost none
      (programSites program) (session.recording program).state := by
  have faultless := faultless_of_accepted accepted
  refine ⟨(recording_invariant holds member).coherent, .of_global rfl, ?_, by simp⟩
  intro site inSites
  refine ⟨List.findSome?_eq_none_iff.mp faultless site inSites, ?_, ?_⟩
  · exact sound_statements program (holds.proper program member) Place.sound_outermost site
      inSites
  · intro id name known
    have settled := mem_settled_of_accepted accepted inSites known
    have recorded := holds.recorded_now member settled
    exact ⟨⟨program, member, settled, recorded⟩, recorded⟩

/-- Running an accepted program keeps the invariant, however it ends. -/
theorem interpret_invariant
    (holds : Invariant programs session)
    (member : program ∈ programs)
    (accepted : (Scoping.resolve program).verdict = .ok ())
    (fuel : Nat) :
    match interpret fuel program (session.recording program) with
    | .ok _ after => Invariant programs after
    | .error _ after => Invariant programs after := by
  have recorded := recording_invariant holds member
  have keeps := interpret_keeps fuel (holds.proper program member)
    (ready_of_accepted holds member accepted)
  -- A run records no distances, so only the heap has to be looked at.
  have ending : ∀ state, Evolves (session.recording program).state state →
      Coherent state.distances
        (Resolved programs (session.recording program).state.distances) state.heap →
      Invariant programs ⟨state, (session.recording program).nextId⟩ := by
    intro state evolves coherent
    refine ⟨recorded.proper, recorded.separate, recorded.below, ?_, ?_, ?_⟩
    · rw [evolves.distances]
      exact recorded.recorded
    · rw [evolves.distances]
      exact recorded.unused
    · rw [evolves.distances] at coherent ⊢
      exact coherent
  unfold Keeps at keeps
  unfold interpret onState
  cases run : Execution.interpret fuel program (session.recording program).state with
  | ok value state =>
      rw [run] at keeps
      exact ending state keeps.1 keeps.2.1
  | error exit state =>
      rw [run] at keeps
      exact ending state keeps.1 keeps.2.1

/-- Resolving and running a program keeps the invariant, whatever becomes of it. -/
theorem runProgram_invariant
    (holds : Invariant programs session)
    (member : program ∈ programs)
    (fuel : Nat) :
    match runProgram fuel program session with
    | .ok _ after => Invariant programs after
    | .error _ after => Invariant programs after := by
  unfold runProgram
  rw [bind_apply, resolve_apply]
  cases accepted : (Scoping.resolve program).verdict with
  | ok _ => exact interpret_invariant holds member accepted fuel
  | error error => exact recording_invariant holds member

end

/-- Every session that can come about satisfies the invariant. -/
theorem reachable_invariant
    {programs : List (List Stmt)}
    {session : Session}
    (reachable : Reachable programs session) :
    Invariant programs session := by
  induction reachable with
  | start clock => exact start_invariant clock
  | parsed _ legible given holds => exact parsed_invariant holds legible given
  | misparsed _ stopped holds => exact misparsed_invariant holds stopped
  | finished fuel _ member given holds =>
      have kept := runProgram_invariant holds member fuel
      rwa [given] at kept
  | stopped fuel _ member stopped holds =>
      have kept := runProgram_invariant holds member fuel
      rwa [stopped] at kept

/--
A program that is spelled in a new session and accepted runs there from the initial state,
with the distances that resolution has settled.
-/
theorem exists_first_run
    (tokens : List Token)
    (program : List Stmt)
    (legible : Grammar.LegibleTokens tokens)
    (faultless : (Grammar.readProgram (Grammar.Reader.start tokens 0)).errors = [])
    (read : (Grammar.readProgram (Grammar.Reader.start tokens 0)).statements = program)
    (verdict : (Scoping.resolve program).verdict = .ok ()) :
    ∃ session distances,
      Reachable [program] session ∧
        resolve program session =
          .ok () ⟨{ State.initial ⟨0⟩ with distances := distances }, session.nextId⟩ ∧
        ∀ settlement ∈ (Scoping.resolve program).settled,
          distances.get? settlement.id = settlement.depth := by
  have parsed := parseTokens_of_faultless faultless ⟨0⟩
  dsimp only at parsed
  rw [read] at parsed
  have reachable := Reachable.parsed (.start ⟨0⟩) legible parsed
  refine ⟨_, _, reachable, ?_, fun settlement settled =>
    (reachable_invariant reachable).recorded_now List.mem_cons_self settled⟩
  rw [resolve_apply, verdict]
  rfl

end Lox.Session
