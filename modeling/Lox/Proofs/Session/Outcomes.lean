import Lox.Proofs.Execution.Returns
import Lox.Proofs.Session.History

namespace Lox.Session

open Scoping Execution

/-!
# How the run of a source ends

A source is scanned, parsed, resolved and run, and the first stage that fails ends it.
The program of a source that is run ends at its last statement or at a runtime error,
unless it runs on for more fuel than there is: it meets no scope that resolution has
not foreseen, and no return leaves it.
-/

/-- A source is the text of a program, whose occurrences are numbered from zero. -/
structure Spells (source : List UInt8) (tokens : List Token) (program : List Stmt) :
    Prop where
  scanned : Source.scan source = .ok tokens
  parsed :
    ∃ reader, Grammar.program (Grammar.Reader.start tokens 0) = .ok program reader

/-- The state in which the first program of a session starts to run. -/
def firstState (clock : Clock) (program : List Stmt) : State :=
  ((start clock).recording program).state

/-- How the run of a source ends, and what it has printed by then. -/
inductive Ends (fuel : Nat) (clock : Clock) (source : List UInt8) :
    Except Stop Unit → Transcript → Prop where
  | misread {error} :
      Source.scan source = .error error →
      Ends fuel clock source (.error (.diagnostic (.lexical error))) .empty
  | misparsed {tokens error reader} :
      Source.scan source = .ok tokens →
      Grammar.program (Grammar.Reader.start tokens 0) = .error error reader →
      Ends fuel clock source (.error (.diagnostic (.syntactic error))) .empty
  | rejected {tokens program error} :
      Spells source tokens program →
      (Scoping.resolve program).verdict = .error error →
      Ends fuel clock source (.error (.diagnostic (.scoping error))) .empty
  | finished {tokens program final} :
      Spells source tokens program →
      (Scoping.resolve program).verdict = .ok () →
      Execution.interpret fuel program (firstState clock program) = .ok () final →
      Ends fuel clock source (.ok ()) final.transcript
  | failed {tokens program error final} :
      Spells source tokens program →
      (Scoping.resolve program).verdict = .ok () →
      Execution.interpret fuel program (firstState clock program) =
        .error (.error error) final →
      Ends fuel clock source (.error (.diagnostic (.runtime error))) final.transcript
  | exhausted {tokens program final} :
      Spells source tokens program →
      (Scoping.resolve program).verdict = .ok () →
      Execution.interpret fuel program (firstState clock program) =
        .error .exhausted final →
      Ends fuel clock source (.error .exhausted) final.transcript

section

variable {source : List UInt8} {tokens : List Token} {program : List Stmt}

/-- A new session parses the program that a source is the text of. -/
theorem Spells.parseTokens
    (spells : Spells source tokens program)
    (clock : Clock) :
    ∃ nextId,
      parseTokens Grammar.program tokens (start clock) =
        .ok program ⟨State.initial clock, nextId⟩ := by
  obtain ⟨reader, parsed⟩ := spells.parsed
  refine ⟨reader.nextId, ?_⟩
  unfold Session.parseTokens start
  rw [parsed]

/-- The session in which the program of a source has been parsed can come about. -/
theorem Spells.reachable
    (spells : Spells source tokens program)
    (clock : Clock) :
    ∃ nextId, Reachable [program] ⟨State.initial clock, nextId⟩ := by
  obtain ⟨nextId, parsed⟩ := spells.parseTokens clock
  exact ⟨nextId, .parsed (.start clock) (Source.legible_of_scan spells.scanned) parsed⟩

/-- What is run is ready to run: the program of a source that resolution accepts. -/
theorem Spells.ready
    (spells : Spells source tokens program)
    (accepted : (Scoping.resolve program).verdict = .ok ())
    (clock : Clock) :
    Stmt.AllProper program ∧
      Ready (Resolved [program] (firstState clock program).distances) .outermost none
        (programSites program) (firstState clock program) := by
  obtain ⟨nextId, reachable⟩ := spells.reachable clock
  have holds := reachable_invariant reachable
  have ready := ready_of_accepted holds (by simp) accepted
  exact ⟨holds.proper program (by simp), ready⟩

/-- The first program of a session does not panic, and is not left by a return. -/
theorem Spells.exit_cases
    (spells : Spells source tokens program)
    (accepted : (Scoping.resolve program).verdict = .ok ())
    {fuel : Nat}
    {clock : Clock}
    {exit : Exit}
    {final : State}
    (stopped :
      Execution.interpret fuel program (firstState clock program) = .error exit final) :
    (∃ error, exit = .error error) ∨ exit = .exhausted := by
  obtain ⟨proper, ready⟩ := spells.ready accepted clock
  have stops := ((interpret_keeps fuel proper ready).error stopped).2.2
  have without := anyHasReturn_of_resolve accepted
  have permitted := interpret_leftBy without fuel _ _ _ stopped
  rcases permitted.without_return with isError | ⟨found, panics⟩ | exhausted
  · exact .inl isError
  · exact absurd panics (stops.matched found)
  · exact .inr exhausted

/-- How the run of a program ends, and what it has printed by then. -/
def outcomeOf : EStateM.Result Exit State Unit → Except Stop Unit × Transcript
  | .ok _ final => (.ok (), final.transcript)
  | .error exit final => (.error (.ofExit exit), final.transcript)

/-- The program of a source is run from the first state, if resolution accepts it. -/
theorem Spells.runSource_eq
    (spells : Spells source tokens program)
    (fuel : Nat)
    (clock : Clock) :
    runSource fuel clock source =
      match (Scoping.resolve program).verdict with
      | .error error => (.error (.diagnostic (.scoping error)), .empty)
      | .ok () => outcomeOf (Execution.interpret fuel program (firstState clock program)) := by
  obtain ⟨nextId, parsed⟩ := spells.parseTokens clock
  have begun : (recording ⟨State.initial clock, nextId⟩ program).state =
      firstState clock program :=
    rfl
  unfold runSource run scan
  rw [spells.scanned, bind_of_ok (pure_apply tokens _)]
  unfold runTokens
  rw [bind_of_ok parsed]
  unfold runProgram
  rw [bind_apply, resolve_apply]
  cases (Scoping.resolve program).verdict with
  | error error => rfl
  | ok _ =>
      dsimp only
      unfold interpret onState
      rw [begun]
      cases Execution.interpret fuel program (firstState clock program) <;> rfl

end

/-- Every source ends in one of these ways. -/
theorem runSource_ends (fuel : Nat) (clock : Clock) (source : List UInt8) :
    Ends fuel clock source (runSource fuel clock source).1
      (runSource fuel clock source).2 := by
  cases scanned : Source.scan source with
  | error error =>
      unfold runSource run scan
      rw [scanned]
      exact .misread scanned
  | ok tokens =>
      cases parsed : Grammar.program (Grammar.Reader.start tokens 0) with
      | error error reader =>
          have stopped : parseTokens Grammar.program tokens (start clock) =
              .error (.diagnostic (.syntactic error)) ⟨.initial clock, reader.nextId⟩ := by
            unfold parseTokens start
            rw [parsed]
          unfold runSource run scan
          rw [scanned, bind_of_ok (pure_apply tokens _)]
          unfold runTokens
          rw [bind_of_error stopped]
          exact .misparsed scanned parsed
      | ok program reader =>
          have spells : Spells source tokens program := ⟨scanned, reader, parsed⟩
          rw [spells.runSource_eq]
          cases accepted : (Scoping.resolve program).verdict with
          | error error => exact .rejected spells accepted
          | ok _ =>
              dsimp only
              cases ran : Execution.interpret fuel program (firstState clock program) with
              | ok _ final => exact .finished spells accepted ran
              | error exit final =>
                  rcases spells.exit_cases accepted ran with ⟨error, rfl⟩ | rfl
                  · exact .failed spells accepted ran
                  · exact .exhausted spells accepted ran

end Lox.Session
