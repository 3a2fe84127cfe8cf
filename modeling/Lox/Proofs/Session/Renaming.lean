import Lox.Proofs.Execution.RenamedTwins
import Lox.Proofs.Session.SelfTwins

namespace Lox.Session

open Scoping Execution

/-!
# Local names do not matter

In every session, a program and the program with a renamed local variable do the same.
Resolution accepts both with the same distances, and their runs print the same text and
end in the same way.
-/

/-- Sessions are their own twins when nothing is asked of occurrences. -/
def renamingPairing : SelfPairing where
  base := sameOccurrences fun _ _ => False
  admits _ _ _ _ := True
  globals := rfl
  reflexive := ⟨fun _ => rfl, fun _ => trivial⟩
  grows _ := trivial
  own _ _ _ := ⟨fun _ _ => True, fun _ _ => ⟨fun _ _ => trivial, fun _ _ _ _ => trivial⟩⟩

variable {programs : List (List Stmt)} {session : Session} {program : List Stmt}

/-! ## Renamed programs -/

/-- What stops a session, without the name that a runtime error records. -/
def unnamed : Stop → Stop
  | .diagnostic (.runtime error) => .diagnostic (.runtime error.unnamed)
  | stop => stop

/--
Two steps print the same text and end in the same way, up to the name that a runtime
error records.
-/
def EndAlike : EStateM.Result Stop Session Unit → EStateM.Result Stop Session Unit → Prop
  | .ok _ after, .ok _ after' => after.state.transcript = after'.state.transcript
  | .error stop after, .error stop' after' =>
      after.state.transcript = after'.state.transcript ∧ unnamed stop = unnamed stop'
  | _, _ => False

/-- Exits of one kind stop a session alike. -/
theorem unnamed_ofExit
    {settled : NodeId → Option Nat → Prop}
    {exit exit' : Exit}
    (alike : exit.Alike (sameOccurrences settled) exit') :
    unnamed (Stop.ofExit exit) = unnamed (Stop.ofExit exit') := by
  cases exit with
  | error error =>
      cases exit' with
      | error error' =>
          exact congrArg (fun error => Stop.diagnostic (.runtime error)) (unnamed_of_alike alike)
      | _ => exact alike.elim
  | returned line value =>
      cases exit' with
      | returned line' value' =>
          obtain ⟨rfl, rfl⟩ := alike
          rfl
      | _ => exact alike.elim
  | mismatch found =>
      cases exit' with
      | mismatch found' =>
          obtain rfl := alike
          rfl
      | _ => exact alike.elim
  | exhausted =>
      cases exit' with
      | exhausted => rfl
      | _ => exact alike.elim

/-- The renamed program leaves a session in which the same distances are recorded. -/
theorem recording_renameVariable
    {renamed : List Stmt}
    (same : (Scoping.resolve renamed).settled.map
        (fun settlement => (settlement.id, settlement.depth)) =
      (Scoping.resolve program).settled.map
        (fun settlement => (settlement.id, settlement.depth)))
    (session : Session) :
    session.recording renamed = session.recording program := by
  unfold recording
  rw [Distances.record_congr same]

/-- A program and the renamed program run in lockstep, once the distances are recorded. -/
theorem interpret_renameVariable
    (reachable : Reachable programs session)
    (member : program ∈ programs)
    (accepted : (Scoping.resolve program).verdict = .ok ())
    {old new : String}
    (legible : LegibleName new)
    (unused : ∀ site ∈ programSites program, site.token.text ≠ new)
    (address : Address)
    (fuel : Nat) :
    EndAlike (interpret fuel program (session.recording program))
      (interpret fuel (renameVariable program address old new) (session.recording program)) := by
  have holds := reachable_invariant reachable
  have once : SettledOnce program := fun settlement settled found settledToo same =>
    holds.separate program member settlement settled program member found settledToo same
  have twins : BodyTwins
      (renamingPairing.pairing programs (session.recording program).state.distances) []
      program (renameVariable program address old new) := by
    refine twins_statements program (some address) 0 (.outermost legible)
      (fun marked => by simp [inMarked] at marked) (holds.proper program member)
      (allAllowed_of_accepted once accepted unused) ?_
    intro site inSites id name known
    have settled := (ready_of_accepted holds member accepted).settled site inSites
    exact ⟨name, (settled.recorded id name known).1⟩
  obtain ⟨outermost, labels, same⟩ :=
    recording_selfTwin holds member (reachable_selfTwin renamingPairing reachable)
  have run := interpret_lockstep fuel same (outermost ▸ .outermost) twins
  unfold interpret onState
  cases ended : Execution.interpret fuel program (session.recording program).state with
  | ok value state =>
      obtain ⟨later, value', state', ended', onward, -⟩ := run.ok ended
      rw [ended']
      exact onward.twins.transcript
  | error exit state =>
      obtain ⟨later, exit', state', ended', onward, alike⟩ := run.error ended
      rw [ended']
      exact ⟨onward.twins.transcript, unnamed_ofExit alike⟩

/--
In every session, renaming a parameter or local variable of an accepted program to a name
that the program does not use gives a program that resolution accepts with the same depth
for every occurrence.  Its run prints the same text and ends in the same way, up to the
name that a runtime error records.
-/
theorem renaming_immaterial
    (reachable : Reachable programs session)
    (member : program ∈ programs)
    (accepted : (Scoping.resolve program).verdict = .ok ())
    {old new : String}
    (legible : LegibleName new)
    (unused : ∀ site ∈ programSites program, site.token.text ≠ new)
    (address : Address) :
    let renamed := renameVariable program address old new
    (Scoping.resolve renamed).verdict = .ok () ∧
      (Scoping.resolve renamed).settled.map
          (fun settlement => (settlement.id, settlement.depth)) =
        (Scoping.resolve program).settled.map
          (fun settlement => (settlement.id, settlement.depth)) ∧
      ∀ fuel, EndAlike (runProgram fuel program session) (runProgram fuel renamed session) := by
  intro renamed
  have holds := reachable_invariant reachable
  have once : SettledOnce program := fun settlement settled found settledToo same =>
    holds.separate program member settlement settled program member found settledToo same
  have resolved : (Scoping.resolve renamed).verdict = .ok () ∧ _ :=
    resolve_renameVariable (holds.proper program member) once accepted legible unused address
  obtain ⟨stillAccepted, same⟩ := resolved
  refine ⟨stillAccepted, same, fun fuel => ?_⟩
  unfold runProgram
  rw [bind_apply, bind_apply, resolve_apply, resolve_apply, accepted, stillAccepted,
    recording_renameVariable same]
  exact interpret_renameVariable reachable member accepted legible unused address fuel

/-- The tokens of `fun f(a) { fun g() { a = a + "x"; print a; } g(); } f("y");`. -/
def closureTokens : List Token :=
  let word (text : String) : Token := ⟨.identifier, text, 1⟩
  let literal (contents : String) : Token := ⟨.string contents, Text.quoted contents, 1⟩
  let keyword (word : Keyword) : Token := ⟨.keyword word, word.spelling, 1⟩
  let symbol (symbol : Symbol) : Token := ⟨.symbol symbol, symbol.spelling, 1⟩
  [keyword .funWord, word "f", symbol .leftParen, word "a", symbol .rightParen,
    symbol .leftBrace,
    keyword .funWord, word "g", symbol .leftParen, symbol .rightParen, symbol .leftBrace,
    word "a", symbol .equal, word "a", symbol .plus, literal "x", symbol .semicolon,
    keyword .printWord, word "a", symbol .semicolon, symbol .rightBrace,
    word "g", symbol .leftParen, symbol .rightParen, symbol .semicolon, symbol .rightBrace,
    word "f", symbol .leftParen, literal "y", symbol .rightParen, symbol .semicolon]

/-- A parameter that a closure assigns may have another name. -/
theorem renaming_immaterial_closure :
    ∃ program session,
      Reachable [program] session ∧
        Stmt.occurrencesOfAll program =
          [(1, "a"), (2, "a"), (3, "a"), (4, "g"), (5, "f")] ∧
        Stmt.occurrencesOfAll (renameVariable program [0] "a" "b") =
          [(1, "b"), (2, "b"), (3, "b"), (4, "g"), (5, "f")] ∧
        ∀ fuel,
          EndAlike (runProgram fuel program session)
            (runProgram fuel (renameVariable program [0] "a" "b") session) := by
  have faultless : (Grammar.readProgram (Grammar.Reader.start closureTokens 0)).errors = [] :=
    List.isEmpty_iff.mp (by decide +kernel)
  have legible : Grammar.LegibleTokens closureTokens := by
    unfold Grammar.LegibleTokens
    decide
  obtain ⟨program, session, read, parsed⟩ : ∃ program session,
      program = (Grammar.readProgram (Grammar.Reader.start closureTokens 0)).statements ∧
        parseTokens Grammar.program closureTokens (start ⟨0⟩) = .ok program session :=
    ⟨_, _, rfl, parseTokens_of_faultless faultless ⟨0⟩⟩
  have reachable := Reachable.parsed (.start ⟨0⟩) legible parsed
  have accepted : (Scoping.resolve program).verdict = .ok () := by
    rw [read]
    decide +kernel
  have unused : ∀ site ∈ programSites program, site.token.text ≠ "b" := by
    rw [read]
    decide +kernel
  have newLegible : LegibleName "b" := by
    simp [LegibleName, receiverName, superclassName]
  refine ⟨program, session, reachable, ?_, ?_, fun fuel => ?_⟩
  · rw [read]
    decide +kernel
  · rw [read]
    decide +kernel
  · exact (renaming_immaterial reachable (List.mem_singleton.mpr rfl) accepted newLegible unused
      [0]).2.2 fuel

end Lox.Session
