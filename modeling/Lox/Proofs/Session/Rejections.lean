import Lox.Proofs.Session.Between
import Lox.Proofs.Session.Copies
import Lox.Proofs.Session.Scopes

namespace Lox

open Scoping Execution

/-!
# Rejected programs

A program that is rejected before it runs has used up identities, and distances may have
been recorded under them.  Nothing in the session mentions these identities, and later
programs get others, so the session mirrors the one in which the program was left out.
-/

/-- A stop by which a program is rejected before any of it runs. -/
def Stop.Rejects : Stop → Prop
  | .diagnostic (.lexical _) => True
  | .diagnostic (.syntactic _) => True
  | .diagnostic (.scoping _) => True
  | _ => False

/-- A run that is stopped has not been rejected. -/
theorem Stop.not_rejects_ofExit (exit : Exit) : ¬ (Stop.ofExit exit).Rejects := by
  cases exit <;> exact id

namespace Session

/-- A program of a session: its source, and the fuel for its run. -/
structure Submission where
  source : List UInt8
  fuel : Nat

/-- What shows of a program: how it ends, and what it prints. -/
structure Outcome where
  result : Except Stop Unit
  printed : String

/-- How a step ends. -/
def resultOf : EStateM.Result Stop Session Unit → Except Stop Unit
  | .ok _ _ => .ok ()
  | .error stop _ => .error stop

/-- Run a program in a session: what shows of it, and the session behind it. -/
def submit (session : Session) (program : Submission) : Outcome × Session :=
  let ended := run program.fuel program.source session
  let printed :=
    (endState ended).state.transcript.textAfter session.state.transcript.printed.size
  (⟨resultOf ended, printed⟩, endState ended)

/-- What shows of programs that are run in a session one after another. -/
def outcomes (session : Session) : List Submission → List Outcome
  | [] => []
  | first :: rest => (session.submit first).1 :: (session.submit first).2.outcomes rest

/-! ## Sessions that mirror each other -/

section

variable {matching : Matching} {left right : Session}

/-- A program shows the same in sessions that mirror each other, which still do. -/
theorem submit_mirror
    (lines : matching.KeepsLines)
    (reflexive : ∀ line, matching.lines line line)
    (copies : SessionCopies matching left right)
    (program : Submission) :
    (left.submit program).1 = (right.submit program).1 ∧
      SessionCopies matching (left.submit program).2 (right.submit program).2 := by
  unfold submit run scan
  rw [copies.state.transcript]
  cases Source.scan program.source with
  | error error =>
      have same : left.state.transcript = right.state.transcript := copies.state.transcript
      exact ⟨congrArg (fun transcript : Transcript => Outcome.mk _
        (transcript.textAfter right.state.transcript.printed.size)) same, copies⟩
  | ok tokens =>
      rw [bind_of_ok (pure_apply tokens left), bind_of_ok (pure_apply tokens right)]
      have ended := runTokens_mirror (Grammar.TokenCopies.allSelf reflexive tokens)
        (reflexive 1) program.fuel left right copies
      generalize runTokens program.fuel tokens left = outcome at ended ⊢
      generalize runTokens program.fuel tokens right = outcome' at ended ⊢
      cases ended with
      | ok _ further =>
          dsimp only [endState, resultOf]
          rw [further.state.transcript]
          exact ⟨rfl, further⟩
      | error alike further =>
          dsimp only [endState, resultOf]
          rw [further.state.transcript, alike.eq lines]
          exact ⟨rfl, further⟩

theorem outcomes_mirror
    (lines : matching.KeepsLines)
    (reflexive : ∀ line, matching.lines line line)
    (programs : List Submission)
    (copies : SessionCopies matching left right) :
    left.outcomes programs = right.outcomes programs := by
  induction programs generalizing left right with
  | nil => rfl
  | cons first rest inductionHypothesis =>
      obtain ⟨same, further⟩ := submit_mirror lines reflexive copies first
      unfold outcomes
      rw [same, inductionHypothesis further]

end

/-! ## What a rejected program leaves behind -/

/--
A session behind a rejected program: only identities have been used up, and distances
recorded under no others.
-/
inductive Skipped (before : Session) : Session → Prop where
  | intro {distances nextId} :
      before.nextId ≤ nextId →
      (∀ id, id < before.nextId ∨ nextId ≤ id →
        distances.get? id = before.state.distances.get? id) →
      Skipped before ⟨{ before.state with distances := distances }, nextId⟩

theorem Skipped.refl (session : Session) : Skipped session session :=
  .intro (Nat.le_refl _) fun _ _ => rfl

/-- The distances that are recorded for a new program are under new identities. -/
theorem skipped_of_recording
    {tokens : List Token}
    {session after : Session}
    {program : List Stmt}
    (given : parseTokens Grammar.program tokens session = .ok program after) :
    Skipped session (after.recording program) := by
  obtain ⟨fresh, same⟩ := fresh_of_parsed given
  obtain ⟨state, nextId⟩ := after
  obtain rfl : state = session.state := same
  refine .intro fresh.ordered fun id outside => ?_
  refine Distances.get?_record_of_not_settled (fun settlement settled same => ?_) _
  have inside := fresh.bounded settlement.id (mem_ids_of_settled settled)
  rw [same] at inside
  rcases outside with below | beyond
  · exact absurd inside.1 (Nat.not_le_of_lt below)
  · exact absurd inside.2 (Nat.not_lt_of_le beyond)

/-- A step that rejects a source leaves no more behind. -/
theorem skipped_of_rejected
    {fuel : Nat}
    {source : List UInt8}
    {session after : Session}
    {stop : Stop}
    (stopped : run fuel source session = .error stop after)
    (rejects : stop.Rejects) :
    Skipped session after := by
  unfold run scan at stopped
  cases scanned : Source.scan source with
  | error error =>
      rw [scanned] at stopped
      obtain ⟨-, rfl⟩ := EStateM.Result.error.inj stopped
      exact .refl session
  | ok tokens =>
      rw [scanned, bind_of_ok (pure_apply tokens session)] at stopped
      unfold runTokens at stopped
      cases given : parseTokens Grammar.program tokens session with
      | error stop after =>
          rw [bind_apply, given] at stopped
          obtain ⟨-, rfl⟩ := EStateM.Result.error.inj stopped
          obtain ⟨advances, same⟩ := advances_of_misparsed given
          rw [same]
          exact .intro advances fun _ _ => rfl
      | ok program parsed =>
          rw [bind_of_ok given] at stopped
          unfold runProgram at stopped
          rw [bind_apply, resolve_apply] at stopped
          cases verdict : (Scoping.resolve program).verdict with
          | error error =>
              rw [verdict] at stopped
              obtain ⟨-, rfl⟩ := EStateM.Result.error.inj stopped
              exact skipped_of_recording given
          | ok _ =>
              -- What stops the run of an accepted program is no rejection.
              rw [verdict] at stopped
              obtain ⟨exit, -, rfl⟩ := exit_of_interpret stopped
              exact absurd rejects (Stop.not_rejects_ofExit exit)

/-- A program shows that it is stopped if it is. -/
theorem run_of_result
    {session : Session}
    {program : Submission}
    {stop : Stop}
    (stopped : (session.submit program).1.result = .error stop) :
    run program.fuel program.source session = .error stop (session.submit program).2 := by
  unfold submit at stopped ⊢
  cases ended : run program.fuel program.source session with
  | ok _ final => simp [ended, resultOf] at stopped
  | error other final =>
      simp only [ended, resultOf, Except.error.injEq] at stopped
      rw [stopped]
      rfl

theorem Skipped.transcript
    {before after : Session}
    (skipped : Skipped before after) :
    after.state.transcript = before.state.transcript := by
  cases skipped
  rfl

/-- A rejected program prints nothing. -/
theorem printed_of_skipped
    {session : Session}
    {program : Submission}
    (skipped : Skipped session (session.submit program).2) :
    (session.submit program).1.printed = "" := by
  have unchanged : (session.submit program).1.printed =
      session.state.transcript.textAfter session.state.transcript.printed.size :=
    congrArg (·.textAfter session.state.transcript.printed.size) skipped.transcript
  rw [unchanged, Transcript.textAfter, ← Array.length_toList, List.drop_length]
  rfl

/-! ## Leaving a rejected program out -/

/--
Identities below a first one stay, and those from another one on stand for those from the
first one on.
-/
def Skips (first next id id' : Nat) : Prop :=
  id < first ∧ id = id' ∨ ∃ count, id = next + count ∧ id' = first + count

theorem Skips.unique
    {first next : Nat}
    (ordered : first ≤ next)
    {id id' other other' : Nat}
    (skips : Skips first next id id')
    (others : Skips first next other other') :
    id = other ↔ id' = other' := by
  rcases skips with ⟨below, rfl⟩ | ⟨count, rfl, rfl⟩
  · rcases others with ⟨-, rfl⟩ | ⟨otherCount, rfl, rfl⟩
    · exact Iff.rfl
    · omega
  · rcases others with ⟨otherBelow, rfl⟩ | ⟨otherCount, rfl, rfl⟩
    · omega
    · omega

/-- The matching of a session behind a rejected program with the one in front of it. -/
def skipping (first next : NodeId) (ordered : first ≤ next) : Matching where
  ids := Skips first next
  lines := Eq
  unique := Skips.unique ordered

/-- A session behind a rejected program mirrors the one in front of it. -/
theorem skipped_copies
    {programs : List (List Stmt)}
    {before : Session}
    (orderly : Orderly programs before)
    {distances : Distances}
    {nextId : NodeId}
    (advances : before.nextId ≤ nextId)
    (agree : ∀ id, id < before.nextId ∨ nextId ≤ id →
      distances.get? id = before.state.distances.get? id) :
    SessionCopies (skipping before.nextId nextId advances)
      ⟨{ before.state with distances := distances }, nextId⟩ before := by
  refine ⟨⟨?_, rfl, rfl, ?_, rfl, rfl⟩, fun count => Or.inr ⟨count, rfl, rfl⟩⟩
  · exact orderly.faithful.copies (fun _ => rfl) fun id known => Or.inl ⟨known.1, rfl⟩
  · rintro id id' (⟨below, rfl⟩ | ⟨count, rfl, rfl⟩)
    · exact agree id (.inl below)
    · -- Nothing is recorded yet where either session goes on.
      have beyond : before.nextId ≤ nextId + count :=
        Nat.le_trans advances (Nat.le_add_right _ _)
      rw [agree _ (.inr (Nat.le_add_right _ _)), orderly.unused _ beyond,
        orderly.unused _ (Nat.le_add_right _ _)]

/-- Later programs show the same behind a rejected program and in front of it. -/
theorem outcomes_of_skipped
    {parsed : List (List Stmt)}
    {before after : Session}
    (between : Between parsed before)
    (skipped : Skipped before after)
    (programs : List Submission) :
    after.outcomes programs = before.outcomes programs := by
  obtain ⟨advances, agree⟩ := skipped
  have copies := skipped_copies (between_orderly between) advances agree
  exact outcomes_mirror id (fun _ => rfl) programs copies

/-- Without a rejected program, the others show what they do with it. -/
theorem outcomes_of_between
    {parsed : List (List Stmt)}
    {session : Session}
    (between : Between parsed session)
    (programs : List Submission)
    {position : Nat}
    {outcome : Outcome}
    (shows : (session.outcomes programs)[position]? = some outcome)
    {stop : Stop}
    (stopped : outcome.result = .error stop)
    (rejects : stop.Rejects) :
    outcome.printed = "" ∧
      session.outcomes (programs.eraseIdx position) =
        (session.outcomes programs).eraseIdx position := by
  induction programs generalizing parsed session position with
  | nil => simp [outcomes] at shows
  | cons first rest inductionHypothesis =>
      cases position with
      | zero =>
          obtain rfl : (session.submit first).1 = outcome := by simpa [outcomes] using shows
          have skipped := skipped_of_rejected (run_of_result stopped) rejects
          exact ⟨printed_of_skipped skipped, (outcomes_of_skipped between skipped rest).symm⟩
      | succ position =>
          obtain ⟨added, later⟩ := between.run first.fuel first.source
          have showsLater :
              ((session.submit first).2.outcomes rest)[position]? = some outcome := by
            simpa [outcomes] using shows
          have others := inductionHypothesis later showsLater
          exact ⟨others.1, congrArg ((session.submit first).1 :: ·) others.2⟩

/--
In every session on one state, a program that is rejected by its text, its syntax or its
scopes prints nothing; and if it is left out, every other program ends as it did, and
prints what it did.
-/
theorem rejected_leaves_no_trace
    (clock : Clock)
    (nextId : NodeId)
    (programs : List Submission)
    {position : Nat}
    {outcome : Outcome}
    (shows : (outcomes ⟨State.initial clock, nextId⟩ programs)[position]? = some outcome)
    {stop : Stop}
    (stopped : outcome.result = .error stop)
    (rejects : stop.Rejects) :
    outcome.printed = "" ∧
      outcomes ⟨State.initial clock, nextId⟩ (programs.eraseIdx position) =
        (outcomes ⟨State.initial clock, nextId⟩ programs).eraseIdx position :=
  outcomes_of_between (.start clock nextId) programs shows stopped rejects

/-- A function is called as if no program with a stray return had come in between. -/
theorem rejected_leaves_no_trace_return :
    let declaring : Submission := ⟨Text.Utf8.encode "fun f(a) \x7b return a; \x7d", 9⟩
    let returning : Submission := ⟨Text.Utf8.encode "\x7b var b; b; return; \x7d", 9⟩
    let calling : Submission := ⟨Text.Utf8.encode "print f(nil);", 9⟩
    let session : Session := ⟨State.initial ⟨0⟩, 0⟩
    (session.outcomes [declaring, returning, calling])[1]?.map Outcome.printed = some "" ∧
      session.outcomes [declaring, calling] =
        (session.outcomes [declaring, returning, calling]).eraseIdx 1 := by
  intro declaring returning calling session
  have stopped : ((session.submit declaring).2.submit returning).1.result =
      .error (.diagnostic (.scoping ⟨.returnOutsideFunction, ⟨"return", 1⟩⟩)) := by
    decide +kernel
  have shows : (session.outcomes [declaring, returning, calling])[1]? =
      some ((session.submit declaring).2.submit returning).1 :=
    rfl
  obtain ⟨printed, others⟩ := rejected_leaves_no_trace ⟨0⟩ 0 _ shows stopped trivial
  exact ⟨congrArg some printed, others⟩

end Session

end Lox
