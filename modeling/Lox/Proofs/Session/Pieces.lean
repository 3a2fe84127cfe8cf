import Lox.Proofs.Session.Between

namespace Lox

open Scoping Execution

/-!
# Programs in pieces

Resolution and a run are both outside of everything behind every top-level statement.
So a program may be cut there: resolving and running its first piece and then, if that
has ended well, its second piece is resolving and running the whole program.  While the
first piece runs, the distances of the second are not recorded yet; nothing that runs
looks them up, unless functions of the second piece have been declared already by a run
that did not resolve it.
-/

/-! ## Resolving -/

/-- Behind statements at the outermost place, more statements are at that place again. -/
theorem programSites_append (first second : List Stmt) :
    programSites (first ++ second) = programSites first ++ programSites second := by
  unfold programSites
  induction first with
  | nil => rfl
  | cons statement rest inductionHypothesis =>
      have here : Place.outermost.declaring statement.declared = .outermost := rfl
      rw [List.cons_append, Stmt.sitesOfAll, Stmt.sitesOfAll, here, inductionHypothesis,
        List.append_assoc]

namespace Scoping

variable {first second : List Stmt}

/-- A program whose first piece is rejected is rejected there. -/
theorem resolve_append_of_rejected
    {error : ScopeError}
    (rejected : (resolve first).verdict = .error error) :
    resolve (first ++ second) = resolve first := by
  have faulty : firstFault? (programSites first) = some error := by
    rw [(resolve_eq first).1] at rejected
    cases found : firstFault? (programSites first) with
    | none => simp [found] at rejected
    | some other =>
        simp only [found, Except.error.injEq] at rejected
        rw [rejected]
  have verdict : (resolve (first ++ second)).verdict = (resolve first).verdict := by
    rw [(resolve_eq _).1, (resolve_eq first).1, programSites_append,
      firstFault?_append_of_fault faulty, faulty]
  have settled : (resolve (first ++ second)).settled = (resolve first).settled := by
    rw [(resolve_eq _).2, (resolve_eq first).2, programSites_append,
      settledAt_append_of_fault faulty]
  generalize resolve (first ++ second) = whole at verdict settled ⊢
  generalize resolve first = piece at verdict settled ⊢
  cases whole
  cases piece
  congr

/-- Behind a first piece that is accepted, the second is resolved as if by itself. -/
theorem resolve_append_of_accepted
    (accepted : (resolve first).verdict = .ok ())
    (second : List Stmt) :
    (resolve (first ++ second)).verdict = (resolve second).verdict ∧
      (resolve (first ++ second)).settled =
        (resolve first).settled ++ (resolve second).settled := by
  have faultless := faultless_of_accepted accepted
  refine ⟨?_, ?_⟩
  · rw [(resolve_eq _).1, (resolve_eq second).1, programSites_append,
      firstFault?_append_of_faultless faultless]
  · rw [(resolve_eq _).2, (resolve_eq first).2, (resolve_eq second).2, programSites_append,
      settledAt_append_of_faultless faultless]

/-- A program is accepted exactly if both of its pieces are. -/
theorem accepted_append (first second : List Stmt) :
    (resolve (first ++ second)).verdict = .ok () ↔
      (resolve first).verdict = .ok () ∧ (resolve second).verdict = .ok () := by
  cases verdict : (resolve first).verdict with
  | error error =>
      rw [resolve_append_of_rejected verdict, verdict]
      simp
  | ok _ =>
      rw [(resolve_append_of_accepted verdict second).1]
      simp

end Scoping

/-! ## Running -/

/-- Running a program is running its first piece and then, if that ends well, its second. -/
theorem Execution.interpret_append (fuel : Nat) (first second : List Stmt) :
    interpret fuel (first ++ second) = (do
      interpret fuel first
      interpret fuel second) := by
  funext state
  have cut : executeAll fuel (first ++ second) = (do
      executeAll fuel first
      executeAll fuel second) :=
    List.forM_append
  rw [bind_apply]
  unfold interpret
  rw [cut, bind_apply]
  cases executeAll fuel first state with
  | ok _ middle => rfl
  | error exit middle => cases exit <;> rfl

namespace Session

/--
Runs that both end well in one state, or that are both stopped by the same stop in
states that differ at most in what is recorded.
-/
inductive EndsAlike :
    EStateM.Result Stop Session Unit → EStateM.Result Stop Session Unit → Prop where
  | finished (final : Session) : EndsAlike (.ok () final) (.ok () final)
  | stopped (stop : Stop) (final : Session) (distances : Distances) :
      EndsAlike
        (.error stop { final with state := { final.state with distances := distances } })
        (.error stop final)

theorem EndsAlike.refl (outcome : EStateM.Result Stop Session Unit) :
    EndsAlike outcome outcome := by
  cases outcome with
  | ok _ final => exact .finished final
  | error stop final => exact .stopped stop final final.state.distances

section

variable {programs : List (List Stmt)} {session : Session} {first second : List Stmt}

/-- What functions rely on is the same before a program is resolved and afterwards. -/
theorem Faithful.get?_recording
    (orderly : Orderly programs session)
    (member : second ∈ programs)
    {id : NodeId}
    (known : Faithful programs session id) :
    (session.recording second).state.distances.get? id =
      session.state.distances.get? id := by
  by_cases settles : ∃ settlement ∈ (Scoping.resolve second).settled, settlement.id = id
  · obtain ⟨settlement, settled, rfl⟩ := settles
    rw [orderly.separate.recorded_now orderly.recorded member settled]
    exact (known.2 second member settlement settled rfl).symm
  · refine Distances.get?_record_of_not_settled ?_ _
    exact fun settlement settled same => settles ⟨settlement, settled, same⟩

/-- A program that is accepted is run once its distances are recorded. -/
theorem runProgram_of_accepted
    {program : List Stmt}
    (accepted : (Scoping.resolve program).verdict = .ok ())
    (fuel : Nat)
    (session : Session) :
    runProgram fuel program session = interpret fuel program (session.recording program) := by
  have resolved : resolve program session = .ok () (session.recording program) := by
    rw [resolve_apply, accepted]
  exact bind_of_ok resolved _

/-- The distances of a program are those of its pieces. -/
theorem recording_append
    (accepted : (Scoping.resolve first).verdict = .ok ())
    (session : Session) :
    session.recording (first ++ second) = (session.recording first).recording second := by
  unfold recording
  rw [(resolve_append_of_accepted accepted second).2]
  simp only [Distances.record, List.foldl_append]

/--
Statements that have been parsed in a session with some programs: they are one of these, or
their occurrences belong to none of them, and then they may have been run in any way.
-/
def ParsedIn (programs : List (List Stmt)) (session : Session) (body : List Stmt) : Prop :=
  body ∈ programs ∨ ∀ id ∈ idsOf (Stmt.occurrencesOfAll body), Stray programs session id

/-- Resolving what has been parsed keeps a session in order, and what is parsed can be run. -/
theorem ParsedIn.recording
    (parsed : ParsedIn programs session first)
    (orderly : Orderly programs session)
    (accepted : (Scoping.resolve first).verdict = .ok ()) :
    Orderly programs (session.recording first) ∧
      ∀ id ∈ idsOf (Stmt.occurrencesOfAll first),
        Faithful programs (session.recording first) id := by
  rcases parsed with member | strays
  · refine ⟨recording_orderly orderly member, fun id occurs => ?_⟩
    exact faithful_of_accepted orderly member accepted occurs
  · refine ⟨orderly.changed fun id => ?_, fun id occurs => ?_⟩
    · by_cases settles : ∃ settlement ∈ (Scoping.resolve first).settled, settlement.id = id
      · obtain ⟨settlement, settled, rfl⟩ := settles
        exact .inl (strays _ (mem_ids_of_settled settled))
      · refine .inr (Distances.get?_record_of_not_settled ?_ _)
        exact fun settlement settled same => settles ⟨settlement, settled, same⟩
    · exact Stray.faithful (strays id occurs)

/-- The first piece runs alike, whether or not the distances of the second are recorded. -/
theorem interpret_first
    (orderly : Orderly programs session)
    (parsed : ParsedIn programs session first)
    (inSecond : second ∈ programs)
    (accepted : (Scoping.resolve first).verdict = .ok ())
    (fuel : Nat) :
    let whole := (session.recording first).recording second
    Execution.interpret fuel first whole.state =
      mapState (fun final => { final with distances := whole.state.distances })
        (Execution.interpret fuel first (session.recording first).state) := by
  obtain ⟨resolved, known⟩ := parsed.recording orderly accepted
  refine interpret_congr resolved.faithful known ?_ fuel
  exact fun _ known => known.get?_recording resolved inSecond

/-- A program ends as its pieces do one after the other. -/
theorem runProgram_append
    (orderly : Orderly programs session)
    (parsed : ParsedIn programs session first)
    (inSecond : second ∈ programs)
    (accepted : (Scoping.resolve (first ++ second)).verdict = .ok ())
    (fuel : Nat) :
    EndsAlike (runProgram fuel (first ++ second) session)
      ((do
        runProgram fuel first
        runProgram fuel second) session) := by
  obtain ⟨firstAccepted, secondAccepted⟩ := (accepted_append first second).mp accepted
  have alike := interpret_first orderly parsed inSecond firstAccepted fuel
  have unchanged := distances_steady.interpret fuel first (session.recording first).state
  rw [bind_apply, runProgram_of_accepted accepted, runProgram_of_accepted firstAccepted,
    recording_append firstAccepted]
  unfold interpret onState
  rw [Execution.interpret_append, bind_apply, alike]
  cases ran : Execution.interpret fuel first (session.recording first).state with
  | error exit final => exact .stopped (Stop.ofExit exit) ⟨final, session.nextId⟩ _
  | ok _ final =>
      rw [ran] at unchanged
      -- Recording the second piece now gives the distances of the whole program.
      have distances : ((session.recording first).recording second).state.distances =
          final.distances.record (Scoping.resolve second).settled :=
        congrArg (Distances.record · (Scoping.resolve second).settled) unchanged.symm
      have same : { final with
            distances := ((session.recording first).recording second).state.distances } =
          (recording ⟨final, session.nextId⟩ second).state :=
        congrArg (fun distances => { final with distances := distances }) distances
      dsimp only [mapState]
      rw [same, runProgram_of_accepted secondAccepted]
      exact .refl _

end

/--
Between programs, a program may be cut in two pieces.  It is accepted exactly if both
pieces are, and its occurrences are settled as those of the first piece and then, unless
that is rejected, those of the second.  If it is accepted, and the second piece has not been
run without having been resolved, resolving and running it ends in the same state or by the
same stop as resolving and running the first piece and then, if that has ended well, the
second.
-/
theorem pieces_run_as_whole
    {programs : List (List Stmt)}
    {session : Session}
    {first second : List Stmt}
    (between : Between programs session)
    (parsed : ParsedIn programs session first)
    (inSecond : second ∈ programs) :
    ((Scoping.resolve (first ++ second)).verdict = .ok () ↔
        (Scoping.resolve first).verdict = .ok () ∧
          (Scoping.resolve second).verdict = .ok ()) ∧
      (match (Scoping.resolve first).verdict with
        | .ok () =>
            (Scoping.resolve (first ++ second)).settled =
              (Scoping.resolve first).settled ++ (Scoping.resolve second).settled
        | .error _ => Scoping.resolve (first ++ second) = Scoping.resolve first) ∧
      ((Scoping.resolve (first ++ second)).verdict = .ok () →
        ∀ fuel,
          EndsAlike (runProgram fuel (first ++ second) session)
            ((do
              runProgram fuel first
              runProgram fuel second) session)) := by
  refine ⟨accepted_append first second, ?_, fun accepted fuel =>
    runProgram_append (between_orderly between) parsed inSecond accepted fuel⟩
  cases verdict : (Scoping.resolve first).verdict with
  | ok _ => exact (resolve_append_of_accepted verdict second).2
  | error error => exact resolve_append_of_rejected verdict

/-- The tokens of `fun f(a) { return a; }`. -/
def declaringTokens : List Token :=
  [⟨.keyword .funWord, "fun", 1⟩, ⟨.identifier, "f", 1⟩, ⟨.symbol .leftParen, "(", 1⟩,
    ⟨.identifier, "a", 1⟩, ⟨.symbol .rightParen, ")", 1⟩, ⟨.symbol .leftBrace, "\x7b", 1⟩,
    ⟨.keyword .returnWord, "return", 1⟩, ⟨.identifier, "a", 1⟩,
    ⟨.symbol .semicolon, ";", 1⟩, ⟨.symbol .rightBrace, "\x7d", 1⟩]

/-- The tokens of `f(nil);`. -/
def callingTokens : List Token :=
  [⟨.identifier, "f", 1⟩, ⟨.symbol .leftParen, "(", 1⟩, ⟨.keyword .nilWord, "nil", 1⟩,
    ⟨.symbol .rightParen, ")", 1⟩, ⟨.symbol .semicolon, ";", 1⟩]

/-- The statement `fun f(a) { return a; }`, with an identity for its occurrence. -/
def declaring (id : NodeId) : List Stmt :=
  [.functionDeclaration (.intro ⟨"f", 1⟩ [⟨"a", 1⟩]
    [.returnValue 1 (some (.reference ⟨id, ⟨"a", 1⟩⟩))])]

/-- The statement `f(nil);`, with an identity for its occurrence. -/
def calling (id : NodeId) : List Stmt :=
  [.expression (.call (.reference ⟨id, ⟨"f", 1⟩⟩) [.literal .nil] 1)]

/-- A function may be declared in one piece and called in the next. -/
theorem pieces_run_as_whole_call :
    let session : Session := ⟨State.initial ⟨0⟩, 2⟩
    Between [calling 1, declaring 0] session ∧
      (Scoping.resolve (declaring 0 ++ calling 1)).verdict = .ok () ∧
      EndsAlike (runProgram 9 (declaring 0 ++ calling 1) session)
        ((do
          runProgram 9 (declaring 0)
          runProgram 9 (calling 1)) session) := by
  intro session
  have first : parseTokens Grammar.program declaringTokens (start ⟨0⟩) =
      .ok (declaring 0) ⟨State.initial ⟨0⟩, 1⟩ :=
    rfl
  have second : parseTokens Grammar.program callingTokens ⟨State.initial ⟨0⟩, 1⟩ =
      .ok (calling 1) session :=
    rfl
  have between : Between [calling 1, declaring 0] session :=
    ((Between.start ⟨0⟩ 0).parsed first).parsed second
  have accepted : (Scoping.resolve (declaring 0 ++ calling 1)).verdict = .ok () := by
    decide +kernel
  exact ⟨between, accepted,
    (pieces_run_as_whole between (.inl (by simp)) (by simp)).2.2 accepted 9⟩

/-- The tokens of `return;`. -/
def returningTokens : List Token :=
  [⟨.keyword .returnWord, "return", 1⟩, ⟨.symbol .semicolon, ";", 1⟩]

/-- The tokens of `{ var b; b; }`. -/
def readingTokens : List Token :=
  [⟨.symbol .leftBrace, "\x7b", 1⟩, ⟨.keyword .varWord, "var", 1⟩, ⟨.identifier, "b", 1⟩,
    ⟨.symbol .semicolon, ";", 1⟩, ⟨.identifier, "b", 1⟩, ⟨.symbol .semicolon, ";", 1⟩,
    ⟨.symbol .rightBrace, "\x7d", 1⟩]

/--
Without its conditions the theorem fails.  If `fun f(a) { return a; }` is run without having
been resolved, and then `f(nil);` and the same statement are resolved and run, in one piece
`f` finds its parameter, but in two pieces it looks for a global variable.  And behind
`return;`, which is rejected, nothing of `{ var b; b; }` is settled.
-/
theorem pieces_run_apart :
    (∃ parsed session,
      parseTokens Grammar.program declaringTokens (start ⟨0⟩) = .ok (declaring 0) parsed ∧
        parseTokens Grammar.program callingTokens (endState (interpret 9 (declaring 0) parsed)) =
          .ok (calling 1) session ∧
        (Scoping.resolve (calling 1 ++ declaring 0)).verdict = .ok () ∧
        (∃ final, runProgram 9 (calling 1 ++ declaring 0) session = .ok () final) ∧
        ∃ final,
          (do
            runProgram 9 (calling 1)
            runProgram 9 (declaring 0)) session =
              .error (.diagnostic (.runtime (.undefinedVariable ⟨"a", 1⟩))) final) ∧
      ∃ returning reading parsed after,
        parseTokens Grammar.program returningTokens (start ⟨0⟩) = .ok returning parsed ∧
          parseTokens Grammar.program readingTokens parsed = .ok reading after ∧
          (Scoping.resolve (returning ++ reading)).settled = [] ∧
          (Scoping.resolve returning).settled ++ (Scoping.resolve reading).settled =
            [⟨0, "b", some 0⟩] := by
  have accepted : (Scoping.resolve (calling 1 ++ declaring 0)).verdict = .ok () := by
    decide +kernel
  refine ⟨⟨_, _, rfl, rfl, accepted, ⟨_, rfl⟩, ⟨_, rfl⟩⟩, ?_⟩
  refine ⟨[.returnValue 1 none],
    [.block [.varDeclaration ⟨"b", 1⟩ none, .expression (.reference ⟨0, ⟨"b", 1⟩⟩)]],
    _, _, rfl, rfl, ?_, ?_⟩
  · decide +kernel
  · decide +kernel

end Session

end Lox
