import Lox.Proofs.Session.History

namespace Lox.Session

open Scoping Execution

/-!
# Resolution and evaluation agree in every session

Resolution looks at one program at a time, and evaluation runs closures and methods
of all programs before.  Still, in every session that can come about, each node that
is evaluated finds at its distance what resolution has seen there.
-/

/-- The occurrence of a keyword that scopes hold, at a site that reads one. -/
def keyword? (site : Site) : Option NodeId :=
  match site.deed with
  | .this id _ => some id
  | .super id _ => some id
  | _ => none

/-- At a settled site, a keyword has a distance. -/
theorem depth?_of_keyword
    {distances : Distances}
    {resolved : Settlement → Prop}
    {site : Site}
    {id : NodeId}
    (settled : Settled distances resolved site)
    (reads : keyword? site = some id) :
    ∃ depth, distances.get? id = some depth := by
  obtain ⟨place, initializing, deed⟩ := site
  cases deed with
  | this found line =>
      obtain rfl : found = id := by simpa [keyword?] using reads
      obtain ⟨depth, known, -⟩ := depth?_of_this settled
      exact ⟨depth, known⟩
  | super found line =>
      obtain rfl : found = id := by simpa [keyword?] using reads
      obtain ⟨depth, names, declared, -⟩ :=
        settled.sound.exists_receiver (subclass_of_super settled)
      exact ⟨depth + 1, (settled.recorded found superclassName rfl).2.trans declared⟩
  | _ => simp [keyword?] at reads

/-- What stops a run in a session is an exit of the run. -/
theorem exit_of_interpret
    {fuel : Nat}
    {program : List Stmt}
    {session after : Session}
    {stop : Stop}
    (stopped : interpret fuel program session = .error stop after) :
    ∃ exit,
      Execution.interpret fuel program session.state = .error exit after.state ∧
        stop = .ofExit exit := by
  unfold interpret onState at stopped
  cases run : Execution.interpret fuel program session.state with
  | ok value state => simp [run] at stopped
  | error exit state =>
      simp only [run, EStateM.Result.error.injEq] at stopped
      obtain ⟨rfl, rfl⟩ := stopped
      exact ⟨exit, rfl, rfl⟩

/-- A program that resolution has accepted is run from where its distances are recorded. -/
theorem accepted_of_resolve
    {program : List Stmt}
    {session resolved : Session}
    (given : resolve program session = .ok () resolved) :
    (Scoping.resolve program).verdict = .ok () ∧
      resolved = session.recording program := by
  rw [resolve_apply] at given
  cases accepted : (Scoping.resolve program).verdict with
  | error error => simp [accepted] at given
  | ok _ =>
      simp only [accepted, EStateM.Result.ok.injEq, true_and] at given
      exact ⟨rfl, given.symm⟩

/--
In every session, when resolution accepts a program that was parsed in it, then
wherever the run of the program comes, in functions and methods of all programs,
the scopes hold what each node looks for at its distance.  Every `this` and `super`
of the program has a distance.  The run never stops at `super`, and it stops at an
undefined variable only where it looks up an occurrence that resolution has settled
as global.
-/
theorem scopes_agree
    {programs : List (List Stmt)}
    {program : List Stmt}
    {session resolved : Session}
    (reachable : Reachable programs session)
    (member : program ∈ programs)
    (accepted : resolve program session = .ok () resolved)
    (fuel : Nat) :
    (∀ task state, Reaches (.statements fuel program) resolved.state task state →
        Agrees state task) ∧
      (∀ site ∈ programSites program, ∀ id, keyword? site = some id →
        ∃ depth, resolved.state.distances.get? id = some depth) ∧
      ∀ stop after, interpret fuel program resolved = .error stop after →
        (∀ found, stop ≠ .mismatch found) ∧
          ∀ name, stop = .diagnostic (.runtime (.undefinedVariable name)) →
            ∃ task state occurrence,
              Reaches (.statements fuel program) resolved.state task state ∧
                task.lookedUp? = some occurrence ∧ occurrence.name = name ∧
                ∃ earlier ∈ programs,
                  ⟨occurrence.id, name.text, none⟩ ∈ (Scoping.resolve earlier).settled := by
  have holds := reachable_invariant reachable
  obtain ⟨fine, rfl⟩ := accepted_of_resolve accepted
  have ready := ready_of_accepted holds member fine
  have proper := holds.proper program member
  have allReady : ∀ task state,
      Reaches (.statements fuel program) (session.recording program).state task state →
      TaskReady (Resolved programs (session.recording program).state.distances) state task :=
    fun task state reaches => TaskReady.of_reaches reaches ⟨_, proper, ready⟩
  refine ⟨?_, ?_, ?_⟩
  · exact fun task state reaches => agrees_of_ready (allReady task state reaches)
  · exact fun site inSites id reads => depth?_of_keyword (ready.settled site inSites) reads
  · intro stop after stopped
    obtain ⟨exit, run, rfl⟩ := exit_of_interpret stopped
    have stops := ((interpret_keeps fuel proper ready).error run).2.2
    refine ⟨?_, ?_⟩
    · intro found same
      cases exit with
      | mismatch other => exact stops.matched other rfl
      | _ => simp [Stop.ofExit] at same
    · intro name same
      have isError : exit = .error (.undefinedVariable name) := by
        cases exit with
        | error error => simpa [Stop.ofExit] using same
        | _ => simp [Stop.ofExit] at same
      obtain ⟨task, state, reaches, occurrence, looksUp, rfl, unknown⟩ :=
        stops.global name isError
      obtain ⟨earlier, inPrograms, settled, -⟩ :=
        settled_of_lookedUp (allReady task state reaches) looksUp
      rw [unknown] at settled
      exact ⟨task, state, occurrence, reaches, looksUp, rfl, earlier, inPrograms, settled⟩

/-- The tokens of `class A { m() {} } class B < A { m() { super.m(); } } B().m();`. -/
def inheritanceTokens : List Token :=
  let word (text : String) : Token := ⟨.identifier, text, 1⟩
  let keyword (word : Keyword) : Token := ⟨.keyword word, word.spelling, 1⟩
  let symbol (symbol : Symbol) : Token := ⟨.symbol symbol, symbol.spelling, 1⟩
  [keyword .classWord, word "A", symbol .leftBrace,
    word "m", symbol .leftParen, symbol .rightParen, symbol .leftBrace,
    symbol .rightBrace, symbol .rightBrace,
    keyword .classWord, word "B", symbol .less, word "A", symbol .leftBrace,
    word "m", symbol .leftParen, symbol .rightParen, symbol .leftBrace,
    keyword .superWord, symbol .dot, word "m", symbol .leftParen, symbol .rightParen,
    symbol .semicolon, symbol .rightBrace, symbol .rightBrace,
    word "B", symbol .leftParen, symbol .rightParen, symbol .dot, word "m",
    symbol .leftParen, symbol .rightParen, symbol .semicolon]

/-- A program with an inherited method runs in scopes that agree with its resolution. -/
theorem scopes_agree_inheritance :
    ∃ program session resolved,
      Reachable [program] session ∧ resolve program session = .ok () resolved ∧
        ∀ fuel task state,
          Reaches (.statements fuel program) resolved.state task state →
          Agrees state task := by
  let reader := Grammar.Reader.start inheritanceTokens 0
  let program := (Grammar.readProgram reader).statements
  have faultless : (Grammar.readProgram reader).errors = [] :=
    List.isEmpty_iff.mp (by decide +kernel)
  have legible : Grammar.LegibleTokens inheritanceTokens := by
    unfold Grammar.LegibleTokens
    decide
  have parsed : parseTokens Grammar.program inheritanceTokens (start ⟨0⟩) =
      .ok program ⟨State.initial ⟨0⟩, (Grammar.readProgram reader).reader.nextId⟩ := by
    have given := Grammar.program_of_faultless faultless
    unfold parseTokens
    simp only [start]
    rw [given]
  have verdict : (Scoping.resolve program).verdict = .ok () := by
    decide +kernel
  have reachable := Reachable.parsed (.start ⟨0⟩) legible parsed
  have accepted : ∀ session, resolve program session = .ok () (session.recording program) := by
    intro session
    rw [resolve_apply, verdict]
  refine ⟨program, _, _, reachable, accepted _, fun fuel => ?_⟩
  exact (scopes_agree reachable (by simp) (accepted _) fuel).1

end Lox.Session
