import Lox.Proofs.Execution.ForLoopRuns
import Lox.Proofs.Execution.SharedScopes
import Lox.Proofs.Session.Accounts

namespace Lox.Session

open Scoping Execution

/-!
# `for` loops

The parser turns a `for` loop into a `while` loop in blocks.  Wherever it stands in a program
that resolution accepts, and whatever the state, it runs like the loop that is meant.  The
blocks move the condition, the body and the increment further in, and resolution settles
their occurrences accordingly: that is all there is to the difference.
-/

/-! ## Loops in programs -/

/--
A program has been accepted, its distances are recorded in a state, and nothing there refers
to what has not been made.
-/
structure Installed (program : List Stmt) (state : State) : Prop where
  accepted : (Scoping.resolve program).verdict = .ok ()
  recorded :
    ∀ settlement ∈ (Scoping.resolve program).settled,
      state.distances.get? settlement.id = settlement.depth
  whole : state.Whole

/-- Wherever the run of a program comes in a session, the program is installed. -/
theorem installed_of_reaches
    {programs : List (List Stmt)}
    {program : List Stmt}
    {session resolved : Session}
    {fuel : Nat}
    {task : Task}
    {state : State}
    (reachable : Reachable programs session)
    (member : program ∈ programs)
    (accepted : resolve program session = .ok () resolved)
    (reaches : Reaches (.statements fuel program) resolved.state task state) :
    Installed program state := by
  obtain ⟨clock, history, recounts⟩ := reachable.recounts
  obtain ⟨progress, course, rfl, -⟩ := reaches.course
  have accounted := recounts.resting.underway reachable member accepted course
  obtain ⟨whole, scope, globals, -⟩ := accounted.visited.sound
  obtain ⟨fine, rfl⟩ := accepted_of_resolve accepted
  refine ⟨fine, fun settlement settled => ?_, ⟨whole, scope, globals⟩⟩
  rw [course.distances]
  exact (reachable_invariant reachable).recorded_now member settled

/-! ## What a loop does -/

/--
In a state, what the parser makes of a loop does the same as the loop that is meant.  That is
run as a copy with identities of its own, which there always are.
-/
structure RunsAsMeant (loop : ForLoop) (place : Place) (state : State) : Prop where
  copied : ∃ base, state.Below base
  /-- If what the parser makes comes to an end, then so does the loop, in the same way. -/
  ends :
    ∀ base, state.Below base → ∀ fuel,
      ¬ Exhausted (Execution.execute fuel loop.desugared state) →
      Corresponds (AlikeSince (· < base) state) ExitShortened Eq
        (Execution.execute fuel loop.desugared state) (loop.runDirectly base place fuel state)
  /-- It comes to no end that the loop does not come to. -/
  ended :
    ∀ base, state.Below base → ∀ fuel,
      ¬ Exhausted (loop.runDirectly base place fuel state) →
      Corresponds (AlikeSince (· < base) state) ExitShortened Eq
        (Execution.execute (2 * fuel + 4) loop.desugared state)
        (loop.runDirectly base place fuel state)
  /--
  After the initializer, its variable is one and the same in all rounds, and in whatever is
  made in them, as long as no other variable of the name is nearer.
  -/
  shares :
    ∀ first, loop.initializer = some first →
      ∀ fuel begun, Execution.execute fuel first (Act.enterBlock.result state) = .ok () begun →
        ∀ statement,
          BeginsLater ⟨loop.inside place, fuel, loop.repeated, begun⟩ statement →
            ∀ name ∈ first.declared,
              (∀ nearer ∈ statement.nearer place.scopes, name ∉ nearer) →
                statement.Denotes name state.heap.scopes.size
  /-- Behind the loop neither a name nor a scope leads to the variable. -/
  hides :
    loop.desugared.declared = [] ∧
      ∀ fuel,
        let after := endState (Execution.execute fuel loop.desugared state)
        after.scope = state.scope ∧
          ∀ id, state.heap.Has (.scope id) → ∀ depth,
            after.heap.ancestor? depth id ≠ some state.heap.scopes.size

/-- What is settled in an installed program is settled at every place in it. -/
theorem Installed.settled
    {program : List Stmt}
    {state : State}
    (installed : Installed program state)
    (proper : Stmt.AllProper program) :
    AllSettled state.distances (· ∈ (Scoping.resolve program).settled) (programSites program) := by
  have faultless := faultless_of_accepted installed.accepted
  intro site inSites
  refine ⟨List.findSome?_eq_none_iff.mp faultless site inSites,
    sound_statements program proper Place.sound_outermost site inSites, fun id name known => ?_⟩
  have settled := mem_settled_of_accepted installed.accepted inSites known
  exact ⟨settled, installed.recorded _ settled⟩

/-- The scope of a loop is the first one that is made for it. -/
theorem shares_inside
    {loop : ForLoop}
    {place : Place}
    {state begun : State}
    {first : Stmt}
    {fuel : Nat}
    (initialized : loop.initializer = some first)
    (given : Execution.execute fuel first (Act.enterBlock.result state) = .ok () begun) :
    SharesScope state.heap.scopes.size first.declared place.scopes
      ⟨loop.inside place, fuel, loop.repeated, begun⟩ := by
  have restored := (restores_steady.execute fuel first).ok given
  refine ⟨0, ⟨[], first.declared, ?_, rfl, fun _ member => member⟩, congrArg some restored.scope⟩
  unfold ForLoop.inside
  rw [initialized]
  rfl

/--
In every program that resolution accepts, every `for` loop runs as it is meant, wherever it
stands and in every state: in one scope, if it has an initializer, that is run first; then,
as long as the condition holds, the body and after it the increment are run there.  It ends
with the same error or value, the same texts, and the same in all scopes and instances that
were there before.  The rounds and all functions made in them share the variable of the
loop, which is not visible behind it.
-/
theorem for_loops_run_as_meant
    {tokens : List Token}
    {nextId : NodeId}
    {program : List Stmt}
    {final : Grammar.Reader}
    {state : State}
    {loop : ForLoop}
    (legible : Grammar.LegibleTokens tokens)
    (parsed : Grammar.program (Grammar.Reader.start tokens nextId) = .ok program final)
    (installed : Installed program state)
    (occurs : (Node.statement loop.desugared).OccursIn (program.map .statement)) :
    (∃ place, StandsAt program place loop.desugared) ∧
      ∀ place, StandsAt program place loop.desugared → RunsAsMeant loop place state := by
  refine ⟨exists_standsAt occurs, fun place stands => ?_⟩
  have inProgram := installed.settled (Grammar.allProper_of_parsed parsed legible)
  have settled : AllSettled state.distances (· ∈ (Scoping.resolve program).settled)
      (loop.desugared.sites place) := fun site member =>
    inProgram site (stands.sites_sublist.subset member)
  have distinct := stands.nodup_ids (nodup_ids_of_parsed parsed)
  refine ⟨state.exists_below, fun base below fuel ends => ?_, fun base below fuel ends => ?_,
    fun first initialized fuel begun given statement later name isName apart => ?_,
    loop.declared_desugared, fun fuel => ⟨?_, fun id has depth => ?_⟩⟩
  · exact ForLoop.alike_runDirectly settled distinct installed.whole below ends
  · exact ForLoop.runDirectly_alike settled distinct installed.whole below ends
  · exact (later.shares (shares_inside initialized given)).denotes isName apart
  · exact (restores_steady.execute fuel loop.desugared state).scope
  · exact ancestor?_ne_new installed.whole.heap (grows_steady.execute fuel loop.desugared state)
      has (Nat.lt_irrefl _)

/-- The tokens of `for (var i = true; i; i = false) { fun f() { print i; } f(); }`. -/
def singleRoundTokens : List Token :=
  let word (text : String) : Token := ⟨.identifier, text, 1⟩
  let keyword (word : Keyword) : Token := ⟨.keyword word, word.spelling, 1⟩
  let symbol (symbol : Symbol) : Token := ⟨.symbol symbol, symbol.spelling, 1⟩
  [keyword .forWord, symbol .leftParen, keyword .varWord, word "i", symbol .equal,
    keyword .trueWord, symbol .semicolon, word "i", symbol .semicolon, word "i",
    symbol .equal, keyword .falseWord, symbol .rightParen, symbol .leftBrace,
    keyword .funWord, word "f", symbol .leftParen, symbol .rightParen, symbol .leftBrace,
    keyword .printWord, word "i", symbol .semicolon, symbol .rightBrace, word "f",
    symbol .leftParen, symbol .rightParen, symbol .semicolon, symbol .rightBrace]

/-- Whether a program is a loop with all clauses. -/
def isSingleLoop : List Stmt → Bool
  | [.block [_, .loop _ (.block [body, .expression _])]] => body.declared.isEmpty
  | _ => false

theorem exists_loop_of_isSingleLoop
    {program : List Stmt}
    (single : isSingleLoop program = true) :
    ∃ loop : ForLoop, program = [loop.desugared] := by
  unfold isSingleLoop at single
  split at single
  case h_1 first condition body increment =>
    exact ⟨⟨some first, some condition, some increment, body, List.isEmpty_iff.mp single⟩, rfl⟩
  case h_2 => cases single

/-- A loop with a function in it that prints its variable runs as it is meant. -/
theorem for_loops_run_as_meant_single_round :
    ∃ program final state loop place,
      Grammar.program (Grammar.Reader.start singleRoundTokens 0) = .ok program final ∧
        Installed program state ∧
        ¬ Exhausted (executeAll 12 program state) ∧
        (endState (executeAll 12 program state)).transcript.printed = #["true"] ∧
        StandsAt program place loop.desugared ∧ RunsAsMeant loop place state := by
  have legible : Grammar.LegibleTokens singleRoundTokens := by
    unfold Grammar.LegibleTokens
    decide
  have faultless :
      (Grammar.readProgram (Grammar.Reader.start singleRoundTokens 0)).errors = [] :=
    List.isEmpty_iff.mp (by decide +kernel)
  have parsed := Grammar.program_of_faultless faultless
  let program := (Grammar.readProgram (Grammar.Reader.start singleRoundTokens 0)).statements
  let session : Session :=
    ⟨State.initial ⟨0⟩,
      (Grammar.readProgram (Grammar.Reader.start singleRoundTokens 0)).reader.nextId⟩
  let state := (session.recording program).state
  have reachable : Reachable [program] session :=
    .parsed (.start ⟨0⟩) legible (parseTokens_of_faultless faultless ⟨0⟩)
  have verdict : (Scoping.resolve program).verdict = .ok () := by decide +kernel
  have accepted : resolve program session = .ok () (session.recording program) := by
    rw [resolve_apply, verdict]
  have here : Reaches (.statements 12 program) state (.statements 12 program) state := .here
  have installed := installed_of_reaches reachable List.mem_cons_self accepted here
  have ends : (executeAll 12 program).run' state = some () := by decide +kernel
  obtain ⟨loop, isLoop⟩ : ∃ loop : ForLoop, program = [loop.desugared] :=
    exists_loop_of_isSingleLoop (by decide +kernel)
  have occurs : (Node.statement loop.desugared).OccursIn (program.map .statement) := by
    rw [isLoop]
    exact ⟨_, List.mem_singleton_self _, .here⟩
  obtain ⟨⟨place, stands⟩, runs⟩ := for_loops_run_as_meant legible parsed installed occurs
  refine ⟨program, _, state, loop, place, parsed, installed, ?_, by decide +kernel, stands,
    runs place stands⟩
  rintro ⟨after, exhausted⟩
  delta EStateM.run' EStateM.run at ends
  rw [exhausted] at ends
  cases ends

end Lox.Session
