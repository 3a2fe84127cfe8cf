import Lox.Proofs.Execution.Frames
import Lox.Proofs.Session.Accounts

namespace Lox.Session

open Scoping Execution

/-!
# Blocks and calls in a session

Wherever the run of an accepted program comes to a block or to a call, in code of this
program or of one before it, nothing that is declared inside is left behind outside.
-/

section

variable {programs : List (List Stmt)} {program : List Stmt} {session resolved : Session}
  {fuel : Nat} {task : Task} {state : State}

/-- Every task that the run of an accepted program reaches is grounded. -/
theorem grounded_of_reaches
    (reachable : Reachable programs session)
    (member : program ∈ programs)
    (accepted : resolve program session = .ok () resolved)
    (reaches : Reaches (.statements fuel program) resolved.state task state) :
    Grounded (Resolved programs resolved.state.distances) state task := by
  obtain ⟨clock, history, recounts⟩ := reachable.recounts
  obtain ⟨-, atHome⟩ := recounts.resting.atHome reachable member accepted fuel
  exact atHome.toGrounded.reaches reaches

/--
In every session, declarations never leak out of a block or a call.  Whenever the run of
an accepted program executes a block or calls a native function, a function, a method or a
class, and however this ends, every scope that was there before is afterwards enclosed by
the same scope and binds the same names, every instance is still of its class and has all
of its fields, and every class and every function is unchanged.
-/
theorem declarations_never_leak
    (reachable : Reachable programs session)
    (member : program ∈ programs)
    (accepted : resolve program session = .ok () resolved)
    (fuel : Nat) :
    (∀ left body state,
        Reaches (.statements fuel program) resolved.state (.statement left (.block body))
          state →
        state.heap.LeftAlone (endState (Execution.execute left (.block body) state)).heap) ∧
      ∀ left callee arguments state,
        Reaches (.statements fuel program) resolved.state (.call left callee arguments)
          state →
        state.heap.LeftAlone (endState (call left callee arguments state)).heap := by
  refine ⟨fun left body state reaches => ?_, fun left callee arguments state reaches => ?_⟩
  · have alone := (grounded_of_reaches reachable member accepted reaches).leavesAlone .block
    rwa [Task.run, endState_map] at alone
  · have alone := (grounded_of_reaches reachable member accepted reaches).leavesAlone .call
    rwa [Task.run, endState_map] at alone

end

/-- The tokens of `{ var a; { a = nil; } }`. -/
def nestedTokens : List Token :=
  let name : Token := ⟨.identifier, "a", 1⟩
  let keyword (word : Keyword) : Token := ⟨.keyword word, word.spelling, 1⟩
  let symbol (symbol : Symbol) : Token := ⟨.symbol symbol, symbol.spelling, 1⟩
  [symbol .leftBrace, keyword .varWord, name, symbol .semicolon,
    symbol .leftBrace, name, symbol .equal, keyword .nilWord, symbol .semicolon,
    symbol .rightBrace, symbol .rightBrace]

/-- The inner block assigns to the variable of the outer one, and neither leaks. -/
theorem declarations_never_leak_nested :
    let inner : List Stmt := [.expression (.assign ⟨1, ⟨"a", 1⟩⟩ (.literal .nil))]
    let outer : List Stmt := [.varDeclaration ⟨"a", 1⟩ none, .block inner]
    ∃ session resolved before between,
      Reachable [[.block outer]] session ∧
        resolve [.block outer] session = .ok () resolved ∧
        Reaches (.statements 4 [.block outer]) resolved.state (.statement 4 (.block outer))
          before ∧
        before.heap.LeftAlone
          (endState (Execution.execute 4 (.block outer) before)).heap ∧
        Reaches (.statements 4 [.block outer]) resolved.state (.statement 3 (.block inner))
          between ∧
        between.heap.LeftAlone
          (endState (Execution.execute 3 (.block inner) between)).heap := by
  intro inner outer
  have faultless : (Grammar.readProgram (Grammar.Reader.start nestedTokens 0)).errors = [] :=
    rfl
  have read : (Grammar.readProgram (Grammar.Reader.start nestedTokens 0)).statements =
      [.block outer] :=
    rfl
  have legible : Grammar.LegibleTokens nestedTokens := by
    unfold Grammar.LegibleTokens
    decide
  have parsed := parseTokens_of_faultless faultless ⟨0⟩
  dsimp only at parsed
  rw [read] at parsed
  have reachable := Reachable.parsed (.start ⟨0⟩) legible parsed
  have verdict : (Scoping.resolve [.block outer]).verdict = .ok () := by
    decide +kernel
  have accepted : ∀ session,
      resolve [.block outer] session = .ok () (session.recording [.block outer]) := by
    intro session
    rw [resolve_apply, verdict]
  have leaks := declarations_never_leak reachable (by simp) (accepted _) 4
  have toOuter : ∀ state,
      Reaches (.statements 4 [.block outer]) state (.statement 4 (.block outer)) state :=
    fun state => .inside .firstStatement .here
  have toInner : ∀ state, ∃ after,
      Reaches (.statements 4 [.block outer]) state (.statement 3 (.block inner)) after :=
    fun state => ⟨_, .inside .firstStatement <| .inside (.block rfl) <|
      .inside (.otherStatements rfl) <| .inside .firstStatement .here⟩
  obtain ⟨between, toBetween⟩ := toInner _
  exact ⟨_, _, _, between, reachable, accepted _, toOuter _, leaks.1 _ _ _ (toOuter _),
    toBetween, leaks.1 _ _ _ toBetween⟩

end Lox.Session
