import Lox.Proofs.Execution.Activations
import Lox.Proofs.Session.Dispatch
import Lox.Proofs.Session.Frames

namespace Lox.Session

open Scoping Execution

/-!
# Calls in a session

Wherever the run of an accepted program calls something, in code of this program or of one
before it, no argument is dropped and no parameter is left without one, and the body that
begins with them is the one whose ending decides what the call gives.
-/

/-- A task calls nothing itself. -/
def CallsNothing (task : Task) (state : State) : Prop :=
  ∀ first after, Starts task state first after → ¬ first.IsCall

/--
A call goes on from a state with what is called.  The function that is selected runs, if
there is one and enough fuel, and no other; it begins with its parameters bound, and the
call goes by how the body that begins so ends.  If no function is selected, the call gives
the time or a new instance and nothing else.
-/
structure GoesOn (left : Nat) (task : Task) (found : Callee) (values : List Value)
    (state later : State) : Prop where
  starts : Starts task state (.call left found values) later
  begins :
    ∀ function begun, Activation (.call left found values) later function begun →
      later.heap.Selects function found ∧ Activates function values later begun
  gives :
    ∀ function begun, Activation (.call left found values) later function begun →
      call left found values later =
        found.outcome function later
          (executeAll (left - found.nesting) function.declaration.body begun)
  runs :
    ∀ function, later.heap.Selects function found → 2 ≤ left →
      ∃ begun, Activation (.call left found values) later function begun
  runsNothing :
    (∀ function, ¬ later.heap.Selects function found) → 1 ≤ left →
      call left found values later = found.ownOutcome later

section

variable {programs : List (List Stmt)} {program : List Stmt} {session resolved : Session}
  {fuel left line : Nat} {callee : Expr} {arguments : List Expr} {subject : Value}
  {values : List Value} {state middle later : State}

/--
In every session, calls bind every parameter and drop no argument.  Whenever the run of an
accepted program has evaluated the callee and the arguments of a call, this ends with a
type error unless a function or a class is called, and with an arity mismatch if there are
not as many arguments as that takes; then nothing is called.  Otherwise the call goes on,
and the function that it runs begins in a new scope under its closure with its parameters,
each of them bound to its argument.  What the call gives is what this function's body, run
from there, decides.
-/
theorem calls_bind_parameters
    (reachable : Reachable programs session)
    (member : program ∈ programs)
    (accepted : resolve program session = .ok () resolved)
    (reaches : Reaches (.statements fuel program) resolved.state
      (.expression (left + 1) (.call callee arguments line)) state)
    (givenCallee : Execution.evaluate left callee state = .ok subject middle)
    (givenArguments : arguments.mapM (Execution.evaluate left) middle = .ok values later) :
    let task := Task.expression (left + 1) (.call callee arguments line)
    let outcome := Execution.evaluate (left + 1) (.call callee arguments line) state
    (¬ subject.IsCallable →
        outcome = .error (.error (.typeFault (.notCallable line))) later ∧
          CallsNothing task state) ∧
      (subject.IsCallable → ∃ found, later.heap.callee? subject = some found ∧
        (values.length ≠ later.heap.arity found →
          outcome = .error
              (.error (.arityMismatch (later.heap.arity found) values.length line)) later ∧
            CallsNothing task state) ∧
        (values.length = later.heap.arity found →
          outcome = call left found values later ∧
            GoesOn left task found values state later)) := by
  intro task outcome
  have grounded := grounded_of_reaches reachable member accepted reaches
  have has := grounded.has_subject givenCallee givenArguments
  have goesOn : outcome = _ := evaluate_call givenCallee givenArguments
  -- Whatever is called has been found by the comparison of the numbers.
  have nothing : ∀ exit, calleeFor subject values.length line later = .error exit later →
      outcome = .error exit later ∧ CallsNothing task state := by
    intro exit stopped
    refine ⟨goesOn.trans (bind_of_error stopped _), fun first after starts => ?_⟩
    refine not_isCall_of_starts givenCallee givenArguments (fun found other given => ?_) starts
    cases stopped.symm.trans given
  refine ⟨fun notCallable => nothing _ ?_, fun callable => ?_⟩
  · rw [← isSome_callee? has, Option.not_isSome_iff_eq_none] at notCallable
    rw [calleeFor_apply, notCallable]
  · obtain ⟨found, known⟩ := Option.isSome_iff_exists.mp ((isSome_callee? has).mpr callable)
    refine ⟨found, known, fun different => nothing _ ?_, fun same => ?_⟩
    · rw [calleeFor_apply, known]
      exact if_neg different
    · have given : calleeFor subject values.length line later = .ok found later := by
        rw [calleeFor_apply, known]
        exact if_pos same
      have starts : Starts task state (.call left found values) later :=
        .call givenCallee givenArguments given
      refine ⟨goesOn.trans (bind_of_ok given _), starts, fun function begun activation => ?_,
        fun function begun activation => call_of_activation activation,
        fun function selects enough => ?_, fun selectsNone enough => ?_⟩
      · exact activates_of_activation (grounded.ready.of_starts starts) activation
      · obtain ⟨more, rfl⟩ := Nat.exists_eq_add_of_le' enough
        exact exists_activation selects values
      · obtain ⟨more, rfl⟩ := Nat.exists_eq_add_of_le' enough
        exact call_of_selects_nothing selectsNone values

end

/-- The tokens of `fun f(a) {} f(nil);`. -/
def singleCallTokens : List Token :=
  let word (text : String) : Token := ⟨.identifier, text, 1⟩
  let keyword (word : Keyword) : Token := ⟨.keyword word, word.spelling, 1⟩
  let symbol (symbol : Symbol) : Token := ⟨.symbol symbol, symbol.spelling, 1⟩
  [keyword .funWord, word "f", symbol .leftParen, word "a", symbol .rightParen,
    symbol .leftBrace, symbol .rightBrace, word "f", symbol .leftParen, keyword .nilWord,
    symbol .rightParen, symbol .semicolon]

/-- A function with one parameter, and a call of it. -/
def singleCallProgram : List Stmt :=
  [.functionDeclaration (.intro ⟨"f", 1⟩ [⟨"a", 1⟩] []),
    .expression (.call (.reference ⟨0, ⟨"f", 1⟩⟩) [.literal .nil] 1)]

/-- A call of a declared function binds its parameter and runs its body. -/
theorem calls_bind_parameters_declared :
    ∃ session resolved state function begun,
      Reachable [singleCallProgram] session ∧
        resolve singleCallProgram session = .ok () resolved ∧
        Reaches (.statements 4 singleCallProgram) resolved.state
          (.expression 3 (.call (.reference ⟨0, ⟨"f", 1⟩⟩) [.literal .nil] 1)) state ∧
        Execution.evaluate 2 (.reference ⟨0, ⟨"f", 1⟩⟩) state =
          .ok (.functionObject 0) state ∧
        Execution.evaluate 3 (.call (.reference ⟨0, ⟨"f", 1⟩⟩) [.literal .nil] 1) state =
          call 2 (.function function) [.nil] state ∧
        Activation (.call 2 (.function function) [.nil]) state function begun ∧
        Activates function [.nil] state begun ∧
        call 2 (.function function) [.nil] state =
          (Callee.function function).outcome function state
            (executeAll 1 function.declaration.body begun) := by
  obtain ⟨session, distances, reachable, accepted, recorded⟩ :=
    exists_first_run singleCallTokens singleCallProgram
      (by unfold Grammar.LegibleTokens; decide) (List.isEmpty_iff.mp (by decide +kernel)) rfl
      (by decide +kernel)
  have global : distances.get? 0 = none := recorded ⟨0, "f", none⟩ (by decide +kernel)
  let function : Function := ⟨.intro ⟨"f", 1⟩ [⟨"a", 1⟩] [], 0, false⟩
  obtain ⟨state, reaches, same, bound, known⟩ : ∃ state,
      Reaches (.statements 4 singleCallProgram) { State.initial ⟨0⟩ with distances := distances }
          (.expression 3 (.call (.reference ⟨0, ⟨"f", 1⟩⟩) [.literal .nil] 1)) state ∧
        state.distances = distances ∧
        state.global? "f" = some (.functionObject 0) ∧
        state.heap.callee? (.functionObject 0) = some (.function function) :=
    ⟨_, .inside (.otherStatements rfl) <| .inside .firstStatement <| .inside .effect .here,
      rfl, rfl, rfl⟩
  have evaluated : Execution.evaluate 2 (.reference ⟨0, ⟨"f", 1⟩⟩) state =
      .ok (.functionObject 0) state :=
    lookUp_apply (by rw [same, global]; exact bound)
  have passed : [Expr.literal .nil].mapM (Execution.evaluate 2) state = .ok [.nil] state := rfl
  obtain ⟨-, called⟩ := calls_bind_parameters reachable List.mem_cons_self accepted reaches
    evaluated passed
  obtain ⟨found, isFound, -, matched⟩ := called trivial
  obtain rfl : Callee.function function = found := Option.some.inj (known.symm.trans isFound)
  obtain ⟨outcome, goesOn⟩ := matched rfl
  obtain ⟨begun, activation⟩ := goesOn.runs function rfl (Nat.le_refl 2)
  exact ⟨session, _, state, function, begun, reachable, accepted, reaches, evaluated, outcome,
    activation, (goesOn.begins function begun activation).2,
    goesOn.gives function begun activation⟩

end Lox.Session
