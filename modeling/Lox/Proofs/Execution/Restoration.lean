import Lox.Proofs.Execution.Endings

namespace Lox.Execution

/-!
# The current scope comes back

Blocks, calls and classes make other scopes the current one for a while.  However
they are left, by their end, by an error or by a return, the scope that was current
before them is current again.  So between two programs the global scope is current,
whatever has become of the first one.
-/

/-- A run that ends in the scope in which it has begun, under the same global scope. -/
structure Restores (before after : State) : Prop where
  scope : after.scope = before.scope
  globals : after.globals = before.globals

/-- Only a run inside another scope moves at all, and it moves back. -/
theorem restores_steady : Steady Restores where
  refl _ := ⟨rfl, rfl⟩
  trans first second :=
    ⟨second.scope.trans first.scope, second.globals.trans first.globals⟩
  inside inner := ⟨rfl, inner.globals⟩
  addScope _ _ _ := ⟨rfl, rfl⟩
  define _ _ _ _ := ⟨rfl, rfl⟩
  addFunction _ _ := ⟨rfl, rfl⟩
  addClass _ _ := ⟨rfl, rfl⟩
  addInstance _ _ := ⟨rfl, rfl⟩
  setField _ _ _ _ := ⟨rfl, rfl⟩
  print _ _ := ⟨rfl, rfl⟩
  tick _ := ⟨rfl, rfl⟩

/-- One program of a series, with the distances of occurrences that it is run with. -/
structure Round where
  distances : Distances
  program : List Stmt
  fuel : Nat

namespace State

/-- The state in which a program of a series leaves the next one, however it ends. -/
def afterRound (state : State) (round : Round) : State :=
  endState (interpret round.fuel round.program { state with distances := round.distances })

/-- The state behind a series of programs. -/
def afterRounds (state : State) (rounds : List Round) : State :=
  rounds.foldl afterRound state

/-- What a program is run with changes no scope, and its run restores the current one. -/
theorem restores_afterRound (state : State) (round : Round) :
    Restores state (state.afterRound round) := by
  let given := { state with distances := round.distances }
  have ran : Restores given (state.afterRound round) :=
    restores_steady.interpret round.fuel round.program given
  exact ⟨ran.scope, ran.globals⟩

theorem restores_afterRounds (state : State) (rounds : List Round) :
    Restores state (state.afterRounds rounds) := by
  induction rounds generalizing state with
  | nil => exact restores_steady.refl state
  | cons round rest inductionHypothesis =>
      have first := state.restores_afterRound round
      exact restores_steady.trans first (inductionHypothesis (state.afterRound round))

end State

/--
In every state, with whatever distances of occurrences, the current scope is
restored at every exit of an expression, a statement, a body that is run in some
scope, and a call of a function, a method or a class.  Behind any series of programs
the global scope is current, and the next program runs its statements there, one
after another.
-/
theorem scope_restored :
    (∀ (fuel : Nat) (state : State),
        (∀ value, (endState (evaluate fuel value state)).scope = state.scope) ∧
          (∀ statement, (endState (execute fuel statement state)).scope = state.scope) ∧
          (∀ scope body,
            (endState (within scope (executeAll fuel body) state)).scope = state.scope) ∧
          ∀ callee arguments,
            (endState (call fuel callee arguments state)).scope = state.scope) ∧
      ∀ (clock : Clock) (rounds : List Round),
        let state := (State.initial clock).afterRounds rounds
        state.scope = (State.initial clock).globals ∧
          state.globals = (State.initial clock).globals ∧
          ∀ (fuel : Nat) (before : List Stmt),
            (endState (executeAll fuel before state)).scope = state.globals := by
  refine ⟨fun fuel state => ⟨fun value => ?_, fun statement => ?_, fun scope body => ?_,
    fun callee arguments => ?_⟩, fun clock rounds => ?_⟩
  · exact (restores_steady.evaluate fuel value state).scope
  · exact (restores_steady.execute fuel statement state).scope
  · have body := restores_steady.executeAll fuel body
    exact (restores_steady.within body scope state).scope
  · exact (restores_steady.call fuel callee arguments state).scope
  · have series := (State.initial clock).restores_afterRounds rounds
    have start : (State.initial clock).scope = (State.initial clock).globals := rfl
    refine ⟨series.scope.trans start, series.globals, fun fuel before => ?_⟩
    have ran := restores_steady.executeAll fuel before
      ((State.initial clock).afterRounds rounds)
    exact ran.scope.trans ((series.scope.trans start).trans series.globals.symm)

end Lox.Execution
