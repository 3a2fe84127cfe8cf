import Lox.Proofs.Execution.Frames
import Lox.Proofs.Session.Dispatch
import Lox.Proofs.Session.Searches

namespace Lox.Session

open Scoping Execution

/-!
# Assignments

An assignment goes to the scope that resolution has found for its variable.  That scope has
the name already, so that only a value changes.  The one exception is an assignment in the
initializer of the variable itself: it runs before the declaration has bound the name, and
then it is the assignment that binds it.
-/

/-- Two heaps have the same names in each of their scopes. -/
def SameNames (before after : Heap) : Prop :=
  ∀ scope name,
    (after.getLocal? scope name).isSome ↔ (before.getLocal? scope name).isSome

/-- One of some programs has an assignment in the initializer of the variable it assigns. -/
def AssignedInItsInitializer (programs : List (List Stmt)) (target : Reference) : Prop :=
  ∃ origin ∈ programs, ∃ site ∈ programSites origin,
    site.deed = .assigns target ∧ site.initializing = some target.name.text

/--
A value is assigned to a variable: the scope that is written to has the name already, and
no scope gets a name that it does not have.
-/
structure Overwrites (before : State) (target : Reference) (value : Value) (after : State) :
    Prop where
  written :
    ∃ scope, before.writtenScope? target = some scope ∧
      (before.heap.getLocal? scope target.name.text).isSome ∧
      after = before.define scope target.name.text value
  names : SameNames before.heap after.heap

section

variable {programs : List (List Stmt)} {program : List Stmt} {session resolved : Session}
  {initializing : Option String} {distances : Distances} {fuel left : Nat}
  {target : Reference} {value : Expr} {found : Value} {begun before state after : State}

/-- A name that is bound again is the only one, and was bound before. -/
theorem sameNames_define
    {heap : Heap}
    {scope : ScopeId}
    {name : String}
    (bound : (heap.getLocal? scope name).isSome)
    (value : Value) :
    SameNames heap (heap.define scope name value) := by
  intro other name'
  constructor
  · intro later
    rcases Heap.getLocal?_of_define later with there | ⟨rfl, rfl⟩
    · exact there
    · exact bound
  · exact (Grows.define heap scope name value).isSome_getLocal?

/-- An assignment that succeeds has evaluated its value, and writes it to some scope. -/
theorem exists_written
    (given : Execution.evaluate left (.assign target value) state = .ok found after) :
    ∃ nearer before scope,
      left = nearer + 1 ∧ Execution.evaluate nearer value state = .ok found before ∧
        before.writtenScope? target = some scope ∧
        after = before.define scope target.name.text found := by
  cases left with
  | zero => cases given
  | succ nearer =>
      obtain ⟨assigned, before, evaluated, rest⟩ := bind_eq_ok_iff.mp given
      obtain ⟨⟨⟩, later, stored, ended⟩ := bind_eq_ok_iff.mp rest
      obtain ⟨rfl, rfl⟩ := EStateM.Result.ok.inj ended
      rw [assignTo_apply] at stored
      cases written : before.writtenScope? target with
      | none => simp [written] at stored
      | some scope =>
          rw [written] at stored
          obtain ⟨-, rfl⟩ := EStateM.Result.ok.inj stored
          exact ⟨nearer, before, scope, rfl, evaluated, written, rfl⟩

/-- An assignment of a program that runs in an initializer stands in this initializer. -/
theorem assignedInItsInitializer_of_admitted
    {levels : List Label}
    (admitted : ClearIfSeparate programs levels initializing (.assigns target))
    (own : initializing = some target.name.text) :
    AssignedInItsInitializer programs target := by
  obtain ⟨origin, inPrograms, site, inSites, isDeed, same, -⟩ := admitted
  exact ⟨origin, inPrograms, site, inSites, isDeed, (same target rfl).symm.trans own⟩

/--
In every session, an assignment binds no names outside of initializers.  Whenever the run
of an accepted program evaluates an assignment, and this succeeds, then the value has been
evaluated, and it replaces the value that the variable has in the scope that is written to.
The only exception is an assignment in the initializer of the assigned variable, if that
is local: it writes to the current scope.
-/
theorem assignments_overwrite
    (reachable : Reachable programs session)
    (member : program ∈ programs)
    (accepted : resolve program session = .ok () resolved)
    (reaches : Reaches (.statements fuel program) resolved.state
      (.expression left (.assign target value)) state)
    (given : Execution.evaluate left (.assign target value) state = .ok found after) :
    ∃ nearer before,
      left = nearer + 1 ∧ Execution.evaluate nearer value state = .ok found before ∧
        (Overwrites before target found after ∨
          AssignedInItsInitializer programs target ∧
            before.distances.get? target.id = some 0 ∧
            after = before.define before.scope target.name.text found) := by
  obtain ⟨nearer, before, scope, rfl, evaluated, written, rfl⟩ := exists_written given
  refine ⟨nearer, before, rfl, evaluated, ?_⟩
  obtain ⟨initializing, ready, twins⟩ :=
    reached_twins searchPairing reachable member accepted reaches
  rcases writtenScope?_cases ready evaluated written with bound | ⟨own, distance, rfl⟩
  · exact .inl ⟨⟨scope, written, bound, rfl⟩, sameNames_define bound found⟩
  · obtain ⟨levels, -, both⟩ := twins
    cases both with
    | assign _ _ admitted =>
        exact .inr ⟨assignedInItsInitializer_of_admitted admitted own, distance, rfl⟩

end

/-- An assignment in an inner block replaces the value of a variable of the outer one. -/
theorem assignments_overwrite_outer :
    ∃ session resolved state after,
      Reachable [assigningProgram] session ∧
        resolve assigningProgram session = .ok () resolved ∧
        Reaches (.statements 5 assigningProgram) resolved.state
          (.expression 2 (.assign ⟨2, ⟨"a", 1⟩⟩ (.reference ⟨1, ⟨"a", 1⟩⟩))) state ∧
        Execution.evaluate 2 (.assign ⟨2, ⟨"a", 1⟩⟩ (.reference ⟨1, ⟨"a", 1⟩⟩)) state =
          .ok .nil after ∧
        Overwrites state ⟨2, ⟨"a", 1⟩⟩ .nil after := by
  obtain ⟨session, distances, reachable, accepted, recorded⟩ :=
    exists_first_run assigningTokens assigningProgram
      (by unfold Grammar.LegibleTokens; decide) (List.isEmpty_iff.mp (by decide +kernel)) rfl
      (by decide +kernel)
  have read : distances.get? 1 = some 1 := recorded ⟨1, "a", some 1⟩ (by decide +kernel)
  have assigned : distances.get? 2 = some 1 := recorded ⟨2, "a", some 1⟩ (by decide +kernel)
  obtain ⟨state, reaches, same, bound, outer⟩ : ∃ state,
      Reaches (.statements 5 assigningProgram)
          { State.initial ⟨0⟩ with distances := distances }
          (.expression 2 (.assign ⟨2, ⟨"a", 1⟩⟩ (.reference ⟨1, ⟨"a", 1⟩⟩))) state ∧
        state.distances = distances ∧
        state.heap.getAt? state.scope 1 "a" = some .nil ∧
        state.heap.ancestor? 1 state.scope = some 1 :=
    ⟨_, .inside .firstStatement <| .inside (.block rfl) <| .inside (.otherStatements rfl) <|
      .inside .firstStatement <| .inside (.block rfl) <| .inside .firstStatement <|
      .inside .effect .here, rfl, rfl, rfl⟩
  have evaluated : Execution.evaluate 1 (.reference ⟨1, ⟨"a", 1⟩⟩) state = .ok .nil state :=
    lookUp_apply (by rw [same, read]; exact bound)
  have written : state.writtenScope? ⟨2, ⟨"a", 1⟩⟩ = some 1 := by
    unfold State.writtenScope?
    rw [same, assigned]
    exact outer
  have given : Execution.evaluate 2 (.assign ⟨2, ⟨"a", 1⟩⟩ (.reference ⟨1, ⟨"a", 1⟩⟩)) state =
      .ok .nil (state.define 1 "a" .nil) := by
    rw [Execution.evaluate, bind_of_ok evaluated, bind_apply, assignTo_apply, written]
    rfl
  obtain ⟨nearer, before, isNearer, again, either⟩ :=
    assignments_overwrite reachable List.mem_cons_self accepted reaches given
  obtain rfl : 1 = nearer := Nat.succ.inj isNearer
  obtain ⟨-, rfl⟩ := EStateM.Result.ok.inj (evaluated.symm.trans again)
  refine ⟨session, _, state, _, reachable, accepted, reaches, given, ?_⟩
  rcases either with overwrites | ⟨-, here, -⟩
  · exact overwrites
  · rw [same, assigned] at here
    cases here

/-- The tokens of `{ var a = a = nil; }`. -/
def selfInitializedTokens : List Token :=
  let word (text : String) : Token := ⟨.identifier, text, 1⟩
  let keyword (word : Keyword) : Token := ⟨.keyword word, word.spelling, 1⟩
  let symbol (symbol : Symbol) : Token := ⟨.symbol symbol, symbol.spelling, 1⟩
  [symbol .leftBrace, keyword .varWord, word "a", symbol .equal, word "a", symbol .equal,
    keyword .nilWord, symbol .semicolon, symbol .rightBrace]

/-- A block in which a variable is assigned in its own initializer. -/
def selfInitialized : List Stmt :=
  [.block [.varDeclaration ⟨"a", 1⟩ (some (.assign ⟨1, ⟨"a", 1⟩⟩ (.literal .nil)))]]

/--
An accepted program has an assignment that succeeds although the scope that it writes to
does not have the name just before, so that it is the assignment that binds it.
-/
theorem initializer_binds_by_assignment :
    ∃ session resolved state after,
      Reachable [selfInitialized] session ∧
        resolve selfInitialized session = .ok () resolved ∧
        Reaches (.statements 4 selfInitialized) resolved.state
          (.expression 2 (.assign ⟨1, ⟨"a", 1⟩⟩ (.literal .nil))) state ∧
        Execution.evaluate 1 (.literal .nil) state = .ok .nil state ∧
        Execution.evaluate 2 (.assign ⟨1, ⟨"a", 1⟩⟩ (.literal .nil)) state = .ok .nil after ∧
        state.writtenScope? ⟨1, ⟨"a", 1⟩⟩ = some state.scope ∧
        state.heap.getLocal? state.scope "a" = none ∧
        after.heap.getLocal? state.scope "a" = some .nil := by
  obtain ⟨session, distances, reachable, accepted, recorded⟩ :=
    exists_first_run selfInitializedTokens selfInitialized
      (by unfold Grammar.LegibleTokens; decide) (List.isEmpty_iff.mp (by decide +kernel)) rfl
      (by decide +kernel)
  have assigned : distances.get? 1 = some 0 := recorded ⟨1, "a", some 0⟩ (by decide +kernel)
  obtain ⟨state, reaches, same, unbound, bound⟩ : ∃ state,
      Reaches (.statements 4 selfInitialized) { State.initial ⟨0⟩ with distances := distances }
          (.expression 2 (.assign ⟨1, ⟨"a", 1⟩⟩ (.literal .nil))) state ∧
        state.distances = distances ∧
        state.heap.getLocal? state.scope "a" = none ∧
        (state.define state.scope "a" .nil).heap.getLocal? state.scope "a" = some .nil :=
    ⟨_, .inside .firstStatement <| .inside (.block rfl) <| .inside .firstStatement <|
      .inside .initializer .here, rfl, rfl, rfl⟩
  have written : state.writtenScope? ⟨1, ⟨"a", 1⟩⟩ = some state.scope := by
    unfold State.writtenScope?
    rw [same, assigned]
    rfl
  have given : Execution.evaluate 2 (.assign ⟨1, ⟨"a", 1⟩⟩ (.literal .nil)) state =
      .ok .nil (state.define state.scope "a" .nil) := by
    have evaluated : Execution.evaluate 1 (.literal .nil) state = .ok .nil state := rfl
    rw [Execution.evaluate, bind_of_ok evaluated, bind_apply, assignTo_apply, written]
    rfl
  exact ⟨session, _, state, _, reachable, accepted, reaches, rfl, given, written, unbound,
    bound⟩

end Lox.Session
