import Lox.Proofs.Execution.CopiedRuns
import Lox.Proofs.Execution.Distances
import Lox.Proofs.Execution.Mentions
import Lox.Proofs.Grammar.Copies
import Lox.Proofs.Scoping.Copies
import Lox.Session

namespace Lox.Session

open Scoping Execution

/-!
# Sessions that mirror each other

Two sessions mirror each other if one holds copies of what the other holds, and if the
identities that they are going to hand out stand for each other.  Then they still do after
the same tokens have been run in both, and these have the same effect.
-/

variable (matching : Matching)

/-- Sessions that hold copies, and that go on with identities that stand for each other. -/
structure SessionCopies (left right : Session) : Prop where
  state : StateCopies matching left.state right.state
  nextId : ∀ count, matching.ids (left.nextId + count) (right.nextId + count)

/-- Stops of one kind, at copies of what they are reported at. -/
inductive StopCopies : Stop → Stop → Prop where
  | syntactic {error error'} :
      Grammar.SyntaxErrorCopies matching error error' →
      StopCopies (.diagnostic (.syntactic error)) (.diagnostic (.syntactic error'))
  | scoping {error error'} :
      ScopeErrorCopies matching error error' →
      StopCopies (.diagnostic (.scoping error)) (.diagnostic (.scoping error'))
  | ofExit {exit exit'} :
      ExitCopies matching exit exit' →
      StopCopies (Stop.ofExit exit) (Stop.ofExit exit')

/-- Steps that end alike from sessions that mirror each other. -/
abbrev Mirror {α : Type} (matching : Matching) (values : α → α → Prop)
    (first second : Step α) : Prop :=
  Mirrors (SessionCopies matching) (StopCopies matching) values first second

variable {matching}

theorem StopCopies.eq
    (lines : matching.KeepsLines)
    {stop stop' : Stop}
    (copies : StopCopies matching stop stop') :
    stop = stop' := by
  cases copies with
  | syntactic error => rw [error.eq lines]
  | scoping error => rw [error.eq lines]
  | ofExit exit => rw [exit.eq lines]

/-! ## Parsing -/

theorem parseTokens_mirror
    {tokens tokens' : List Token}
    (same : List.Forall₂ (Grammar.TokenCopies matching) tokens tokens')
    (firstLine : matching.lines 1 1) :
    Mirror matching (List.Forall₂ (StmtCopies matching))
      (parseTokens Grammar.program tokens) (parseTokens Grammar.program tokens') := by
  intro left right copies
  have read := Grammar.program_mirror _ _ (Grammar.start_copies same firstLine copies.nextId)
  unfold parseTokens
  generalize Grammar.program (Grammar.Reader.start tokens left.nextId) = outcome at read ⊢
  generalize Grammar.program (Grammar.Reader.start tokens' right.nextId) = outcome' at read ⊢
  cases read with
  | ok program further => exact .ok program { copies with nextId := further.nextId }
  | error error further =>
      exact .error (.syntactic error) { copies with nextId := further.nextId }

/-! ## Resolving -/

/-- Distances that agree still do when occurrences are settled alike in both. -/
theorem record_copies
    {settled settled' : List Settlement}
    (copies : List.Forall₂ (SettlementCopies matching) settled settled')
    {distances distances' : Distances}
    (agree : ∀ {id id'}, matching.ids id id' → distances.get? id = distances'.get? id')
    {id id' : NodeId}
    (same : matching.ids id id') :
    (distances.record settled).get? id = (distances'.record settled').get? id' := by
  induction copies generalizing distances distances' with
  | nil => exact agree same
  | @cons first first' rest rest' settles _ inductionHypothesis =>
      rw [Distances.record_cons, Distances.record_cons]
      refine inductionHypothesis fun {other other'} others => ?_
      rw [settles.depth]
      cases first'.depth with
      | none => exact agree others
      | some depth =>
          -- The recorded identity is the one that is looked up in both, or in neither.
          simp only [Distances.get?_insert, matching.unique settles.id others, agree others]

theorem resolve_mirror
    {program program' : List Stmt}
    (copies : List.Forall₂ (StmtCopies matching) program program') :
    Mirror matching Eq (resolve program) (resolve program') := by
  obtain ⟨settled, verdicts⟩ := resolve_copies copies
  refine Mirrors.bind (.modify fun left right sessions => ?_) fun _ _ _ => ?_
  · exact { sessions with
      state := { sessions.state with
        distances := record_copies settled sessions.state.distances } }
  · generalize (Scoping.resolve program).verdict = verdict at verdicts ⊢
    generalize (Scoping.resolve program').verdict = verdict' at verdicts ⊢
    cases verdicts with
    | accepted => exact .pure rfl
    | rejected error => exact .throw (.scoping error)

/-! ## Running -/

theorem interpret_mirror
    {program program' : List Stmt}
    (copies : List.Forall₂ (StmtCopies matching) program program')
    (fuel : Nat) :
    Mirror matching Eq (interpret fuel program) (interpret fuel program') := by
  intro left right sessions
  have ended := Execution.interpret_mirror copies fuel _ _ sessions.state
  unfold interpret onState
  generalize Execution.interpret fuel program left.state = outcome at ended ⊢
  generalize Execution.interpret fuel program' right.state = outcome' at ended ⊢
  cases ended with
  | ok same further => exact .ok same { sessions with state := further }
  | error alike further => exact .error (.ofExit alike) { sessions with state := further }

/-- Copies of tokens have the same effect in both sessions. -/
theorem runTokens_mirror
    {tokens tokens' : List Token}
    (same : List.Forall₂ (Grammar.TokenCopies matching) tokens tokens')
    (firstLine : matching.lines 1 1)
    (fuel : Nat) :
    Mirror matching Eq (runTokens fuel tokens) (runTokens fuel tokens') :=
  (parseTokens_mirror same firstLine).bind fun _ _ copies =>
    (resolve_mirror copies).bind fun _ _ _ => interpret_mirror copies fuel

end Lox.Session
