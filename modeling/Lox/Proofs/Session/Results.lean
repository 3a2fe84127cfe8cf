import Lox.Proofs.Execution.Activations
import Lox.Proofs.Execution.Constructors
import Lox.Proofs.Session.Dispatch
import Lox.Proofs.Session.Frames

namespace Lox.Session

open Scoping Execution

/-!
# Results of calls in a session

Wherever the run of an accepted program calls a class, a constructor, or any other function,
in code of this program or of one before it: a class gives a new instance, a constructor
its receiver, and any other function what its own body returns.
-/

section

variable {programs : List (List Stmt)} {program : List Stmt} {session resolved : Session}
  {clock : Clock} {history : List Act} {fuel left line : Nat} {task : Task}
  {callee : Expr} {arguments : List Expr} {subject value : Value} {values : List Value}
  {state middle later after : State} {function : Function}

/-- In every session the functions that are marked as constructors have a receiver. -/
theorem Recounts.marked (recounts : Recounts clock programs history session) :
    session.state.heap.Marked := by
  induction recounts with
  | start =>
      have none : ∀ id : FunctionId, (#[] : Array Function)[id]? = none := by simp
      exact fun id function known => nomatch (none id).symm.trans known
  | parsed _ _ given marked => exact (fresh_of_parsed given).2 ▸ marked
  | misparsed _ stopped marked =>
      rw [(advances_of_misparsed stopped).2]
      exact marked
  | rejected _ _ stopped marked =>
      rw [resolve_apply] at stopped
      split at stopped
      · cases stopped
      · obtain ⟨-, rfl⟩ := EStateM.Result.error.inj stopped
        exact marked
  | @ran _ _ session program resolved fuel progress before member accepted course _ marked =>
      obtain ⟨-, atHome⟩ := before.resting.atHome before.reachable member accepted fuel
      obtain ⟨-, rfl⟩ := accepted_of_resolve accepted
      exact course.marked atHome.toGrounded marked

end

end Lox.Session
