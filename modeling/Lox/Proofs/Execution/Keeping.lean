import Lox.Proofs.Computation
import Lox.Proofs.Execution.Coherence
import Lox.Proofs.Execution.Tasks

namespace Lox.Execution

open Scoping

/-!
# What every step keeps

Every step of a run, however it ends, leaves a coherent heap that has lost
nothing, and the scope it was in.  The property is put for one step from one
state, together with what the step gives and how it may stop, so that steps in a
row can be followed one by one.
-/

/-- What a run leaves as it was, and what it only adds to. -/
structure Evolves (before after : State) : Prop where
  grows : Grows before.heap after.heap
  scope : after.scope = before.scope
  distances : after.distances = before.distances

namespace Evolves

variable {before middle after : State}

theorem refl (state : State) : Evolves state state :=
  ⟨.refl _, rfl, rfl⟩

theorem trans (first : Evolves before middle) (second : Evolves middle after) :
    Evolves before after :=
  ⟨first.grows.trans second.grows, second.scope.trans first.scope,
    second.distances.trans first.distances⟩

theorem covers
    {place : Place}
    {initializing : Option String}
    (evolves : Evolves before after)
    (covers : Covers before.heap before.scope place initializing) :
    Covers after.heap after.scope place initializing :=
  evolves.scope ▸ covers.grows evolves.grows

theorem settled
    {resolved : Settlement → Prop}
    {sites : List Site}
    (evolves : Evolves before after)
    (settled : AllSettled before.distances resolved sites) :
    AllSettled after.distances resolved sites :=
  evolves.distances ▸ settled

end Evolves

/--
From a state, a step ends in a coherent state that has evolved: with a value that
is good there, or by an exit that is allowed.
-/
def Keeps
    (resolved : Settlement → Prop)
    (step : Eval α)
    (state : State)
    (good : α → State → Prop)
    (allowed : Exit → Prop) :
    Prop :=
  match step state with
  | .ok value after =>
      Evolves state after ∧ Coherent after.distances resolved after.heap ∧ good value after
  | .error exit after =>
      Evolves state after ∧ Coherent after.distances resolved after.heap ∧ allowed exit

namespace Keeps

variable {α β : Type} {resolved : Settlement → Prop} {state after : State}
  {good better : α → State → Prop} {allowed : Exit → Prop}

/-- A value that a step is known to give. -/
theorem of_ok
    {step : Eval α}
    {value : α}
    (given : step state = .ok value after)
    (evolves : Evolves state after)
    (coherent : Coherent after.distances resolved after.heap)
    (fine : good value after) :
    Keeps resolved step state good allowed := by
  unfold Keeps
  rw [given]
  exact ⟨evolves, coherent, fine⟩

/-- An exit that a step is known to take. -/
theorem of_error
    {step : Eval α}
    {exit : Exit}
    (stopped : step state = .error exit after)
    (evolves : Evolves state after)
    (coherent : Coherent after.distances resolved after.heap)
    (fine : allowed exit) :
    Keeps resolved step state good allowed := by
  unfold Keeps
  rw [stopped]
  exact ⟨evolves, coherent, fine⟩

theorem ok
    {step : Eval α}
    {value : α}
    (keeps : Keeps resolved step state good allowed)
    (given : step state = .ok value after) :
    Evolves state after ∧ Coherent after.distances resolved after.heap ∧
      good value after := by
  unfold Keeps at keeps
  rwa [given] at keeps

theorem error
    {step : Eval α}
    {exit : Exit}
    (keeps : Keeps resolved step state good allowed)
    (stopped : step state = .error exit after) :
    Evolves state after ∧ Coherent after.distances resolved after.heap ∧ allowed exit := by
  unfold Keeps at keeps
  rwa [stopped] at keeps

theorem of_same
    {step other : Eval α}
    (same : step state = other state)
    (keeps : Keeps resolved other state good allowed) :
    Keeps resolved step state good allowed := by
  unfold Keeps at keeps ⊢
  rwa [same]

theorem pure
    {value : α}
    (coherent : Coherent state.distances resolved state.heap)
    (fine : good value state) :
    Keeps resolved (pure value) state good allowed :=
  of_ok rfl (.refl state) coherent fine

theorem throw
    {exit : Exit}
    (coherent : Coherent state.distances resolved state.heap)
    (fine : allowed exit) :
    Keeps resolved (throw exit) state good allowed :=
  of_error rfl (.refl state) coherent fine

/-- Steps in a row. -/
theorem bind
    {step : Eval α}
    {next : α → Eval β}
    {best : β → State → Prop}
    (first : Keeps resolved step state good allowed)
    (second : ∀ value after, step state = .ok value after → Evolves state after →
      Coherent after.distances resolved after.heap → good value after →
      Keeps resolved (next value) after best allowed) :
    Keeps resolved (step >>= next) state best allowed := by
  cases given : step state with
  | ok value middle =>
      obtain ⟨evolves, coherent, fine⟩ := first.ok given
      have continued := second value middle given evolves coherent fine
      have shift : (step >>= next) state = next value middle := bind_of_ok given next
      cases ended : next value middle with
      | ok result final =>
          obtain ⟨further, kept, good⟩ := continued.ok ended
          exact of_ok (shift.trans ended) (evolves.trans further) kept good
      | error exit final =>
          obtain ⟨further, kept, permitted⟩ := continued.error ended
          exact of_error (shift.trans ended) (evolves.trans further) kept permitted
  | error exit middle =>
      obtain ⟨evolves, coherent, permitted⟩ := first.error given
      have stopped : (step >>= next) state = .error exit middle := by
        rw [bind_apply, given]
      exact of_error stopped evolves coherent permitted

theorem get
    {next : State → Eval α}
    (known : Keeps resolved (next state) state good allowed) :
    Keeps resolved (get >>= next) state good allowed :=
  known

/-- Less may be said of what a step gives, and more exits allowed. -/
theorem weaken
    {step : Eval α}
    {others : Exit → Prop}
    (keeps : Keeps resolved step state good allowed)
    (implies : ∀ value after, Evolves state after → good value after → better value after)
    (permits : ∀ exit, allowed exit → others exit) :
    Keeps resolved step state better others := by
  cases given : step state with
  | ok value after =>
      obtain ⟨evolves, coherent, fine⟩ := keeps.ok given
      exact of_ok given evolves coherent (implies value after evolves fine)
  | error exit after =>
      obtain ⟨evolves, coherent, permitted⟩ := keeps.error given
      exact of_error given evolves coherent (permits exit permitted)

theorem map
    {step : Eval α}
    {convert : α → β}
    (keeps : Keeps resolved step state good allowed) :
    Keeps resolved (convert <$> step) state (fun _ _ => True) allowed := by
  rw [map_eq_pure_bind]
  exact keeps.bind fun _ _ _ _ coherent _ => .pure coherent trivial

/-- A run inside another scope, which is left again. -/
theorem within
    {step : Eval α}
    {scope : ScopeId}
    (keeps : Keeps resolved step { state with scope := scope } good allowed) :
    Keeps resolved (within scope step) state (fun _ _ => True) allowed := by
  cases given : step { state with scope := scope } with
  | ok value final =>
      obtain ⟨evolves, coherent, -⟩ := keeps.ok given
      have left :
          Execution.within scope step state = .ok value { final with scope := state.scope } := by
        simp [Execution.within, given]
      exact of_ok left ⟨evolves.grows, rfl, evolves.distances⟩ coherent trivial
  | error exit final =>
      obtain ⟨evolves, coherent, permitted⟩ := keeps.error given
      have left :
          Execution.within scope step state = .error exit { final with scope := state.scope } := by
        simp [Execution.within, given]
      exact of_error left ⟨evolves.grows, rfl, evolves.distances⟩ coherent permitted

/-- A body that may be left by a return. -/
theorem returning
    {body : Eval Unit}
    {good : Unit → State → Prop}
    (keeps : Keeps resolved body state good allowed) :
    Keeps resolved (returning body) state (fun _ _ => True) allowed := by
  cases given : body state with
  | ok value final =>
      obtain ⟨evolves, coherent, -⟩ := keeps.ok given
      have nothing : Execution.returning body state = .ok .nil final := by
        simp [Execution.returning, given]
      exact of_ok nothing evolves coherent trivial
  | error exit final =>
      obtain ⟨evolves, coherent, permitted⟩ := keeps.error given
      cases exit with
      | returned line value =>
          have result : Execution.returning body state = .ok value final := by
            simp [Execution.returning, given]
          exact of_ok result evolves coherent trivial
      | error error =>
          exact of_error (by simp [Execution.returning, given]) evolves coherent permitted
      | mismatch found =>
          exact of_error (by simp [Execution.returning, given]) evolves coherent permitted
      | exhausted =>
          exact of_error (by simp [Execution.returning, given]) evolves coherent permitted

end Keeps

end Lox.Execution
