import Lox.Proofs.Execution.Keeping
import Lox.Proofs.Execution.TwinStates

namespace Lox.Execution

/-!
# Two runs in lockstep

Two steps from twin states are in lockstep if they end in the same way, with results
that correspond, in states that are twins again.  Steps in a row are in lockstep if
each of them is.
-/

/-- Later states that are twins, the first of them evolved from an earlier state. -/
structure Onward
    (pairing : Pairing)
    (labels : List Label)
    (before : State)
    (later : List Label)
    (after after' : State) :
    Prop where
  longer : labels <+: later
  evolves : Evolves before after
  twins : StateTwins pairing later after after'

namespace Onward

variable {pairing : Pairing} {labels middle later : List Label}
  {before between between' after after' : State}

theorem refl (twins : StateTwins pairing labels after after') :
    Onward pairing labels after labels after after' :=
  ⟨List.prefix_rfl, .refl after, twins⟩

/-- Both runs go on from where they have gone on. -/
theorem trans
    (first : Onward pairing labels before middle between between')
    (second : Onward pairing middle between later after after') :
    Onward pairing labels before later after after' :=
  ⟨first.longer.trans second.longer, first.evolves.trans second.evolves, second.twins⟩

/-- The scopes around a point keep their labels. -/
theorem layered
    {levels : List Label}
    (onward : Onward pairing labels before later after after')
    (layered : Layered pairing labels before.heap before.scope levels) :
    Layered pairing later after.heap after.scope levels :=
  onward.evolves.scope ▸ layered.grows onward.longer onward.evolves.grows

end Onward

/--
Two steps end in twin states: both with values that correspond there, or both by
exits of one kind.
-/
def Lockstep
    {α β : Type}
    (pairing : Pairing)
    (labels : List Label)
    (first : Eval α)
    (left : State)
    (second : Eval β)
    (right : State)
    (good : List Label → State → α → β → Prop) :
    Prop :=
  match first left, second right with
  | .ok value after, .ok value' after' =>
      ∃ later, Onward pairing labels left later after after' ∧ good later after value value'
  | .error exit after, .error exit' after' =>
      ∃ later, Onward pairing labels left later after after' ∧ exit.Alike pairing exit'
  | _, _ => False

/-- An action in another scope that gives a value gives it back in the scope around. -/
theorem within_of_ok
    {α : Type}
    {action : Eval α}
    {state final : State}
    {scope : ScopeId}
    {value : α}
    (given : action { state with scope := scope } = .ok value final) :
    within scope action state = .ok value { final with scope := state.scope } := by
  simp [within, given]

/-- An action in another scope that stops is stopped back in the scope around. -/
theorem within_of_error
    {α : Type}
    {action : Eval α}
    {state final : State}
    {scope : ScopeId}
    {exit : Exit}
    (stopped : action { state with scope := scope } = .error exit final) :
    within scope action state = .error exit { final with scope := state.scope } := by
  simp [within, stopped]

/-- A body that runs through gives nothing. -/
theorem returning_of_ok
    {body : Eval Unit}
    {state final : State}
    {value : Unit}
    (given : body state = .ok value final) :
    returning body state = .ok .nil final := by
  simp [returning, given]

/-- A body that is left by a return gives the returned value. -/
theorem returning_of_returned
    {body : Eval Unit}
    {state final : State}
    {line : Nat}
    {value : Value}
    (stopped : body state = .error (.returned line value) final) :
    returning body state = .ok value final := by
  simp [returning, stopped]

/-- A body that stops otherwise stops what it is the body of. -/
theorem returning_of_error
    {body : Eval Unit}
    {state final : State}
    {exit : Exit}
    (stopped : body state = .error exit final)
    (other : ∀ line value, exit ≠ .returned line value) :
    returning body state = .error exit final := by
  cases exit with
  | returned line value => exact absurd rfl (other line value)
  | _ => simp [returning, stopped]

/-- The results of two steps are the same. -/
def Same {α : Type} (_ : List Label) (_ : State) (value value' : α) : Prop :=
  value = value'

namespace Lockstep

variable {α α' β β' : Type} {pairing : Pairing} {labels : List Label}
  {left right : State} {good better : List Label → State → α → α' → Prop}

/-! ## Steps in a row -/

/-- Both runs have given values that correspond. -/
theorem of_ok
    {first : Eval α}
    {second : Eval α'}
    {value : α}
    {value' : α'}
    {later : List Label}
    {after after' : State}
    (given : first left = .ok value after)
    (given' : second right = .ok value' after')
    (onward : Onward pairing labels left later after after')
    (fine : good later after value value') :
    Lockstep pairing labels first left second right good := by
  unfold Lockstep
  rw [given, given']
  exact ⟨later, onward, fine⟩

/-- Both runs have stopped alike. -/
theorem of_error
    {first : Eval α}
    {second : Eval α'}
    {exit exit' : Exit}
    {later : List Label}
    {after after' : State}
    (stopped : first left = .error exit after)
    (stopped' : second right = .error exit' after')
    (onward : Onward pairing labels left later after after')
    (alike : exit.Alike pairing exit') :
    Lockstep pairing labels first left second right good := by
  unfold Lockstep
  rw [stopped, stopped']
  exact ⟨later, onward, alike⟩

/-- What it means that two steps are in lockstep, by how the first one ends. -/
theorem ok
    {first : Eval α}
    {second : Eval α'}
    {value : α}
    {after : State}
    (steps : Lockstep pairing labels first left second right good)
    (given : first left = .ok value after) :
    ∃ later value' after',
      second right = .ok value' after' ∧
        Onward pairing labels left later after after' ∧
        good later after value value' := by
  unfold Lockstep at steps
  rw [given] at steps
  cases ended : second right with
  | ok value' after' =>
      rw [ended] at steps
      obtain ⟨later, onward, fine⟩ := steps
      exact ⟨later, value', after', rfl, onward, fine⟩
  | error exit' after' =>
      rw [ended] at steps
      exact steps.elim

/-- Where the first run stops, the second one stops alike. -/
theorem error
    {first : Eval α}
    {second : Eval α'}
    {exit : Exit}
    {after : State}
    (steps : Lockstep pairing labels first left second right good)
    (stopped : first left = .error exit after) :
    ∃ later exit' after',
      second right = .error exit' after' ∧
        Onward pairing labels left later after after' ∧
        exit.Alike pairing exit' := by
  unfold Lockstep at steps
  rw [stopped] at steps
  cases ended : second right with
  | ok value' after' =>
      rw [ended] at steps
      exact steps.elim
  | error exit' after' =>
      rw [ended] at steps
      obtain ⟨later, onward, alike⟩ := steps
      exact ⟨later, exit', after', rfl, onward, alike⟩

theorem pure
    {value : α}
    {value' : α'}
    (twins : StateTwins pairing labels left right)
    (fine : good labels left value value') :
    Lockstep pairing labels (pure value) left (pure value') right good :=
  of_ok rfl rfl (.refl twins) fine

/-- Both runs stop alike. -/
theorem throw
    {exit exit' : Exit}
    (twins : StateTwins pairing labels left right)
    (alike : exit.Alike pairing exit') :
    Lockstep pairing labels (throw exit) left (throw exit') right good :=
  of_error rfl rfl (.refl twins) alike

/-- Both runs go on in lockstep with what they have given. -/
theorem bind
    {first : Eval α}
    {second : Eval α'}
    {next : α → Eval β}
    {next' : α' → Eval β'}
    {best : List Label → State → β → β' → Prop}
    (steps : Lockstep pairing labels first left second right good)
    (further : ∀ value value' later after after',
      Onward pairing labels left later after after' →
      good later after value value' →
      Lockstep pairing later (next value) after (next' value') after' best) :
    Lockstep pairing labels (first >>= next) left (second >>= next') right best := by
  cases given : first left with
  | ok value middle =>
      obtain ⟨later, value', middle', given', onward, fine⟩ := steps.ok given
      have continued := further value value' later middle middle' onward fine
      have shift : (first >>= next) left = next value middle := bind_of_ok given next
      have shift' : (second >>= next') right = next' value' middle' := bind_of_ok given' next'
      cases ended : next value middle with
      | ok result final =>
          obtain ⟨last, result', final', ended', rest, correspond⟩ := continued.ok ended
          exact of_ok (shift.trans ended) (shift'.trans ended') (onward.trans rest) correspond
      | error exit final =>
          obtain ⟨last, exit', final', ended', rest, alike⟩ := continued.error ended
          exact of_error (shift.trans ended) (shift'.trans ended') (onward.trans rest) alike
  | error exit middle =>
      obtain ⟨later, exit', middle', given', onward, alike⟩ := steps.error given
      have stopped : (first >>= next) left = .error exit middle := by
        rw [bind_apply, given]
      have stopped' : (second >>= next') right = .error exit' middle' := by
        rw [bind_apply, given']
      exact of_error stopped stopped' onward alike

/-- Both states may be looked at. -/
theorem get
    {next next' : State → Eval α}
    {good : List Label → State → α → α → Prop}
    (known : Lockstep pairing labels (next left) left (next' right) right good) :
    Lockstep pairing labels (get >>= next) left (get >>= next') right good :=
  known

/-- What is made of corresponding values corresponds. -/
theorem map
    {first : Eval α}
    {second : Eval α'}
    {convert : α → β}
    {convert' : α' → β'}
    {best : List Label → State → β → β' → Prop}
    (steps : Lockstep pairing labels first left second right good)
    (implies : ∀ later after value value',
      good later after value value' → best later after (convert value) (convert' value')) :
    Lockstep pairing labels (convert <$> first) left (convert' <$> second) right best := by
  rw [map_eq_pure_bind, map_eq_pure_bind]
  exact steps.bind fun _ _ _ _ _ onward fine =>
    .pure onward.twins (implies _ _ _ _ fine)

/-- Runs inside the same scope, which both leave again. -/
theorem within
    {first : Eval α}
    {second : Eval α'}
    {scope : ScopeId}
    (twins : StateTwins pairing labels left right)
    (steps : Lockstep pairing labels first { left with scope := scope } second
      { right with scope := scope } good) :
    Lockstep pairing labels (within scope first) left (within scope second) right
      (fun _ _ _ _ => True) := by
  have leaving : ∀ {later after after'},
      Onward pairing labels { left with scope := scope } later after after' →
      Onward pairing labels left later { after with scope := left.scope }
        { after' with scope := right.scope } :=
    fun onward =>
      ⟨onward.longer, ⟨onward.evolves.grows, rfl, onward.evolves.distances⟩,
        { onward.twins with scope := twins.scope }⟩
  cases given : first { left with scope := scope } with
  | ok value final =>
      obtain ⟨later, value', final', given', onward, -⟩ := steps.ok given
      exact of_ok (within_of_ok given) (within_of_ok given') (leaving onward) trivial
  | error exit final =>
      obtain ⟨later, exit', final', given', onward, alike⟩ := steps.error given
      exact of_error (within_of_error given) (within_of_error given') (leaving onward) alike

/-- Bodies that may be left by a return give the same value. -/
theorem returning
    {first second : Eval Unit}
    {good : List Label → State → Unit → Unit → Prop}
    (steps : Lockstep pairing labels first left second right good) :
    Lockstep pairing labels (returning first) left (returning second) right Same := by
  cases given : first left with
  | ok value final =>
      obtain ⟨later, value', final', given', onward, -⟩ := steps.ok given
      exact of_ok (returning_of_ok given) (returning_of_ok given') onward rfl
  | error exit final =>
      obtain ⟨later, exit', final', given', onward, alike⟩ := steps.error given
      cases exit with
      | returned line value =>
          cases exit' with
          | returned line' value' =>
              exact of_ok (returning_of_returned given) (returning_of_returned given') onward
                alike.2
          | _ => exact alike.elim
      | _ =>
          cases exit' with
          | returned line' value' => exact alike.elim
          | _ =>
              exact of_error (returning_of_error given (by simp))
                (returning_of_error given' (by simp)) onward alike

end Lockstep

end Lox.Execution
