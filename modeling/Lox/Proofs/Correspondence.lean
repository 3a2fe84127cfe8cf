import Lox.Proofs.Computation
import Mathlib.Data.List.Forall2

namespace Lox

/-!
# Computations that mirror each other

Two computations mirror each other if they end alike from corresponding states: both
with values that correspond, or both by stops that do, in states that correspond again.
Computations that are put together in the same way from such parts mirror each other.
-/

section

variable {ε σ α β : Type} (states : σ → σ → Prop) (stops : ε → ε → Prop)

/-- Outcomes of one kind, with what corresponds in each other's place. -/
inductive Corresponds (values : α → α → Prop) :
    EStateM.Result ε σ α → EStateM.Result ε σ α → Prop where
  | ok {value value' final final'} :
      values value value' →
      states final final' →
      Corresponds values (.ok value final) (.ok value' final')
  | error {stop stop' final final'} :
      stops stop stop' →
      states final final' →
      Corresponds values (.error stop final) (.error stop' final')

/-- Two computations that end alike from corresponding states. -/
def Mirrors (values : α → α → Prop) (first second : EStateM ε σ α) : Prop :=
  ∀ left right, states left right →
    Corresponds states stops values (first left) (second right)

end

section

variable {ε σ α β : Type} {states : σ → σ → Prop} {stops : ε → ε → Prop}
  {values : α → α → Prop} {results : β → β → Prop}

/-- Outcomes that correspond end in states that do. -/
theorem Corresponds.endState
    {first second : EStateM.Result ε σ α}
    (corresponds : Corresponds states stops values first second) :
    states (endState first) (endState second) := by
  cases corresponds with
  | ok _ related => exact related
  | error _ related => exact related

theorem Corresponds.imp
    {states' : σ → σ → Prop}
    {stops' : ε → ε → Prop}
    {values' : α → α → Prop}
    {first second : EStateM.Result ε σ α}
    (corresponds : Corresponds states stops values first second)
    (ofStates : ∀ left right, states left right → states' left right)
    (ofStops : ∀ stop stop', stops stop stop' → stops' stop stop')
    (ofValues : ∀ value value', values value value' → values' value value') :
    Corresponds states' stops' values' first second := by
  cases corresponds with
  | ok sameValue related => exact .ok (ofValues _ _ sameValue) (ofStates _ _ related)
  | error sameStop related => exact .error (ofStops _ _ sameStop) (ofStates _ _ related)

namespace Mirrors

/-! ## Single steps -/

theorem pure
    {value value' : α}
    (same : values value value') :
    Mirrors states stops values (pure value) (pure value') :=
  fun _ _ related => .ok same related

theorem throw
    {stop stop' : ε}
    (same : stops stop stop') :
    Mirrors states stops values (throw stop) (throw stop') :=
  fun _ _ related => .error same related

theorem modify
    {change change' : σ → σ}
    (keeps : ∀ left right, states left right → states (change left) (change' right)) :
    Mirrors states stops Eq (modify change : EStateM ε σ PUnit) (modify change') :=
  fun left right related => .ok rfl (keeps left right related)

theorem modifyGet
    {change change' : σ → α × σ}
    (keeps : ∀ left right, states left right →
      values (change left).1 (change' right).1 ∧ states (change left).2 (change' right).2) :
    Mirrors states stops values (modifyGet change : EStateM ε σ α) (modifyGet change') :=
  fun left right related => .ok (keeps left right related).1 (keeps left right related).2

/-! ## Steps in a row -/

theorem bind
    {first second : EStateM ε σ α}
    {next next' : α → EStateM ε σ β}
    (head : Mirrors states stops values first second)
    (tail : ∀ value value', values value value' →
      Mirrors states stops results (next value) (next' value')) :
    Mirrors states stops results (first >>= next) (second >>= next') := by
  intro left right related
  rw [bind_apply, bind_apply]
  have begun := head left right related
  generalize first left = outcome at begun ⊢
  generalize second right = outcome' at begun ⊢
  cases begun with
  | ok same further => exact tail _ _ same _ _ further
  | error same further => exact .error same further

/-- The states may be looked at if what is done with them corresponds. -/
theorem get
    {next next' : σ → EStateM ε σ α}
    (known : ∀ left right, states left right →
      Mirrors states stops values (next left) (next' right)) :
    Mirrors states stops values (get >>= next) (get >>= next') :=
  fun left right related => known left right related left right related

theorem map
    {first second : EStateM ε σ α}
    {convert convert' : α → β}
    (head : Mirrors states stops values first second)
    (implies : ∀ value value', values value value' →
      results (convert value) (convert' value')) :
    Mirrors states stops results (convert <$> first) (convert' <$> second) := by
  rw [map_eq_pure_bind, map_eq_pure_bind]
  exact head.bind fun value value' same => pure (implies value value' same)

theorem discard
    {first second : EStateM ε σ α}
    (head : Mirrors states stops values first second) :
    Mirrors states stops Eq (discard first : EStateM ε σ PUnit) (discard second) :=
  head.map fun _ _ _ => rfl

/-- Corresponding conditions lead both ways to the same side. -/
theorem either
    {condition condition' : Prop}
    [Decidable condition]
    [Decidable condition']
    {first second other other' : EStateM ε σ α}
    (same : condition ↔ condition')
    (consequent : Mirrors states stops values first second)
    (alternative : Mirrors states stops values other other') :
    Mirrors states stops values (if condition then first else other)
      (if condition' then second else other') := by
  by_cases holds : condition
  · rw [if_pos holds, if_pos (same.mp holds)]
    exact consequent
  · rw [if_neg holds, if_neg fun also => holds (same.mpr also)]
    exact alternative

/-- One step for every one of corresponding elements. -/
theorem mapM
    {γ δ : Type}
    {elements : γ → γ → Prop}
    {relation : δ → δ → Prop}
    {step step' : γ → EStateM ε σ δ}
    {inputs inputs' : List γ}
    (related : List.Forall₂ elements inputs inputs')
    (steps : ∀ element element', elements element element' →
      Mirrors states stops relation (step element) (step' element')) :
    Mirrors states stops (List.Forall₂ relation) (inputs.mapM step)
      (inputs'.mapM step') := by
  induction related with
  | nil => exact pure .nil
  | cons first _ inductionHypothesis =>
      rw [List.mapM_cons, List.mapM_cons]
      refine (steps _ _ first).bind fun value value' same => ?_
      exact inductionHypothesis.bind fun _ _ others => pure (.cons same others)

theorem forM
    {γ : Type}
    {elements : γ → γ → Prop}
    {step step' : γ → EStateM ε σ PUnit}
    {inputs inputs' : List γ}
    (related : List.Forall₂ elements inputs inputs')
    (steps : ∀ element element', elements element element' →
      Mirrors states stops Eq (step element) (step' element')) :
    Mirrors states stops Eq (inputs.forM step) (inputs'.forM step') := by
  induction related with
  | nil => exact pure rfl
  | cons first _ inductionHypothesis =>
      exact (steps _ _ first).bind fun _ _ _ => inductionHypothesis

end Mirrors

end

end Lox
