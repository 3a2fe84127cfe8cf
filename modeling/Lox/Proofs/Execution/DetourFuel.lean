import Lox.Proofs.Execution.DetourRuns
import Lox.Proofs.Execution.Fuel
import Lox.Proofs.Execution.Restoration

namespace Lox.Execution

/-!
# Detours and fuel

Where the first run takes a detour, it also takes more steps, and so more fuel.  Two runs
with different fuel end alike unless the one that may have too little of it is broken off.
-/

/-! ## One run with too little fuel -/

/-- The run of two that may have too little fuel. -/
inductive Side where
  | left
  | right

/-- The run on one side is broken off for want of fuel. -/
def Side.Lacks {α : Type} (side : Side) (first second : EStateM.Result Exit State α) : Prop :=
  match side with
  | left => Exhausted first
  | right => Exhausted second

/-- The run on the other side has enough fuel, even if it takes some steps more on the left. -/
def Side.Enough (side : Side) (steps first second : Nat) : Prop :=
  match side with
  | left => first ≤ second
  | right => second + steps < first

theorem Side.Enough.pred
    {side : Side}
    {steps first second : Nat}
    (enough : side.Enough (steps + 1) (first + 1) second) :
    side.Enough steps first second := by
  cases side with
  | left => exact Nat.le_of_succ_le enough
  | right => exact Nat.lt_of_succ_lt_succ enough

theorem Side.Enough.fewer
    {side : Side}
    {steps fewer first second : Nat}
    (enough : side.Enough steps first second)
    (less : fewer ≤ steps) :
    side.Enough fewer first second := by
  cases side with
  | left => exact enough
  | right => exact Nat.lt_of_le_of_lt (Nat.add_le_add_left less second) enough

/-- What lacks fuel inside of other scopes lacks it outside. -/
theorem Side.Lacks.within
    {α : Type}
    {side : Side}
    {first second : Eval α}
    {left right : State}
    {scope scope' : ScopeId}
    (lacks :
      side.Lacks (first { left with scope := scope }) (second { right with scope := scope' })) :
    side.Lacks (within scope first left) (within scope' second right) := by
  cases side with
  | left => exact Exhausted.within left lacks
  | right => exact Exhausted.within right lacks

/-- What lacks fuel comes to nothing else. -/
theorem Side.Lacks.bind
    {α β : Type}
    {side : Side}
    {first second : Eval α}
    {next next' : α → Eval β}
    {left right : State}
    (lacks : side.Lacks (first left) (second right)) :
    side.Lacks ((first >>= next) left) ((second >>= next') right) := by
  rw [bind_apply, bind_apply]
  cases side with
  | left =>
      obtain ⟨after, short⟩ := lacks
      exact ⟨after, by rw [short]⟩
  | right =>
      obtain ⟨after, short⟩ := lacks
      exact ⟨after, by rw [short]⟩

/-- Two actions that end alike, unless the one on a given side has too little fuel. -/
def Accords
    {α : Type}
    (long short : Distances)
    (side : Side)
    (marks : List Counterpart)
    (detour : Detour)
    (values : List Counterpart → α → α → Prop)
    (first second : Eval α) :
    Prop :=
  ∀ left right, StateShortened long short marks detour left right →
    side.Lacks (first left) (second right) ∨
      EndAlike long short marks detour values (first left) (second right)

/-- Outcomes that are alike are both broken off for want of fuel, or neither is. -/
theorem EndAlike.exhausted
    {α : Type}
    {long short : Distances}
    {marks : List Counterpart}
    {detour : Detour}
    {values : List Counterpart → α → α → Prop}
    {first second : EStateM.Result Exit State α}
    (alike : EndAlike long short marks detour values first second) :
    Exhausted first ↔ Exhausted second := by
  obtain ⟨later, -, ended⟩ := alike
  cases ended with
  | ok _ _ => simp [Exhausted]
  | error same _ => cases same <;> simp [Exhausted]

/-- The first run leaves a scope in which the second one has never been. -/
theorem EndAlike.leave
    {α : Type}
    {long short : Distances}
    {marks inside : List Counterpart}
    {values : List Counterpart → α → α → Prop}
    {first : Eval α}
    {scope : ScopeId}
    {left right : State}
    {second : EStateM.Result Exit State α}
    (ended :
      EndAlike long short inside (some 0) values (first { left with scope := scope }) second)
    (longer : marks <+: inside)
    (back : Placed none marks left.scope right.scope)
    (stays : (endState second).scope = right.scope) :
    EndAlike long short marks none values (Execution.within scope first left) second := by
  obtain ⟨later, further, ended⟩ := ended
  refine ⟨later, longer.trans further, ?_⟩
  unfold Execution.within
  generalize first { left with scope := scope } = outcome at ended ⊢
  have placed : later[left.scope]? = some ⟨(endState second).scope, none⟩ := by
    rw [stays]
    exact mark_kept (longer.trans further) back
  cases ended with
  | ok same related => exact .ok same { related with scope := placed }
  | error alike related => exact .error alike { related with scope := placed }

namespace Accords

variable {α β : Type} {long short : Distances} {side : Side} {marks : List Counterpart}
  {detour inner : Detour} {values : List Counterpart → α → α → Prop}
  {results : List Counterpart → β → β → Prop}

/-! ## Single actions -/

theorem of_shadows
    {first second : Eval α}
    (shadows : Shadows long short marks detour values first second) :
    Accords long short side marks detour values first second :=
  fun left right related => .inr (shadows left right related)

/-- More fuel on the right makes no difference, unless the left one has too little. -/
theorem of_left
    {first second more : Eval α}
    (shadows : Shadows long short marks detour values first second)
    (continues : Continues second more) :
    Accords long short .left marks detour values first more := by
  intro left right related
  have alike := shadows left right related
  rcases continues right with lacks | same
  · exact .inl (alike.exhausted.mpr lacks)
  · exact .inr (same ▸ alike)

theorem of_right
    {first second more : Eval α}
    (shadows : Shadows long short marks detour values first second)
    (continues : Continues first more) :
    Accords long short .right marks detour values more second := by
  intro left right related
  have alike := shadows left right related
  rcases continues left with lacks | same
  · exact .inl (alike.exhausted.mp lacks)
  · exact .inr (same ▸ alike)

theorem exhaustedLeft (second : Eval α) :
    Accords long short .left marks detour values (throw .exhausted) second :=
  fun left _ _ => .inl ⟨left, rfl⟩

theorem exhaustedRight (first : Eval α) :
    Accords long short .right marks detour values first (throw .exhausted) :=
  fun _ right _ => .inl ⟨right, rfl⟩

/-- Without any fuel the left run is broken off, and the right one has enough. -/
theorem of_enough
    (run : Nat → Eval α)
    {second : Eval α}
    {steps first more : Nat}
    (enough : side.Enough steps first more)
    (nothing : run 0 = throw .exhausted)
    (further : ∀ fuel, side.Enough steps (fuel + 1) more →
      Accords long short side marks detour values (run (fuel + 1)) second) :
    Accords long short side marks detour values (run first) second := by
  cases first with
  | succ fuel => exact further fuel enough
  | zero =>
      cases side with
      | left =>
          rw [nothing]
          exact .exhaustedLeft second
      | right => exact absurd enough (Nat.not_lt_zero _)

theorem evaluate
    {steps fuel more : Nat}
    (enough : side.Enough steps fuel more)
    {value value' : Expr}
    (same : ExprShortened long short detour value value') :
    Accords long short side marks detour Equal (evaluate fuel value)
      (evaluate more value') := by
  cases side with
  | left =>
      exact .of_left ((everything_shadows long short fuel).1 same)
        ((everything_continues enough).1 value')
  | right =>
      have less : more ≤ fuel := Nat.le_trans (Nat.le_add_right more steps) (Nat.le_of_lt enough)
      exact .of_right ((everything_shadows long short more).1 same)
        ((everything_continues less).1 value)

theorem execute
    {steps fuel more : Nat}
    (enough : side.Enough steps fuel more)
    {single single' : Stmt}
    (same : StmtShortened long short detour single single') :
    Accords long short side marks detour Equal (execute fuel single)
      (execute more single') := by
  cases side with
  | left =>
      exact .of_left ((everything_shadows long short fuel).2.1 same)
        ((everything_continues enough).2.1 single')
  | right =>
      have less : more ≤ fuel := Nat.le_trans (Nat.le_add_right more steps) (Nat.le_of_lt enough)
      exact .of_right ((everything_shadows long short more).2.1 same)
        ((everything_continues less).2.1 single)

/-! ## Actions in a row -/

theorem bind
    {first second : Eval α}
    {next next' : α → Eval β}
    (head : Accords long short side marks detour values first second)
    (tail : ∀ later value value', marks <+: later → values later value value' →
      Accords long short side later detour results (next value) (next' value')) :
    Accords long short side marks detour results (first >>= next) (second >>= next') := by
  intro left right related
  rcases head left right related with lacks | ⟨later, longer, begun⟩
  · exact .inl lacks.bind
  · rw [bind_apply, bind_apply]
    generalize first left = outcome at begun ⊢
    generalize second right = outcome' at begun ⊢
    cases begun with
    | ok same further =>
        rcases tail later _ _ longer same _ _ further with lacks | ⟨last, longest, ended⟩
        · exact .inl lacks
        · exact .inr ⟨last, longer.trans longest, ended⟩
    | error alike further => exact .inr ⟨later, longer, .error alike further⟩

theorem map
    {first second : Eval α}
    {convert convert' : α → β}
    (head : Accords long short side marks detour values first second)
    (implies : ∀ later value value', values later value value' →
      results later (convert value) (convert' value')) :
    Accords long short side marks detour results (convert <$> first) (convert' <$> second) := by
  rw [map_eq_pure_bind, map_eq_pure_bind]
  exact head.bind fun later value value' _ same =>
    .of_shadows (.pure (implies later value value' same))

theorem either
    {condition : Prop}
    [Decidable condition]
    {first second other other' : Eval α}
    (consequent : Accords long short side marks detour values first second)
    (alternative : Accords long short side marks detour values other other') :
    Accords long short side marks detour values (if condition then first else other)
      (if condition then second else other') := by
  by_cases holds : condition
  · rw [if_pos holds, if_pos holds]
    exact consequent
  · rw [if_neg holds, if_neg holds]
    exact alternative

/-! ## Scopes -/

/-- Both runs go on in scopes of their own, which they leave again. -/
theorem within
    {first second : Eval α}
    {scope scope' : ScopeId}
    (inside : Accords long short side marks inner values first second)
    (placed : Placed inner marks scope scope') :
    Accords long short side marks detour values (within scope first)
      (within scope' second) := by
  intro left right related
  have entered : StateShortened long short marks inner { left with scope := scope }
      { right with scope := scope' } :=
    { related with scope := placed }
  rcases inside _ _ entered with lacks | ended
  · exact .inl lacks.within
  · exact .inr (.within ended related.scope)

/-- Both runs go on in new scopes. -/
theorem inNewScope
    {first second : Eval α}
    {outer outer' : ScopeId}
    (around : Placed inner marks outer outer')
    (inside : ∀ later, marks <+: later →
      Accords long short side later inner.inside values first second) :
    Accords long short side marks detour values (inNewScope outer first)
      (inNewScope outer' second) :=
  (of_shadows (newScope_shadows around _)).bind fun later _ _ longer placed =>
    (inside later longer).within placed

/-- The first run goes on in a new scope, which the second one does without. -/
theorem skip
    {first second : Eval α}
    (inside : ∀ later, marks <+: later →
      Accords long short side later (some 0) values first second)
    (restores : Leaves Restores second) :
    Accords long short side marks none values
      (do Execution.inNewScope (← get).scope first) second := by
  intro left right related
  have longer := List.prefix_append marks [⟨right.scope, some 0⟩]
  let opened : State :=
    { left with heap := left.heap.addScope ⟨Bindings.empty, some left.scope⟩ }
  have entered : StateShortened long short (marks ++ [⟨right.scope, some 0⟩]) (some 0)
      { opened with scope := left.heap.scopes.size } right :=
    { related with
      heap := related.heap.skipScope related.scope _
      scope := by rw [related.heap.size, mark_new]
      globals := related.globals.grows longer }
  rcases inside _ longer _ _ entered with lacks | ended
  · left
    cases side with
    | left => exact Exhausted.within opened lacks
    | right => exact lacks
  · exact .inr (.leave ended longer related.scope (restores right).scope)

end Accords

end Lox.Execution
