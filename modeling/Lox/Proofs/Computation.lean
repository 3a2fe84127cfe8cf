namespace Lox

/-!
# Computations that may stop

Parsing, scope resolution and evaluation all keep a state and may stop early with
the state they have reached.  The lemmas here open a sequence of two such
computations, from its outcome and towards its outcome.
-/

section

variable {ε σ α β : Type}

/-- A sequence as the outcome of its first part decides it. -/
theorem bind_apply (first : EStateM ε σ α) (next : α → EStateM ε σ β) (state : σ) :
    (first >>= next) state =
      match first state with
      | .ok value middle => next value middle
      | .error stop middle => .error stop middle := by
  change EStateM.bind first next state = _
  unfold EStateM.bind
  cases first state with
  | ok value middle => rfl
  | error stop middle => rfl

theorem pure_apply (value : α) (state : σ) :
    (pure value : EStateM ε σ α) state = .ok value state :=
  rfl

theorem throw_apply (stop : ε) (state : σ) :
    (throw stop : EStateM ε σ α) state = .error stop state :=
  rfl

theorem get_apply (state : σ) : (get : EStateM ε σ σ) state = .ok state state :=
  rfl

theorem modify_apply (change : σ → σ) (state : σ) :
    (modify change : EStateM ε σ PUnit) state = .ok ⟨⟩ (change state) :=
  rfl

theorem bind_of_ok
    {first : EStateM ε σ α}
    {value : α}
    {state middle : σ}
    (given : first state = .ok value middle)
    (next : α → EStateM ε σ β) :
    (first >>= next) state = next value middle := by
  rw [bind_apply, given]

theorem bind_of_error
    {first : EStateM ε σ α}
    {stop : ε}
    {state middle : σ}
    (stopped : first state = .error stop middle)
    (next : α → EStateM ε σ β) :
    (first >>= next) state = .error stop middle := by
  rw [bind_apply, stopped]

/-- A sequence gives a value exactly if both of its parts do. -/
theorem bind_eq_ok_iff
    {first : EStateM ε σ α}
    {next : α → EStateM ε σ β}
    {state final : σ}
    {result : β} :
    (first >>= next) state = .ok result final ↔
      ∃ value middle,
        first state = .ok value middle ∧ next value middle = .ok result final := by
  rw [bind_apply]
  cases first state with
  | ok value middle =>
      simp only [EStateM.Result.ok.injEq]
      constructor
      · intro finished
        exact ⟨value, middle, ⟨rfl, rfl⟩, finished⟩
      · rintro ⟨_, _, ⟨rfl, rfl⟩, finished⟩
        exact finished
  | error stop middle => simp

/-- A mapped computation gives a value exactly if the computation does. -/
theorem map_eq_ok_iff
    {action : EStateM ε σ α}
    {convert : α → β}
    {state final : σ}
    {result : β} :
    (convert <$> action) state = .ok result final ↔
      ∃ value, action state = .ok value final ∧ convert value = result := by
  change EStateM.map convert action state = _ ↔ _
  unfold EStateM.map
  cases action state with
  | ok value middle =>
      simp only [EStateM.Result.ok.injEq]
      constructor
      · rintro ⟨rfl, rfl⟩
        exact ⟨value, ⟨rfl, rfl⟩, rfl⟩
      · rintro ⟨_, ⟨rfl, rfl⟩, rfl⟩
        exact ⟨rfl, rfl⟩
  | error stop middle => simp

/-- A computation whose value is dropped decides only whether another value is given. -/
theorem discard_bind_apply (action : EStateM ε σ α) (value : β) (state : σ) :
    (discard action >>= fun _ => pure value) state =
      match action state with
      | .ok _ final => .ok value final
      | .error stop final => .error stop final := by
  change EStateM.bind (EStateM.map _ action) _ state = _
  unfold EStateM.bind EStateM.map
  cases action state <;> rfl

/-- The state in which a computation ends, whether or not it has stopped early. -/
def endState : EStateM.Result ε σ α → σ
  | .ok _ final => final
  | .error _ final => final

theorem endState_map (action : EStateM ε σ α) (convert : α → β) (state : σ) :
    endState ((convert <$> action) state) = endState (action state) := by
  change endState (EStateM.map convert action state) = _
  unfold EStateM.map
  cases action state <;> rfl

/-- A computation that has ended, in another state. -/
def mapState (change : σ → σ) : EStateM.Result ε σ α → EStateM.Result ε σ α
  | .ok value final => .ok value (change final)
  | .error stop final => .error stop (change final)

end

end Lox
