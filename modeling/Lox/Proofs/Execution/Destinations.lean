import Lox.Proofs.Execution.Composition

namespace Lox

/-!
# Where a run prints

A run writes to its output and never reads it.  Whether the texts go to standard output
or into a buffer, and whatever is there already, the run prints the same texts in the
same order and ends in the same way.
-/

namespace Transcript

/-- A transcript after some more texts. -/
def printAll (transcript : Transcript) (texts : List String) : Transcript :=
  texts.foldl print transcript

theorem printAll_append (transcript : Transcript) (texts more : List String) :
    transcript.printAll (texts ++ more) = (transcript.printAll texts).printAll more :=
  List.foldl_append

/-- Texts that are printed into a buffer stay behind those already there. -/
theorem printAll_buffer (stdout captured : Array String) (texts : List String) :
    (⟨stdout, .buffer captured⟩ : Transcript).printAll texts =
      ⟨stdout, .buffer (captured ++ texts.toArray)⟩ := by
  induction texts generalizing captured with
  | nil => simp [printAll]
  | cons text rest inductionHypothesis =>
      refine (inductionHypothesis (captured.push text)).trans ?_
      simp

/-- Texts that are printed on standard output stay behind those already there. -/
theorem printAll_stdout (stdout : Array String) (texts : List String) :
    (⟨stdout, .stdout⟩ : Transcript).printAll texts =
      ⟨stdout ++ texts.toArray, .stdout⟩ := by
  induction texts generalizing stdout with
  | nil => simp [printAll]
  | cons text rest inductionHypothesis =>
      refine (inductionHypothesis (stdout.push text)).trans ?_
      simp

/-- A buffer captures what standard output receives. -/
theorem text_printAll (texts : List String) :
    (empty.printAll texts).text = (onStdout.printAll texts).stdoutText := by
  rw [empty, onStdout, printAll_buffer, printAll_stdout]
  rfl

end Transcript

namespace Execution

/-- A state whose run prints behind another transcript. -/
def State.printingTo (state : State) (transcript : Transcript) : State :=
  { state with transcript := transcript }

/--
An action prints certain texts and ends in a certain way, whatever has been printed
before and wherever its output goes.
-/
def Oblivious (action : Eval α) : Prop :=
  ∀ state, ∃ texts, ∀ transcript,
    action (state.printingTo transcript) =
      mapState (·.printingTo (transcript.printAll texts)) (action state)

namespace Oblivious

variable {α β : Type}

/-- An action that prints nothing leaves the transcript to its caller. -/
theorem silent
    {action : Eval α}
    (alike :
      ∀ state transcript,
        action (state.printingTo transcript) =
          mapState (·.printingTo transcript) (action state)) :
    Oblivious action :=
  fun state => ⟨[], alike state⟩

theorem bind
    {first : Eval α}
    {next : α → Eval β}
    (obliviousFirst : Oblivious first)
    (obliviousNext : ∀ value, Oblivious (next value)) :
    Oblivious (first >>= next) := by
  intro state
  obtain ⟨texts, alike⟩ := obliviousFirst state
  cases ended : first state with
  | ok value middle =>
      rw [ended] at alike
      obtain ⟨more, onward⟩ := obliviousNext value middle
      refine ⟨texts ++ more, fun transcript => ?_⟩
      rw [bind_of_ok (alike transcript), bind_of_ok ended, onward,
        Transcript.printAll_append]
  | error exit middle =>
      rw [ended] at alike
      refine ⟨texts, fun transcript => ?_⟩
      rw [bind_of_error (alike transcript), bind_of_error ended]
      rfl

/-- What is read from a state is no part of the transcript. -/
theorem read
    {next : State → Eval α}
    (same :
      ∀ (state : State) (transcript : Transcript),
        next { state with transcript := transcript } = next state)
    (oblivious : ∀ state, Oblivious (next state)) :
    Oblivious (get >>= next) := by
  intro state
  obtain ⟨texts, alike⟩ := oblivious state state
  refine ⟨texts, fun transcript => ?_⟩
  refine Eq.trans ?_ (alike transcript)
  exact congrFun (same state transcript) _

theorem within {action : Eval α} (oblivious : Oblivious action) (scope : ScopeId) :
    Oblivious (within scope action) := by
  intro state
  obtain ⟨texts, alike⟩ := oblivious { state with scope := scope }
  refine ⟨texts, fun transcript => ?_⟩
  have moved := alike transcript
  unfold Execution.within
  dsimp only [State.printingTo] at moved ⊢
  rw [moved]
  cases action { state with scope := scope } <;> rfl

theorem returning {body : Eval Unit} (oblivious : Oblivious body) :
    Oblivious (returning body) := by
  intro state
  obtain ⟨texts, alike⟩ := oblivious state
  refine ⟨texts, fun transcript => ?_⟩
  unfold Execution.returning
  rw [alike transcript]
  cases body state with
  | ok value final => rfl
  | error exit final => cases exit <;> rfl

/-- The text of a value is the same wherever it is printed. -/
theorem printValue (value : Value) : Oblivious (printValue value) :=
  fun state => ⟨[state.heap.display value], fun _ => rfl⟩

/-- To be oblivious of the output is a property that composes. -/
theorem composes : Compositional fun action => Oblivious action where
  pure _ := silent fun _ _ => rfl
  throw _ := silent fun _ _ => rfl
  bind := bind
  read := read
  within := within
  returning := returning
  newScope _ _ := silent fun _ _ => rfl
  newFunction _ := silent fun _ _ => rfl
  newClass _ := silent fun _ _ => rfl
  newInstance _ := silent fun _ _ => rfl
  defineHere _ _ := silent fun _ _ => rfl
  define _ _ _ := silent fun _ _ => rfl
  writeField _ _ _ := silent fun _ _ => rfl
  printValue := printValue
  readClock := silent fun _ _ => rfl

end Oblivious

/-- Nothing in the run of a program depends on its output. -/
theorem interpret_oblivious (fuel : Nat) (program : List Stmt) :
    Oblivious (interpret fuel program) := by
  intro state
  obtain ⟨texts, alike⟩ := Oblivious.composes.executeAll fuel program state
  refine ⟨texts, fun transcript => ?_⟩
  unfold interpret
  rw [alike transcript]
  cases executeAll fuel program state with
  | ok value final => rfl
  | error exit final => cases exit <;> rfl

end Execution

end Lox
