import Lox.Proofs.Execution.Composition
import Lox.Proofs.Execution.Distances
import Lox.Proofs.Execution.Keywords
import Lox.Proofs.Syntax.Shape

namespace Lox

/-!
# Calculations

An expression that is evaluated before anything has been declared meets no functions,
classes or instances of a program.  So it prints nothing and needs no more fuel than it is
high, and where no occurrence has a distance, it does not matter which identities the
occurrences in it have.
-/

/-! ## The height of an expression -/

mutual

/-- How deeply the parts of an expression are nested. -/
def Expr.height : Expr → Nat
  | .literal _ => 0
  | .grouping inner => inner.height + 1
  | .unary _ _ operand => operand.height + 1
  | .binary _ _ left right => max left.height right.height + 1
  | .logical _ left right => max left.height right.height + 1
  | .reference _ => 0
  | .assign _ value => value.height + 1
  | .call callee arguments _ => max callee.height (Expr.heightOfAll arguments) + 1
  | .property object _ => object.height + 1
  | .setProperty object _ value => max object.height value.height + 1
  | .this _ _ => 0
  | .super _ _ _ => 0

/-- The height of the highest of some expressions. -/
def Expr.heightOfAll : List Expr → Nat
  | [] => 0
  | first :: rest => max first.height (Expr.heightOfAll rest)

end

/-- Expressions in a row are as high as every one of them. -/
theorem Expr.height_le_heightOfAll
    {values : List Expr}
    {value : Expr}
    (member : value ∈ values) :
    value.height ≤ Expr.heightOfAll values := by
  induction values with
  | nil => cases member
  | cons first rest inductionHypothesis =>
      rw [Expr.heightOfAll]
      rcases List.mem_cons.mp member with rfl | later
      · exact Nat.le_max_left _ _
      · exact (inductionHypothesis later).trans (Nat.le_max_right _ _)

namespace Execution

/-! ## Plain values -/

/-- A value that does not refer to the heap. -/
def Value.IsPlain : Value → Prop
  | .functionObject _ | .classObject _ | .instanceObject _ => False
  | .nil | .bool _ | .number _ | .string _ | .native _ => True

theorem isPlain_ofLiteral (literal : Literal) : (Value.ofLiteral literal).IsPlain := by
  cases literal <;> trivial

section

variable {line : Nat} {left right operand value : Value}

/-- Operators give plain values, whatever they are applied to. -/
theorem isPlain_of_applyUnary
    {operator : UnaryOperator}
    (given : applyUnary operator line operand = .ok value) :
    value.IsPlain := by
  unfold applyUnary at given
  split at given
  · cases given
    trivial
  · cases given
    trivial
  · cases given

/-- A sum is a plain value. -/
theorem isPlain_of_addValues (given : addValues line left right = .ok value) :
    value.IsPlain := by
  unfold addValues at given
  split at given
  case h_5 => cases given
  all_goals
    cases given
    trivial

/-- A quotient is a plain value. -/
theorem isPlain_of_divideNumbers
    {dividend divisor : Number}
    (given : divideNumbers line dividend divisor = .ok value) :
    value.IsPlain := by
  unfold divideNumbers at given
  split at given
  · cases given
  · cases given
    trivial

/-- An operation on numbers gives a plain value if it does on these numbers. -/
theorem isPlain_of_onNumbers
    {operator : BinaryOperator}
    {operation : Number → Number → Except RuntimeError Value}
    (plain : ∀ a b, operation a b = .ok value → value.IsPlain)
    (given : onNumbers operator line operation left right = .ok value) :
    value.IsPlain := by
  unfold onNumbers at given
  split at given
  · exact plain _ _ given
  · cases given

/-- An operator with two operands gives a plain value. -/
theorem isPlain_of_applyBinary
    {operator : BinaryOperator}
    (given : applyBinary operator line left right = .ok value) :
    value.IsPlain := by
  cases operator with
  | add => exact isPlain_of_addValues given
  | divide => exact isPlain_of_onNumbers (fun _ _ => isPlain_of_divideNumbers) given
  | equal =>
      cases given
      trivial
  | notEqual =>
      cases given
      trivial
  | _ =>
      refine isPlain_of_onNumbers (fun a b computed => ?_) given
      cases computed
      trivial

end

/-! ## States without declarations -/

/-- All names are global and have plain values, and some texts have been printed. -/
structure Bare (printed : Transcript) (state : State) : Prop where
  distances : ∀ id, state.distances.get? id = none
  globals : ∀ name value, state.global? name = some value → value.IsPlain
  transcript : state.transcript = printed

/-- Before anything has run, only the native functions are bound. -/
theorem bare_initial (clock : Clock) : Bare .empty (State.initial clock) where
  distances id := Distances.get?_empty id
  globals name value found := by
    have listed : (Bindings.ofList [(NativeFunction.clock.name, Value.native .clock)]).get? name =
        some value :=
      found
    obtain ⟨-, rfl⟩ := Prod.mk.inj (List.mem_singleton.mp (Bindings.mem_of_get?_ofList listed))
    trivial
  transcript := rfl

namespace Bare

variable {printed : Transcript} {state : State}

/-- A global name with another plain value. -/
theorem define
    (bare : Bare printed state)
    {value : Value}
    (plain : value.IsPlain)
    (name : String) :
    Bare printed (state.define state.globals name value) where
  distances := bare.distances
  globals other found known := by
    change (state.heap.define state.globals name value).getLocal? state.globals other = _ at known
    by_cases same : name = other
    · simp only [Heap.getLocal?, Heap.define, Array.getElem?_modify, ↓reduceIte,
        Option.bind_map, Option.bind_eq_some_iff, same, Function.comp_apply,
        Bindings.get?_insert_self, Option.some.injEq] at known
      obtain ⟨_, -, rfl⟩ := known
      exact plain
    · rw [Heap.getLocal?_define_of_ne same] at known
      exact bare.globals other found known
  transcript := bare.transcript

/-- An occurrence is looked up among the global names. -/
theorem lookUp_apply (bare : Bare printed state) (id : NodeId) (name : Identifier) :
    lookUp id name state =
      match state.global? name.text with
      | some value => .ok value state
      | none => .error (.error (.undefinedVariable name)) state := by
  unfold lookUp
  rw [bind_of_ok (get_apply state), bare.distances id]
  cases state.global? name.text <;> rfl

/-- An occurrence is assigned to among the global names. -/
theorem assignTo_apply (bare : Bare printed state) (target : Reference) (value : Value) :
    assignTo target value state =
      match state.global? target.name.text with
      | some _ => .ok () (state.define state.globals target.name.text value)
      | none => .error (.error (.undefinedVariable target.name)) state := by
  unfold assignTo
  dsimp only
  rw [bare.distances target.id]
  cases state.global? target.name.text <;> rfl

/-- Without classes, an access to a superclass fails at its keyword. -/
theorem superMethod_apply
    (bare : Bare printed state)
    (id : NodeId)
    (line : Nat)
    (method : Identifier) :
    superMethod id line method state =
      .error (.error (.undefinedVariable ⟨superclassName, line⟩)) state := by
  unfold superMethod
  rw [bind_of_ok (get_apply state), bare.distances id]
  rfl

end Bare

/-! ## How calculations end -/

/--
A calculation ends with a good value, at a runtime error, or out of fuel if there was too
little of it, and prints nothing on the way.
-/
inductive Reckoned (tooShort : Prop) (good : α → Prop) (printed : Transcript) :
    EStateM.Result Exit State α → Prop where
  | value {result final} :
      good result → Bare printed final → Reckoned tooShort good printed (.ok result final)
  | fault {error final} :
      final.transcript = printed → Reckoned tooShort good printed (.error (.error error) final)
  | exhausted {final} :
      tooShort → final.transcript = printed →
      Reckoned tooShort good printed (.error .exhausted final)

/-- A calculation may be out of fuel where it may be for a stronger reason. -/
theorem Reckoned.mono
    {tooShort less : Prop}
    {good : α → Prop}
    {printed : Transcript}
    {result : EStateM.Result Exit State α}
    (implies : less → tooShort)
    (ended : Reckoned less good printed result) :
    Reckoned tooShort good printed result := by
  cases ended with
  | value isGood after => exact .value isGood after
  | fault unprinted => exact .fault unprinted
  | exhausted short unprinted => exact .exhausted (implies short) unprinted

/-- Two actions are one calculation in every state without declarations. -/
def Reckons (tooShort : Prop) (good : α → Prop) (action twin : Eval α) : Prop :=
  ∀ printed state, Bare printed state →
    Reckoned tooShort good printed (action state) ∧ twin state = action state

namespace Reckons

variable {α β : Type} {tooShort less : Prop} {good : α → Prop} {fine : β → Prop}

/-! ## Actions in a row -/

theorem pure {value : α} (isGood : good value) :
    Reckons tooShort good (pure value) (pure value) :=
  fun _ _ bare => ⟨.value isGood bare, rfl⟩

theorem raise (error : RuntimeError) :
    Reckons tooShort good (raise error) (Execution.raise error) :=
  fun _ _ bare => ⟨.fault bare.transcript, rfl⟩

theorem exhausted (short : tooShort) :
    Reckons tooShort good (throw .exhausted) (throw .exhausted) :=
  fun _ _ bare => ⟨.exhausted short bare.transcript, rfl⟩

theorem mono
    {action twin : Eval α}
    (implies : less → tooShort)
    (reckons : Reckons less good action twin) :
    Reckons tooShort good action twin := by
  intro printed state bare
  obtain ⟨ended, same⟩ := reckons printed state bare
  exact ⟨ended.mono implies, same⟩

/-- Calculations in a row end alike with and without distances. -/
theorem bind
    {first firstTwin : Eval α}
    {next nextTwin : α → Eval β}
    (begins : Reckons tooShort good first firstTwin)
    (continues : ∀ value, good value → Reckons tooShort fine (next value) (nextTwin value)) :
    Reckons tooShort fine (first >>= next) (firstTwin >>= nextTwin) := by
  intro printed state bare
  obtain ⟨ended, same⟩ := begins printed state bare
  rw [bind_apply, bind_apply, same]
  cases outcome : first state with
  | ok value middle =>
      rw [outcome] at ended
      cases ended with
      | value isGood after => exact continues value isGood printed middle after
  | error exit middle =>
      rw [outcome] at ended
      refine ⟨?_, rfl⟩
      cases ended with
      | fault unprinted => exact .fault unprinted
      | exhausted short unprinted => exact .exhausted short unprinted

/-- A computation ends alike with and without distances. -/
theorem lift
    {result : Except RuntimeError α}
    (isGood : ∀ value, result = .ok value → good value) :
    Reckons tooShort good (lift result) (Execution.lift result) := by
  cases result with
  | ok value => exact pure (isGood value rfl)
  | error error => exact raise error

/-! ## Names -/

/-- A variable is looked up among the globals, whatever its identity is. -/
theorem lookUp (id other : NodeId) (name : Identifier) :
    Reckons tooShort Value.IsPlain (lookUp id name) (Execution.lookUp other name) := by
  intro printed state bare
  rw [bare.lookUp_apply, bare.lookUp_apply]
  refine ⟨?_, rfl⟩
  cases known : state.global? name.text with
  | none => exact .fault bare.transcript
  | some value => exact .value (bare.globals _ value known) bare

/-- A variable is assigned to among the globals, whatever its identity is. -/
theorem assignTo (target : Reference) {value : Value} (plain : value.IsPlain) :
    Reckons tooShort (fun _ => True) (assignTo target value)
      (Execution.assignTo target.shape value) := by
  intro printed state bare
  rw [bare.assignTo_apply, bare.assignTo_apply]
  refine ⟨?_, rfl⟩
  cases state.global? target.name.text with
  | none => exact .fault bare.transcript
  | some _ => exact .value trivial (bare.define plain _)

/-- An access to a superclass fails, whatever its identity is. -/
theorem superMethod
    {good : Value → Prop}
    (id other : NodeId)
    (line : Nat)
    (method : Identifier) :
    Reckons tooShort good (superMethod id line method)
      (Execution.superMethod other line method) := by
  intro printed state bare
  rw [bare.superMethod_apply, bare.superMethod_apply]
  exact ⟨.fault bare.transcript, rfl⟩

/-- A plain value has no properties. -/
theorem propertyOf
    {good : Value → Prop}
    {object : Value}
    (plain : object.IsPlain)
    (name : Identifier) :
    Reckons tooShort good (propertyOf object name) (Execution.propertyOf object name) := by
  cases object with
  | instanceObject _ => exact plain.elim
  | _ => exact raise _

/-- A plain value has no fields to be set. -/
theorem fieldOwner {object : Value} (plain : object.IsPlain) (name : Identifier) :
    Reckons tooShort (fun _ => False) (fieldOwner object name)
      (Execution.fieldOwner object name) := by
  cases object with
  | instanceObject _ => exact plain.elim
  | _ => exact raise _

/-! ## Calls -/

/-- Only native functions can be called. -/
theorem calleeFor {subject : Value} (plain : subject.IsPlain) (count line : Nat) :
    Reckons tooShort (fun callee => ∃ function, callee = .native function)
      (calleeFor subject count line) (Execution.calleeFor subject count line) := by
  intro printed state bare
  refine ⟨?_, rfl⟩
  unfold Execution.calleeFor
  rw [bind_of_ok (get_apply state)]
  cases subject with
  | native function =>
      by_cases fits : count = function.arity
      · have found : count = state.heap.arity (.native function) := fits
        simp only [Heap.callee?, if_pos found]
        exact .value ⟨function, rfl⟩ bare
      · have other : ¬ count = state.heap.arity (.native function) := fits
        simp only [Heap.callee?, if_neg other]
        exact .fault bare.transcript
  | functionObject _ => exact plain.elim
  | classObject _ => exact plain.elim
  | instanceObject _ => exact plain.elim
  | _ => exact .fault bare.transcript

/-- A native function reads the clock, which is all that it changes. -/
theorem call
    {fuel : Nat}
    (short : fuel = 0 → tooShort)
    (function : NativeFunction)
    (arguments : List Value) :
    Reckons tooShort Value.IsPlain (call fuel (.native function) arguments)
      (Execution.call fuel (.native function) arguments) := by
  cases fuel with
  | zero => exact exhausted (short rfl)
  | succ fuel =>
      cases function with
      | clock =>
          exact fun _ _ bare =>
            ⟨.value trivial ⟨bare.distances, bare.globals, bare.transcript⟩, rfl⟩

/-- Arguments are calculated one after another. -/
theorem mapM
    {fuel : Nat}
    (values : List Expr)
    (each : ∀ value ∈ values,
      Reckons tooShort Value.IsPlain (evaluate fuel value) (evaluate fuel value.shape)) :
    Reckons tooShort (fun _ => True) (values.mapM (evaluate fuel))
      ((Expr.shapes values).mapM (evaluate fuel)) := by
  induction values with
  | nil => exact pure trivial
  | cons first rest inductionHypothesis =>
      obtain ⟨here, behind⟩ := List.forall_mem_cons.mp each
      rw [Expr.shapes, List.mapM_cons, List.mapM_cons]
      refine bind here fun value _ => ?_
      exact bind (inductionHypothesis behind) fun values _ => pure trivial

/-! ## Expressions -/

/-- An expression is the same calculation without the identities in it. -/
theorem evaluate (fuel : Nat) (value : Expr) :
    Reckons (fuel ≤ value.height) Value.IsPlain (evaluate fuel value)
      (Execution.evaluate fuel value.shape) := by
  induction fuel generalizing value with
  | zero => exact exhausted (Nat.zero_le _)
  | succ fuel inductionHypothesis =>
      have inside : ∀ part : Expr, part.height < value.height →
          Reckons (fuel + 1 ≤ value.height) Value.IsPlain (Execution.evaluate fuel part)
            (Execution.evaluate fuel part.shape) :=
        fun part lower =>
          mono (fun short => Nat.lt_of_le_of_lt short lower) (inductionHypothesis part)
      cases value with
      | literal found => exact pure (isPlain_ofLiteral found)
      | grouping inner => exact inside inner (Nat.lt_succ_self _)
      | unary operator line operand =>
          refine bind (inside operand (Nat.lt_succ_self _)) fun found _ => ?_
          exact lift fun _ => isPlain_of_applyUnary
      | binary operator line left right =>
          refine bind (inside left ?_) fun first _ => ?_
          · exact Nat.lt_succ_of_le (Nat.le_max_left _ _)
          refine bind (inside right ?_) fun second _ => ?_
          · exact Nat.lt_succ_of_le (Nat.le_max_right _ _)
          exact lift fun _ => isPlain_of_applyBinary
      | logical operator left right =>
          refine bind (inside left ?_) fun first plain => ?_
          · exact Nat.lt_succ_of_le (Nat.le_max_left _ _)
          split
          · exact pure plain
          · exact inside right (Nat.lt_succ_of_le (Nat.le_max_right _ _))
      | reference occurrence => exact lookUp _ _ _
      | assign target assigned =>
          refine bind (inside assigned (Nat.lt_succ_self _)) fun found plain => ?_
          exact bind (assignTo target plain) fun _ _ => pure plain
      | call callee arguments line =>
          refine bind (inside callee ?_) fun subject plain => ?_
          · exact Nat.lt_succ_of_le (Nat.le_max_left _ _)
          refine bind (mapM arguments fun argument member => inside argument ?_) fun values _ => ?_
          · exact Nat.lt_succ_of_le
              ((Expr.height_le_heightOfAll member).trans (Nat.le_max_right _ _))
          refine bind (calleeFor plain _ line) fun found native => ?_
          obtain ⟨function, rfl⟩ := native
          exact call (fun none => by simp [none, Expr.height]) function values
      | property object name =>
          refine bind (inside object (Nat.lt_succ_self _)) fun found plain => ?_
          exact propertyOf plain name
      | setProperty object name assigned =>
          refine bind (inside object ?_) fun found plain => ?_
          · exact Nat.lt_succ_of_le (Nat.le_max_left _ _)
          exact bind (fieldOwner plain name) fun _ impossible => impossible.elim
      | this id line => exact lookUp _ _ _
      | super id line method => exact superMethod _ _ _ _

end Reckons

end Execution

end Lox
