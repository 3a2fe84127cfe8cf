import Lox.Proofs.Computation
import Lox.Proofs.Execution.Tasks

namespace Lox.Execution

/-!
# Properties that compose

Some properties of computations hold of every run because they hold of its single
steps: what is done in a row has such a property if its parts have it, and so has a run
inside another scope.  The induction is on fuel, once for all such properties.
-/

/--
A property of computations that every plain step has, and that is handed on by steps
in a row, by a run inside another scope and by a body that is left at a return.  A step
that depends on the state does not depend on what has been printed.  Every step is plain
but those that make a class or set a field.
-/
structure PlainlyCompositional (holds : ∀ {α : Type}, Eval α → Prop) : Prop where
  pure : ∀ {α : Type} (value : α), holds (pure value)
  throw : ∀ {α : Type} (exit : Exit), holds (throw exit : Eval α)
  bind :
    ∀ {α β : Type} {first : Eval α} {next : α → Eval β},
      holds first → (∀ value, holds (next value)) → holds (first >>= next)
  read :
    ∀ {α : Type} {next : State → Eval α},
      (∀ (state : State) (transcript : Transcript),
        next { state with transcript := transcript } = next state) →
      (∀ state, holds (next state)) → holds (get >>= next)
  within :
    ∀ {α : Type} {action : Eval α}, holds action → ∀ scope, holds (within scope action)
  returning : ∀ {body : Eval Unit}, holds body → holds (returning body)
  newScope : ∀ bindings enclosing, holds (newScope bindings enclosing)
  newFunction : ∀ function, holds (newFunction function)
  newInstance : ∀ classId, holds (newInstance classId)
  defineHere : ∀ name value, holds (defineHere name value)
  define :
    ∀ scope name value, holds (modify fun state : State => state.define scope name value)
  printValue : ∀ value, holds (printValue value)
  readClock : holds readClock

/-- A property of computations that composes, and that every single step has. -/
structure Compositional (holds : ∀ {α : Type}, Eval α → Prop) : Prop
    extends PlainlyCompositional @holds where
  newClass : ∀ declared, holds (newClass declared)
  writeField : ∀ object name value, holds (writeField object name value)

/-! ## Declarations and assignments as steps in a row -/

/-- A class without a superclass is declared in the current scope alone. -/
theorem declareClass_none (name : Identifier) (methods : List FunctionDeclaration) :
    declareClass name none methods = (do
      defineHere name.text .nil
      let table := methodTable (← get).scope methods
      defineHere name.text (← newClass ⟨name.text, none, table⟩)) :=
  rfl

/-- The scope with `super` is left before the class is bound. -/
theorem declareClass_some
    (name : Identifier)
    (parent : Reference)
    (methods : List FunctionDeclaration) :
    declareClass name (some parent) methods = (do
      let id ← superclassOf parent
      defineHere name.text .nil
      let closure ←
        newScope (Bindings.ofList [(superclassName, .classObject id)]) (← get).scope
      let table := methodTable closure methods
      defineHere name.text (← newClass ⟨name.text, some id, table⟩)) := by
  funext state
  simp only [declareClass, Option.mapM_some, bind_map_left]
  rw [bind_apply, bind_apply]
  cases superclassOf parent state with
  | ok id middle => rfl
  | error exit middle => rfl

/-- An assignment writes into the scope that has been found. -/
theorem assignTo_eq (target : Reference) (value : Value) :
    assignTo target value = (do
      let state ← get
      let written :=
        match state.distances.get? target.id with
        | some distance => state.heap.ancestor? distance state.scope
        | none => (state.global? target.name.text).map fun _ => state.globals
      match written with
      | some scope => modify fun later => later.define scope target.name.text value
      | none => raise (.undefinedVariable target.name)) := by
  funext state
  unfold assignTo
  rw [bind_of_ok (get_apply state)]
  cases state.distances.get? target.id with
  | some distance =>
      dsimp only
      cases state.heap.ancestor? distance state.scope <;> rfl
  | none =>
      dsimp only
      cases state.global? target.name.text <;> rfl

namespace PlainlyCompositional

section

variable {α β : Type} {holds : ∀ {α : Type}, Eval α → Prop}

/-! ## Actions in a row -/

/-- What is made of a value does not matter. -/
theorem map
    (composes : PlainlyCompositional @holds)
    {action : Eval α}
    {convert : α → β}
    (leaves : holds action) :
    holds (convert <$> action) := by
  rw [map_eq_pure_bind]
  exact composes.bind leaves fun value => composes.pure (convert value)

/-- A property of every step is one of all steps in a row, with their results. -/
theorem mapM
    (composes : PlainlyCompositional @holds)
    {step : α → Eval β}
    (leaves : ∀ value, holds (step value))
    (values : List α) :
    holds (values.mapM step) := by
  induction values with
  | nil => exact composes.pure []
  | cons first rest inductionHypothesis =>
      rw [List.mapM_cons]
      refine composes.bind (leaves first) fun value => ?_
      exact composes.bind inductionHypothesis fun values => composes.pure (value :: values)

/-- A property of every step is one of all steps in a row. -/
theorem forM
    (composes : PlainlyCompositional @holds)
    {step : α → Eval PUnit}
    (leaves : ∀ value, holds (step value))
    (values : List α) :
    holds (values.forM step) := by
  induction values with
  | nil => exact composes.pure ()
  | cons first rest inductionHypothesis =>
      exact composes.bind (leaves first) fun _ => inductionHypothesis

/-! ## The steps of a run -/

theorem lift (composes : PlainlyCompositional @holds) (result : Except RuntimeError α) :
    holds (lift result) := by
  cases result with
  | ok value => exact composes.pure value
  | error error => exact composes.throw (.error error)

/-- Looking up a variable composes. -/
theorem lookUp (composes : PlainlyCompositional @holds) (id : NodeId) (name : Identifier) :
    holds (lookUp id name) := by
  refine composes.read (fun _ _ => rfl) fun state => ?_
  dsimp only
  split
  · exact composes.pure _
  · exact composes.throw _

/-- Assigning to a variable composes. -/
theorem assignTo (composes : PlainlyCompositional @holds) (target : Reference) (value : Value) :
    holds (assignTo target value) := by
  rw [assignTo_eq]
  refine composes.read (fun _ _ => rfl) fun state => ?_
  dsimp only
  split
  · exact composes.define _ _ value
  · exact composes.throw _

/-- Binding a method makes a scope and a function in a row. -/
theorem bindMethod
    (composes : PlainlyCompositional @holds)
    (method : Function)
    (object : InstanceId) :
    holds (bindMethod method object) :=
  composes.bind (composes.newScope _ _) fun _ => composes.pure _

theorem boundValue
    (composes : PlainlyCompositional @holds)
    (method : Function)
    (object : InstanceId) :
    holds (boundValue method object) :=
  composes.bind (composes.bindMethod method object) composes.newFunction

/-- An access to a property finds a field, or binds a method. -/
theorem propertyOf (composes : PlainlyCompositional @holds) (object : Value) (name : Identifier) :
    holds (propertyOf object name) := by
  cases object with
  | instanceObject id =>
      refine composes.read (fun _ _ => rfl) fun state => ?_
      dsimp only
      split
      · exact composes.pure _
      split
      · exact composes.boundValue _ id
      · exact composes.throw _
  | _ => exact composes.throw _

/-- Finding what a property belongs to composes. -/
theorem fieldOwner (composes : PlainlyCompositional @holds) (object : Value) (name : Identifier) :
    holds (fieldOwner object name) := by
  cases object with
  | instanceObject id => exact composes.pure id
  | _ => exact composes.throw _

/-- Finding the superclass composes. -/
theorem superclassAt (composes : PlainlyCompositional @holds) (distance : Nat) :
    holds (superclassAt distance) := by
  refine composes.read (fun _ _ => rfl) fun state => ?_
  split
  · exact composes.pure _
  · exact composes.throw _

/-- Finding the receiver composes. -/
theorem receiverInside (composes : PlainlyCompositional @holds) (distance : Nat) :
    holds (receiverInside distance) := by
  refine composes.read (fun _ _ => rfl) fun state => ?_
  dsimp only
  split
  · exact composes.pure _
  · exact composes.throw _

/-- An access to a superclass finds the class and the receiver, and binds a method. -/
theorem superMethod
    (composes : PlainlyCompositional @holds)
    (id : NodeId)
    (line : Nat)
    (method : Identifier) :
    holds (superMethod id line method) := by
  refine composes.read (fun _ _ => rfl) fun state => ?_
  split
  · exact composes.throw _
  next distance _ =>
    refine composes.bind (composes.superclassAt distance) fun parent => ?_
    refine composes.bind (composes.receiverInside distance) fun object => ?_
    refine composes.read (fun _ _ => rfl) fun later => ?_
    split
    · exact composes.boundValue _ object
    · exact composes.throw _

/-- Declaring a function makes it and binds its name. -/
theorem declareFunction
    (composes : PlainlyCompositional @holds)
    (declaration : FunctionDeclaration) :
    holds (declareFunction declaration) :=
  composes.read (fun _ _ => rfl) fun _ =>
    composes.bind (composes.newFunction _) fun function => composes.defineHere _ function

/-- Finding what a class inherits from composes. -/
theorem superclassOf (composes : PlainlyCompositional @holds) (parent : Reference) :
    holds (superclassOf parent) := by
  refine composes.bind (composes.lookUp parent.id parent.name) fun value => ?_
  cases value with
  | classObject id => exact composes.pure id
  | _ => exact composes.throw _

/-- Finding what is called composes. -/
theorem calleeFor (composes : PlainlyCompositional @holds) (subject : Value) (count line : Nat) :
    holds (calleeFor subject count line) := by
  refine composes.read (fun _ _ => rfl) fun state => ?_
  dsimp only
  split
  · exact composes.throw _
  split
  · exact composes.pure _
  · exact composes.throw _

/-- What a call gives once its body has ended composes. -/
theorem callResult (composes : PlainlyCompositional @holds) (function : Function) (result : Value) :
    holds (callResult function result) := by
  unfold Execution.callResult
  split
  · exact composes.read (fun _ _ => rfl) fun _ => composes.pure _
  · exact composes.pure result

end

end PlainlyCompositional

namespace Compositional

section

variable {holds : ∀ {α : Type}, Eval α → Prop}

/-- A class is made and then bound. -/
theorem defineClass (composes : Compositional @holds) (name : String) (declared : Class) :
    holds (do Execution.defineHere name (← Execution.newClass declared)) :=
  composes.bind (composes.newClass declared) fun value =>
    composes.defineHere name value

/-- The scope of `super` is left again, so a class is declared by changes of the heap alone. -/
theorem declareClass
    (composes : Compositional @holds)
    (name : Identifier)
    (superclass : Option Reference)
    (methods : List FunctionDeclaration) :
    holds (declareClass name superclass methods) := by
  cases superclass with
  | none =>
      rw [declareClass_none]
      refine composes.bind (composes.defineHere _ _) fun _ => ?_
      exact composes.read (fun _ _ => rfl) fun state => composes.defineClass _ _
  | some parent =>
      rw [declareClass_some]
      refine composes.bind (composes.superclassOf parent) fun id => ?_
      refine composes.bind (composes.defineHere _ _) fun _ => ?_
      refine composes.read (fun _ _ => rfl) fun state => ?_
      exact composes.bind (composes.newScope _ _) fun _ => composes.defineClass _ _

end

/-! ## Runs -/

section

variable {holds : ∀ {α : Type}, Eval α → Prop} {fuel : Nat}

/-- Every expression has the property if everything with less fuel has it. -/
theorem evaluate_succ
    (composes : Compositional @holds)
    (expressions : ∀ value, holds (evaluate fuel value))
    (calls : ∀ callee arguments, holds (call fuel callee arguments))
    (value : Expr) :
    holds (evaluate (fuel + 1) value) := by
  cases value with
  | literal _ => exact composes.pure _
  | grouping inner => exact expressions inner
  | unary _ _ operand => exact composes.bind (expressions operand) fun _ => composes.lift _
  | binary _ _ left right =>
      refine composes.bind (expressions left) fun _ => ?_
      exact composes.bind (expressions right) fun _ => composes.lift _
  | logical operator left right =>
      refine composes.bind (expressions left) fun first => ?_
      split
      · exact composes.pure first
      · exact expressions right
  | reference occurrence => exact composes.lookUp _ _
  | assign target value =>
      refine composes.bind (expressions value) fun assigned => ?_
      exact composes.bind (composes.assignTo target assigned) fun _ => composes.pure assigned
  | call callee arguments line =>
      refine composes.bind (expressions callee) fun subject => ?_
      refine composes.bind (composes.mapM expressions arguments) fun values => ?_
      exact composes.bind (composes.calleeFor subject _ line) fun found => calls found values
  | property object name =>
      exact composes.bind (expressions object) fun found => composes.propertyOf found name
  | setProperty object name value =>
      refine composes.bind (expressions object) fun found => ?_
      refine composes.bind (composes.fieldOwner found name) fun owner => ?_
      refine composes.bind (expressions value) fun assigned => ?_
      exact composes.bind (composes.writeField owner _ assigned) fun _ => composes.pure assigned
  | this id line => exact composes.lookUp _ _
  | super id line method => exact composes.superMethod id line method

/-- Every statement has the property if everything with less fuel has it. -/
theorem execute_succ
    (composes : Compositional @holds)
    (expressions : ∀ value, holds (evaluate fuel value))
    (statements : ∀ statement, holds (execute fuel statement))
    (statement : Stmt) :
    holds (execute (fuel + 1) statement) := by
  cases statement with
  | expression value => exact composes.map (expressions value)
  | print value => exact composes.bind (expressions value) composes.printValue
  | varDeclaration name initializer =>
      cases initializer with
      | none => exact composes.defineHere _ _
      | some value =>
          exact composes.bind (expressions value) fun found => composes.defineHere _ found
  | block body =>
      refine composes.read (fun _ _ => rfl) fun state => ?_
      refine composes.bind (composes.newScope _ _) fun scope => ?_
      exact composes.within (composes.forM statements body) scope
  | branch condition consequent alternative =>
      refine composes.bind (expressions condition) fun found => ?_
      split
      · exact statements consequent
      cases alternative with
      | none => exact composes.pure ()
      | some other => exact statements other
  | loop condition body =>
      refine composes.bind (expressions condition) fun found => ?_
      split
      · exact composes.bind (statements body) fun _ => statements (.loop condition body)
      · exact composes.pure ()
  | functionDeclaration declaration => exact composes.declareFunction declaration
  | returnValue line value =>
      cases value with
      | none => exact composes.throw _
      | some value => exact composes.bind (expressions value) fun _ => composes.throw _
  | classDeclaration name superclass methods =>
      exact composes.declareClass name superclass methods

/-- Every call has the property if everything with less fuel has it. -/
theorem call_succ
    (composes : Compositional @holds)
    (statements : ∀ statement, holds (execute fuel statement))
    (calls : ∀ callee arguments, holds (call fuel callee arguments))
    (callee : Callee)
    (arguments : List Value) :
    holds (call (fuel + 1) callee arguments) := by
  cases callee with
  | native function => exact composes.readClock
  | function function =>
      refine composes.bind (composes.newScope _ _) fun scope => ?_
      refine composes.bind (composes.returning ?_) fun result => composes.callResult function result
      exact composes.within (composes.forM statements _) scope
  | classObject classId =>
      refine composes.bind (composes.newInstance classId) fun object => ?_
      refine composes.read (fun _ _ => rfl) fun state => ?_
      split
      · refine composes.bind (composes.bindMethod _ object) fun bound => ?_
        exact composes.bind (composes.map (calls _ arguments)) fun _ => composes.pure _
      · exact composes.pure _

/-- Whatever is run, with any fuel, has the property. -/
theorem everything (composes : Compositional @holds) (fuel : Nat) :
    (∀ value, holds (evaluate fuel value)) ∧
      (∀ statement, holds (execute fuel statement)) ∧
      ∀ callee arguments, holds (call fuel callee arguments) := by
  induction fuel with
  | zero =>
      exact ⟨fun _ => composes.throw .exhausted, fun _ => composes.throw .exhausted,
        fun _ _ => composes.throw .exhausted⟩
  | succ fuel inductionHypothesis =>
      obtain ⟨expressions, statements, calls⟩ := inductionHypothesis
      exact ⟨composes.evaluate_succ expressions calls,
        composes.execute_succ expressions statements, composes.call_succ statements calls⟩

/-- A property that composes holds of every expression, with any fuel. -/
theorem evaluate (composes : Compositional @holds) (fuel : Nat) (value : Expr) :
    holds (evaluate fuel value) :=
  (composes.everything fuel).1 value

/-- A property that composes holds of every statement, with any fuel. -/
theorem execute (composes : Compositional @holds) (fuel : Nat) (statement : Stmt) :
    holds (execute fuel statement) :=
  (composes.everything fuel).2.1 statement

/-- A property that composes holds of statements in a row, with any fuel. -/
theorem executeAll (composes : Compositional @holds) (fuel : Nat) (body : List Stmt) :
    holds (executeAll fuel body) :=
  composes.forM (composes.execute fuel) body

/-- A property that composes holds of every call, with any fuel. -/
theorem call
    (composes : Compositional @holds)
    (fuel : Nat)
    (callee : Callee)
    (arguments : List Value) :
    holds (call fuel callee arguments) :=
  (composes.everything fuel).2.2 callee arguments

end

end Compositional

end Lox.Execution
