import Lox.Proofs.Execution.Origins

namespace Lox.Execution

/-!
# Which node raises an error

Every runtime error is raised by some node that is evaluated, and what the error says
(the name or the line at which it is reported) is said by this node.  This holds of every
run from every state; the induction is on fuel, with one rule for steps in a row and one
for what a task starts.
-/

/-- The errors that a node raises itself, apart from those of its parts. -/
inductive Raises : Node → RuntimeError → Prop where
  | operandNotNumber {line operand} :
      Raises (.expression (.unary .negate line operand)) (.typeFault (.operandNotNumber line))
  | operandsNotNumbers {operator line left right} :
      Raises (.expression (.binary operator line left right))
        (.typeFault (.operandsNotNumbers operator line))
  | operandsNotAddable {line left right} :
      Raises (.expression (.binary .add line left right))
        (.typeFault (.operandsNotAddable line))
  | divisionByZero {line left right} :
      Raises (.expression (.binary .divide line left right)) (.divisionByZero line)
  | undefinedReference {occurrence} :
      Raises (.expression (.reference occurrence)) (.undefinedVariable occurrence.name)
  | undefinedTarget {target value} :
      Raises (.expression (.assign target value)) (.undefinedVariable target.name)
  | undefinedReceiver {id line} :
      Raises (.expression (.this id line)) (.undefinedVariable ⟨receiverName, line⟩)
  | undefinedSuper {id line method} :
      Raises (.expression (.super id line method)) (.undefinedVariable ⟨superclassName, line⟩)
  | undefinedSuperMethod {id line method} :
      Raises (.expression (.super id line method)) (.undefinedProperty method)
  | notCallable {callee arguments line} :
      Raises (.expression (.call callee arguments line)) (.typeFault (.notCallable line))
  | arityMismatch {callee arguments line expected got} :
      Raises (.expression (.call callee arguments line)) (.arityMismatch expected got line)
  | propertyOfNonInstance {object name} :
      Raises (.expression (.property object name)) (.typeFault (.propertyOfNonInstance name))
  | undefinedProperty {object name} :
      Raises (.expression (.property object name)) (.undefinedProperty name)
  | fieldOfNonInstance {object name value} :
      Raises (.expression (.setProperty object name value))
        (.typeFault (.fieldOfNonInstance name))
  | undefinedSuperclass {name parent methods} :
      Raises (.statement (.classDeclaration name (some parent) methods))
        (.undefinedVariable parent.name)
  | superclassNotClass {name parent methods} :
      Raises (.statement (.classDeclaration name (some parent) methods))
        (.typeFault (.superclassNotClass parent.name))

/-- An error is raised by the code of some task that a task reaches. -/
def Task.Blames (task : Task) (state : State) (error : RuntimeError) : Prop :=
  ∃ later after, Reaches task state later after ∧ ∃ node ∈ later.code, Raises node error

/-- From some state on, an action stops at no errors but those that a task is to blame for. -/
def Blamed (task : Task) (begun : State) (action : Eval α) (state : State) : Prop :=
  ∀ error final, action state = .error (.error error) final → task.Blames begun error

/-- An error is raised by the own code of a task. -/
def Task.RaisesItself (task : Task) (error : RuntimeError) : Prop :=
  ∃ node ∈ task.code, Raises node error

namespace Blamed

section

variable {α β : Type} {task first : Task} {begun state after : State}

/-! ## Actions in a row -/

/-- What gives a value is not to blame for anything. -/
theorem of_ok
    {action : Eval α}
    {value : α}
    (given : action state = .ok value after) :
    Blamed task begun action state := by
  intro error final stopped
  rw [given] at stopped
  cases stopped

theorem pure (value : α) : Blamed task begun (pure value : Eval α) state :=
  of_ok rfl

/-- A stop that is no error of the program has nobody to blame. -/
theorem throw
    {exit : Exit}
    (noError : ∀ error, exit ≠ .error error) :
    Blamed task begun (throw exit : Eval α) state := by
  intro error final stopped
  obtain ⟨same, -⟩ := EStateM.Result.error.inj stopped
  exact absurd same (noError error)

/-- An error that the own code of a task raises is blamed on it. -/
theorem raise
    {error : RuntimeError}
    (own : task.RaisesItself error) :
    Blamed task begun (raise error : Eval α) state := by
  intro found final stopped
  obtain ⟨same, -⟩ := EStateM.Result.error.inj stopped
  obtain rfl := Exit.error.inj same
  exact ⟨task, begun, .here, own⟩

/-- Actions in a row are blamed on a task if both of them are, where they are begun. -/
theorem bind
    {action : Eval α}
    {next : α → Eval β}
    (blamed : Blamed task begun action state)
    (onward :
      ∀ value after, action state = .ok value after → Blamed task begun (next value) after) :
    Blamed task begun (action >>= next) state := by
  intro error final stopped
  rw [bind_apply] at stopped
  cases ended : action state with
  | ok value after =>
      rw [ended] at stopped
      exact onward value after ended error final stopped
  | error exit after =>
      rw [ended] at stopped
      obtain ⟨rfl, rfl⟩ := EStateM.Result.error.inj stopped
      exact blamed error after ended

/-- The state may be looked at. -/
theorem get
    {next : State → Eval α}
    (blamed : Blamed task begun (next state) state) :
    Blamed task begun (get >>= next) state :=
  blamed

theorem map
    {action : Eval α}
    {convert : α → β}
    (blamed : Blamed task begun action state) :
    Blamed task begun (convert <$> action) state := by
  rw [map_eq_pure_bind]
  exact blamed.bind fun value _ _ => pure (convert value)

/-- A task is to blame for what it starts. -/
theorem started
    {action : Eval α}
    (starts : Starts task begun first after)
    (blamed : Blamed first after action state) :
    Blamed task begun action state := by
  intro error final stopped
  obtain ⟨later, beyond, reaches, raised⟩ := blamed error final stopped
  exact ⟨later, beyond, .inside starts reaches, raised⟩

/-- The scope in which an action is begun does not matter for its errors. -/
theorem within
    {action : Eval α}
    {scope : ScopeId}
    (blamed : Blamed task begun action { state with scope := scope }) :
    Blamed task begun (within scope action) state := by
  intro error final stopped
  unfold Execution.within at stopped
  cases ended : action { state with scope := scope } with
  | ok value inner => simp [ended] at stopped
  | error exit inner =>
      simp only [ended, EStateM.Result.error.injEq] at stopped
      obtain ⟨rfl, -⟩ := stopped
      exact blamed error inner ended

/-- A body that is left by a return raises the errors of its statements. -/
theorem returning
    {body : Eval Unit}
    (blamed : Blamed task begun body state) :
    Blamed task begun (returning body) state := by
  intro error final stopped
  unfold Execution.returning at stopped
  cases ended : body state with
  | ok value inner => simp [ended] at stopped
  | error exit inner =>
      rw [ended] at stopped
      cases exit with
      | error found =>
          obtain ⟨same, -⟩ := EStateM.Result.error.inj stopped
          obtain rfl := Exit.error.inj same
          exact blamed found inner ended
      | _ => simp at stopped

/-! ## The steps of a run -/

/-- A computation raises what the own code of the task may raise. -/
theorem lift
    {result : Except RuntimeError α}
    (own : ∀ error, result = .error error → task.RaisesItself error) :
    Blamed task begun (lift result) state := by
  cases result with
  | ok value => exact pure value
  | error error => exact raise (own error rfl)

theorem newScope (bindings : Bindings Value) (enclosing : ScopeId) :
    Blamed task begun (newScope bindings enclosing) state :=
  of_ok rfl

theorem newInstance (classId : ClassId) : Blamed task begun (newInstance classId) state :=
  of_ok rfl

theorem bindMethod (method : Function) (object : InstanceId) :
    Blamed task begun (bindMethod method object) state :=
  of_ok rfl

/-- A variable that is not defined is blamed on its occurrence. -/
theorem lookUp
    {id : NodeId}
    {name : Identifier}
    (own : task.RaisesItself (.undefinedVariable name)) :
    Blamed task begun (lookUp id name) state := by
  refine get ?_
  dsimp only
  split
  · exact pure _
  · exact raise own

/-- A target that is not defined is blamed on its occurrence. -/
theorem assignTo
    {target : Reference}
    {value : Value}
    (own : task.RaisesItself (.undefinedVariable target.name)) :
    Blamed task begun (assignTo target value) state := by
  rw [assignTo_eq]
  refine get ?_
  dsimp only
  split
  · exact of_ok rfl
  · exact raise own

/-- A missing property, or one of what is no instance, is blamed on the access to it. -/
theorem propertyOf
    {object : Value}
    {name : Identifier}
    (noInstance : task.RaisesItself (.typeFault (.propertyOfNonInstance name)))
    (undefined : task.RaisesItself (.undefinedProperty name)) :
    Blamed task begun (propertyOf object name) state := by
  cases object with
  | instanceObject id =>
      refine get ?_
      dsimp only
      split
      · exact pure _
      split
      · exact of_ok rfl
      · exact raise undefined
  | _ => exact raise noInstance

/-- A property that is set on what is no instance is blamed on the access to it. -/
theorem fieldOwner
    {object : Value}
    {name : Identifier}
    (noInstance : task.RaisesItself (.typeFault (.fieldOfNonInstance name))) :
    Blamed task begun (fieldOwner object name) state := by
  cases object with
  | instanceObject id => exact pure id
  | _ => exact raise noInstance

/-- Looking for a superclass never raises an error. -/
theorem superclassAt (distance : Nat) : Blamed task begun (superclassAt distance) state := by
  refine get ?_
  split
  · exact pure _
  · exact throw nofun

/-- Looking for a receiver never raises an error. -/
theorem receiverInside (distance : Nat) :
    Blamed task begun (receiverInside distance) state := by
  refine get ?_
  dsimp only
  split
  · exact pure _
  · exact throw nofun

/-- A missing method of a superclass is blamed on the access to it. -/
theorem superMethod
    {id : NodeId}
    {line : Nat}
    {method : Identifier}
    (undefined : task.RaisesItself (.undefinedVariable ⟨superclassName, line⟩))
    (noMethod : task.RaisesItself (.undefinedProperty method)) :
    Blamed task begun (superMethod id line method) state := by
  refine get ?_
  split
  · exact raise undefined
  next distance _ =>
    refine (superclassAt distance).bind fun parent middle _ => ?_
    refine (receiverInside distance).bind fun object later _ => ?_
    refine get ?_
    split
    · exact of_ok rfl
    · exact raise noMethod

/-- What cannot be called, or not with so many arguments, is blamed on the call. -/
theorem calleeFor
    {subject : Value}
    {count line : Nat}
    (notCallable : task.RaisesItself (.typeFault (.notCallable line)))
    (mismatch : ∀ expected, task.RaisesItself (.arityMismatch expected count line)) :
    Blamed task begun (calleeFor subject count line) state := by
  refine get ?_
  dsimp only
  split
  · exact raise notCallable
  split
  · exact pure _
  · exact raise (mismatch _)

/-- What a call gives once its body has ended raises no error. -/
theorem callResult (function : Function) (result : Value) :
    Blamed task begun (callResult function result) state := by
  unfold Execution.callResult
  split
  · exact of_ok rfl
  · exact pure result

/-- A superclass that is not defined, or no class, is blamed on the class declaration. -/
theorem superclassOf
    {parent : Reference}
    (undefined : task.RaisesItself (.undefinedVariable parent.name))
    (noClass : task.RaisesItself (.typeFault (.superclassNotClass parent.name))) :
    Blamed task begun (superclassOf parent) state := by
  refine (lookUp undefined).bind fun value middle _ => ?_
  cases value with
  | classObject id => exact pure id
  | _ => exact raise noClass

/-- Only the clause of a superclass can make a class declaration stop. -/
theorem declareClass
    {name : Identifier}
    {superclass : Option Reference}
    {methods : List FunctionDeclaration}
    (undefined :
      ∀ parent ∈ superclass, task.RaisesItself (.undefinedVariable parent.name))
    (noClass :
      ∀ parent ∈ superclass,
        task.RaisesItself (.typeFault (.superclassNotClass parent.name))) :
    Blamed task begun (declareClass name superclass methods) state := by
  cases superclass with
  | none => exact of_ok rfl
  | some parent =>
      rw [declareClass_some]
      refine (superclassOf (undefined parent rfl) (noClass parent rfl)).bind fun id _ _ => ?_
      exact of_ok rfl

end

/-! ## Operators -/

/-- A node raises itself what it is said to raise, in a task that evaluates it. -/
theorem own
    {fuel : Nat}
    {value : Expr}
    {error : RuntimeError}
    (raises : Raises (.expression value) error) :
    (Task.expression fuel value).RaisesItself error :=
  ⟨_, List.mem_singleton.mpr rfl, raises⟩

/-- An operator raises its error at its own line. -/
theorem applyUnary_raises
    {operator : UnaryOperator}
    {line : Nat}
    {operand : Expr}
    {value : Value}
    {error : RuntimeError}
    (stopped : applyUnary operator line value = .error error) :
    Raises (.expression (.unary operator line operand)) error := by
  unfold applyUnary at stopped
  split at stopped
  · cases stopped
  · cases stopped
  · obtain rfl := Except.error.inj stopped
    exact .operandNotNumber

/-- An operation on numbers raises its error at the line of its operator. -/
theorem onNumbers_raises
    {operator : BinaryOperator}
    {line : Nat}
    {operation : Number → Number → Except RuntimeError Value}
    {left right : Expr}
    {first second : Value}
    {error : RuntimeError}
    (inside :
      ∀ a b, operation a b = .error error →
        Raises (.expression (.binary operator line left right)) error)
    (stopped : onNumbers operator line operation first second = .error error) :
    Raises (.expression (.binary operator line left right)) error := by
  unfold onNumbers at stopped
  split at stopped
  · exact inside _ _ stopped
  · obtain rfl := Except.error.inj stopped
    exact .operandsNotNumbers

/-- An operator between two operands raises its error at its own line. -/
theorem applyBinary_raises
    {operator : BinaryOperator}
    {line : Nat}
    {left right : Expr}
    {first second : Value}
    {error : RuntimeError}
    (stopped : applyBinary operator line first second = .error error) :
    Raises (.expression (.binary operator line left right)) error := by
  cases operator with
  | add =>
      unfold applyBinary addValues at stopped
      dsimp only at stopped
      split at stopped
      case h_5 =>
        obtain rfl := Except.error.inj stopped
        exact .operandsNotAddable
      all_goals cases stopped
  | divide =>
      refine onNumbers_raises (fun a b divided => ?_) stopped
      unfold divideNumbers at divided
      split at divided
      · obtain rfl := Except.error.inj divided
        exact .divisionByZero
      · cases divided
  | equal => cases stopped
  | notEqual => cases stopped
  | _ => exact onNumbers_raises (fun _ _ given => by cases given) stopped

end Blamed

/-! ## Runs -/

/-- With some fuel, every expression that stops at an error has a node that raises it. -/
def ExpressionsBlamed (fuel : Nat) : Prop :=
  ∀ value state, Blamed (.expression fuel value) state (evaluate fuel value) state

/-- With some fuel, every statement that stops at an error has a node that raises it. -/
def StatementsBlamed (fuel : Nat) : Prop :=
  ∀ single state, Blamed (.statement fuel single) state (execute fuel single) state

/-- With some fuel, every call that stops at an error reaches a node that raises it. -/
def CallsBlamed (fuel : Nat) : Prop :=
  ∀ callee arguments state,
    Blamed (.call fuel callee arguments) state (call fuel callee arguments) state

section

open Blamed (own)

variable {fuel : Nat}

/-- The errors of expressions in a row are blamed on one of them. -/
theorem arguments_blamed
    (expressions : ExpressionsBlamed fuel)
    (values : List Expr)
    (state : State) :
    Blamed (.arguments fuel values) state (values.mapM (evaluate fuel)) state := by
  induction values generalizing state with
  | nil => exact .pure []
  | cons first rest inductionHypothesis =>
      rw [List.mapM_cons]
      refine (Blamed.started .firstArgument (expressions first state)).bind
        fun value middle given => ?_
      refine (Blamed.started (.otherArguments given) (inductionHypothesis middle)).bind
        fun values later _ => .pure (value :: values)

/-- The errors of statements in a row are blamed on one of them. -/
theorem body_blamed
    (statements : StatementsBlamed fuel)
    (body : List Stmt)
    (state : State) :
    Blamed (.statements fuel body) state (executeAll fuel body) state := by
  induction body generalizing state with
  | nil => exact .pure ()
  | cons first rest inductionHypothesis =>
      refine (Blamed.started .firstStatement (statements first state)).bind
        fun _ middle given => ?_
      exact .started (.otherStatements given) (inductionHypothesis middle)

/-- Expressions are to blame for their errors if everything with less fuel is. -/
theorem expressions_blamed
    (expressions : ExpressionsBlamed fuel)
    (calls : CallsBlamed fuel) :
    ExpressionsBlamed (fuel + 1) := by
  intro value state
  cases value with
  | literal _ => exact .pure _
  | grouping inner => exact .started .grouping (expressions inner state)
  | unary operator line operand =>
      refine (Blamed.started .operand (expressions operand state)).bind fun value _ _ => ?_
      exact .lift fun error stopped => own (Blamed.applyUnary_raises stopped)
  | binary operator line left right =>
      refine (Blamed.started .leftOperand (expressions left state)).bind
        fun first middle given => ?_
      refine (Blamed.started (.rightOperand given) (expressions right middle)).bind
        fun second _ _ => ?_
      exact .lift fun error stopped => own (Blamed.applyBinary_raises stopped)
  | logical operator left right =>
      refine (Blamed.started .leftCondition (expressions left state)).bind
        fun first middle given => ?_
      split
      · exact .pure first
      next unsettled =>
        exact .started (.rightCondition given (Bool.not_eq_true _ ▸ unsettled))
          (expressions right middle)
  | reference occurrence => exact .lookUp (own .undefinedReference)
  | assign target value =>
      refine (Blamed.started .assigned (expressions value state)).bind fun assigned _ _ => ?_
      exact (Blamed.assignTo (own .undefinedTarget)).bind fun _ _ _ => .pure assigned
  | call callee arguments line =>
      refine (Blamed.started .callee (expressions callee state)).bind
        fun subject middle givenCallee => ?_
      refine (Blamed.started (.arguments givenCallee)
        (arguments_blamed expressions arguments middle)).bind
        fun values later givenArguments => ?_
      refine (Blamed.calleeFor (own .notCallable) fun _ => own .arityMismatch).bind
        fun found after givenFound => ?_
      exact .started (.call givenCallee givenArguments givenFound) (calls found values after)
  | property object name =>
      refine (Blamed.started .object (expressions object state)).bind fun found _ _ => ?_
      exact .propertyOf (own .propertyOfNonInstance) (own .undefinedProperty)
  | setProperty object name value =>
      refine (Blamed.started .owner (expressions object state)).bind
        fun found middle givenObject => ?_
      refine (Blamed.fieldOwner (own .fieldOfNonInstance)).bind
        fun owner later givenOwner => ?_
      refine (Blamed.started (.field givenObject givenOwner) (expressions value later)).bind
        fun assigned _ _ => ?_
      exact .of_ok rfl
  | this id line => exact .lookUp (own .undefinedReceiver)
  | super id line method =>
      exact .superMethod (own .undefinedSuper) (own .undefinedSuperMethod)

/-- Statements are to blame for their errors if everything with less fuel is. -/
theorem statements_blamed
    (expressions : ExpressionsBlamed fuel)
    (statements : StatementsBlamed fuel) :
    StatementsBlamed (fuel + 1) := by
  intro single state
  cases single with
  | expression value => exact .map (.started .effect (expressions value state))
  | print value =>
      exact (Blamed.started .printed (expressions value state)).bind fun _ _ _ => .of_ok rfl
  | varDeclaration name initializer =>
      cases initializer with
      | none => exact .of_ok rfl
      | some value =>
          exact (Blamed.started .initializer (expressions value state)).bind
            fun _ _ _ => .of_ok rfl
  | block body =>
      refine .get ?_
      refine (Blamed.newScope _ _).bind fun scope after given => ?_
      exact .within (.started (.block given) (body_blamed statements body _))
  | branch condition consequent alternative =>
      refine (Blamed.started .condition (expressions condition state)).bind
        fun found middle given => ?_
      split
      next truthy => exact .started (.consequent given truthy) (statements consequent middle)
      next falsy =>
        cases alternative with
        | none => exact .pure ()
        | some other =>
            exact .started (.alternative given (Bool.not_eq_true _ ▸ falsy))
              (statements other middle)
  | loop condition body =>
      refine (Blamed.started .loopCondition (expressions condition state)).bind
        fun found middle given => ?_
      split
      next truthy =>
        refine (Blamed.started (.round given truthy) (statements body middle)).bind
          fun _ later givenRound => ?_
        exact .started (.nextRound given truthy givenRound) (statements _ later)
      · exact .pure ()
  | functionDeclaration declaration => exact .of_ok rfl
  | returnValue line value =>
      cases value with
      | none => exact .throw nofun
      | some value =>
          exact (Blamed.started .returned (expressions value state)).bind
            fun _ _ _ => .throw nofun
  | classDeclaration name superclass methods =>
      refine .declareClass ?_ ?_
      · rintro parent rfl
        exact ⟨_, List.mem_singleton.mpr rfl, .undefinedSuperclass⟩
      · rintro parent rfl
        exact ⟨_, List.mem_singleton.mpr rfl, .superclassNotClass⟩

/-- Calls are to blame for their errors if everything with less fuel is. -/
theorem calls_blamed
    (statements : StatementsBlamed fuel)
    (calls : CallsBlamed fuel) :
    CallsBlamed (fuel + 1) := by
  intro callee arguments state
  cases callee with
  | native function => cases function; exact .of_ok rfl
  | function function =>
      refine (Blamed.newScope _ _).bind fun scope after given => ?_
      refine (Blamed.returning (.within
        (.started (.functionBody given) (body_blamed statements _ _)))).bind
        fun result _ _ => ?_
      exact .callResult function result
  | classObject classId =>
      refine (Blamed.newInstance classId).bind fun object middle givenObject => ?_
      refine .get ?_
      split
      next constructor found =>
        refine (Blamed.bindMethod constructor object).bind fun bound after givenMethod => ?_
        refine (Blamed.map (.started (.construction givenObject found givenMethod)
          (calls _ arguments after))).bind fun _ _ _ => .pure _
      · exact .pure _

end

/-- Whatever is run, with any fuel and in any state, a node raises the error it stops at. -/
theorem everything_blamed (fuel : Nat) :
    ExpressionsBlamed fuel ∧ StatementsBlamed fuel ∧ CallsBlamed fuel := by
  induction fuel with
  | zero => exact ⟨fun _ _ => .throw nofun, fun _ _ => .throw nofun, fun _ _ _ => .throw nofun⟩
  | succ fuel inductionHypothesis =>
      obtain ⟨expressions, statements, calls⟩ := inductionHypothesis
      exact ⟨expressions_blamed expressions calls, statements_blamed expressions statements,
        calls_blamed statements calls⟩

end Lox.Execution
