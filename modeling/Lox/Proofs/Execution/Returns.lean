import Lox.Proofs.Execution.Endings
import Lox.Proofs.Scoping.Reuse

namespace Lox

/-!
# Returns end at the call around them

A return travels outwards through blocks, branches and loops of one function body,
and the call of that function takes it.  So no expression and no call can be left by
one, whatever the state, and a statement can only if it has a return in it outside of
all functions, which scope resolution rejects at the top level of a program.
-/

/-! ## Statements with a return -/

mutual

/-- Whether a statement has a return in it that is not in a function within. -/
def Stmt.hasReturn : Stmt → Bool
  | .expression _ => false
  | .print _ => false
  | .varDeclaration _ _ => false
  | .block body => Stmt.anyHasReturn body
  | .branch _ consequent none => consequent.hasReturn
  | .branch _ consequent (some alternative) =>
      consequent.hasReturn || alternative.hasReturn
  | .loop _ body => body.hasReturn
  | .functionDeclaration _ => false
  | .returnValue _ _ => true
  | .classDeclaration _ _ _ => false

/-- Whether one of some statements has a return in it. -/
def Stmt.anyHasReturn : List Stmt → Bool
  | [] => false
  | first :: rest => first.hasReturn || Stmt.anyHasReturn rest

end

/-- A body has a return if one of its statements has. -/
theorem Stmt.anyHasReturn_of_mem
    {body : List Stmt}
    {statement : Stmt}
    (member : statement ∈ body)
    (returns : statement.hasReturn = true) :
    Stmt.anyHasReturn body = true := by
  induction member with
  | head rest => simp [Stmt.anyHasReturn, returns]
  | tail first _ inductionHypothesis => simp [Stmt.anyHasReturn, inductionHypothesis]

end Lox

namespace Lox.Scoping

/-- A walk that ends well outside of all functions stays outside of them. -/
theorem outside_of_recovers
    {action : Resolving Unit}
    {stops : Resolver → Prop}
    {before after : Resolver}
    (recovers : Recovers stops action)
    (tidy : before.Tidy)
    (outside : before.functionRole = none)
    (given : action before = .ok () after) :
    after.Tidy ∧ after.functionRole = none := by
  have recovered := recovers before tidy
  unfold RecoversFrom at recovered
  rw [given] at recovered
  obtain ⟨-, around, stillTidy, -⟩ := recovered
  exact ⟨stillTidy, around.functionRole.trans outside⟩

/-- A return is accepted only inside a function. -/
theorem not_accepted_returnValue
    {before after : Resolver}
    {line : Nat}
    {value : Option Expr}
    (outside : before.functionRole = none)
    (accepted : resolveStmt (.returnValue line value) before = .ok () after) :
    False := by
  rw [resolveStmt, bind_of_ok (get_apply before)] at accepted
  simp [outside, fail, bind_apply, throw_apply] at accepted

mutual

/-- A statement that is accepted outside of all functions has no return in it. -/
theorem hasReturn_of_accepted :
    ∀ (statement : Stmt) {before after : Resolver},
      before.Tidy → before.functionRole = none →
      resolveStmt statement before = .ok () after → statement.hasReturn = false
  | .expression _, _, _, _, _, _ => rfl
  | .print _, _, _, _, _, _ => rfl
  | .varDeclaration _ _, _, _, _, _, _ => rfl
  | .functionDeclaration _, _, _, _, _, _ => rfl
  | .classDeclaration _ _ _, _, _, _, _, _ => rfl
  | .returnValue _ _, _, _, _, outside, accepted =>
      (not_accepted_returnValue outside accepted).elim
  | .block body, before, _, _, outside, accepted => by
      have inside : ∃ final, resolveStmts body before.entering = .ok () final := by
        rw [resolveStmt, inScope] at accepted
        split at accepted
        next final given => exact ⟨final, given⟩
        · cases accepted
      obtain ⟨final, given⟩ := inside
      exact anyHasReturn_of_accepted body before.tidy_entering outside given
  | .branch condition consequent none, before, _, tidy, outside, accepted => by
      rw [resolveStmt, bind_eq_ok_iff] at accepted
      obtain ⟨_, middle, checked, walked⟩ := accepted
      obtain ⟨stillTidy, still⟩ := outside_of_recovers
        (.of_settles (resolveExpr_settles condition)) tidy outside checked
      exact hasReturn_of_accepted consequent stillTidy still walked
  | .branch condition consequent (some alternative), before, _, tidy, outside, accepted => by
      rw [resolveStmt, bind_eq_ok_iff] at accepted
      obtain ⟨_, middle, checked, walked⟩ := accepted
      obtain ⟨stillTidy, still⟩ := outside_of_recovers
        (.of_settles (resolveExpr_settles condition)) tidy outside checked
      rw [bind_eq_ok_iff] at walked
      obtain ⟨_, later, first, second⟩ := walked
      obtain ⟨finallyTidy, finallyOutside⟩ := outside_of_recovers
        (resolveStmt_recovers consequent) stillTidy still first
      rw [Stmt.hasReturn, hasReturn_of_accepted consequent stillTidy still first,
        hasReturn_of_accepted alternative finallyTidy finallyOutside second]
      rfl
  | .loop condition body, before, _, tidy, outside, accepted => by
      rw [resolveStmt, bind_eq_ok_iff] at accepted
      obtain ⟨_, middle, checked, walked⟩ := accepted
      obtain ⟨stillTidy, still⟩ := outside_of_recovers
        (.of_settles (resolveExpr_settles condition)) tidy outside checked
      exact hasReturn_of_accepted body stillTidy still walked

/-- Accepted statements outside of every function have no return. -/
theorem anyHasReturn_of_accepted :
    ∀ (body : List Stmt) {before after : Resolver},
      before.Tidy → before.functionRole = none →
      resolveStmts body before = .ok () after → Stmt.anyHasReturn body = false
  | [], _, _, _, _, _ => rfl
  | first :: rest, before, _, tidy, outside, accepted => by
      rw [resolveStmts, bind_eq_ok_iff] at accepted
      obtain ⟨_, middle, head, others⟩ := accepted
      obtain ⟨stillTidy, still⟩ := outside_of_recovers
        (resolveStmt_recovers first) tidy outside head
      rw [Stmt.anyHasReturn, hasReturn_of_accepted first tidy outside head,
        anyHasReturn_of_accepted rest stillTidy still others]
      rfl

end

/-- A program that a resolver accepts between programs has no return at its top level. -/
theorem anyHasReturn_of_verdict
    {resolver : Resolver}
    {program : List Stmt}
    (outermost : resolver.scopes = [])
    (outside : resolver.functionRole = none)
    (accepted : (resolver.resolve program).1.verdict = .ok ()) :
    Stmt.anyHasReturn program = false := by
  have tidy : Resolver.Tidy { resolver with settled := [] } := by
    intro scope innermost
    simp [outermost] at innermost
  unfold Resolver.resolve at accepted
  cases given : resolveStmts program { resolver with settled := [] } with
  | ok _ after => exact anyHasReturn_of_accepted program tidy outside given
  | error error after => simp [given] at accepted

/-- A program that is accepted by itself has no return at its top level. -/
theorem anyHasReturn_of_resolve
    {program : List Stmt}
    (accepted : (resolve program).verdict = .ok ()) :
    Stmt.anyHasReturn program = false :=
  have outermost : Resolver.initial.scopes = [] := rfl
  anyHasReturn_of_verdict outermost rfl accepted

end Lox.Scoping

namespace Lox.Execution

/-! ## The error for a stray return -/

/-- The message of a return outside of all functions. -/
def strayReturnMessage : String :=
  "Can't return from top-level code."

/-- Whether an error is that of a return outside of all functions. -/
def RuntimeError.isStrayReturn : RuntimeError → Bool
  | .typeFault (.returnOutsideFunction _) => true
  | _ => false

/-- A text that begins with another letter is another text. -/
theorem append_ne_of_head
    {start text : String}
    (letter : Char)
    (begins : start.toList.head? = some letter)
    (differs : text.toList.head? ≠ some letter)
    (rest : String) :
    start ++ rest ≠ text := by
  rintro rfl
  apply differs
  rw [String.toList_append, List.head?_append, begins]
  rfl

/-- Only the error of a return outside of a function has its message. -/
theorem isStrayReturn_of_message
    {fault : TypeFault}
    (same : fault.message = strayReturnMessage) :
    (RuntimeError.typeFault fault).isStrayReturn = true := by
  cases fault with
  | returnOutsideFunction line => rfl
  | _ => simp [TypeFault.message, strayReturnMessage] at same

/-- No other error has the message of a stray return. -/
theorem isStrayReturn_of_summary
    {error : RuntimeError}
    (same : error.summary = strayReturnMessage) :
    error.isStrayReturn = true := by
  cases error with
  | undefinedVariable name =>
      change "Undefined variable '" ++ name.text ++ "'." = _ at same
      rw [String.append_assoc] at same
      exact absurd same
        (append_ne_of_head 'U' (by simp) (by simp [strayReturnMessage]) _)
  | undefinedProperty name =>
      change "Undefined property '" ++ name.text ++ "'." = _ at same
      rw [String.append_assoc] at same
      exact absurd same
        (append_ne_of_head 'U' (by simp) (by simp [strayReturnMessage]) _)
  | typeFault fault => exact isStrayReturn_of_message same
  | divisionByZero line =>
      change "Division by zero." = _ at same
      exact absurd same (by decide)
  | arityMismatch expected got line =>
      change "Expected " ++ toString expected ++ " arguments but got " ++ toString got ++ "." = _
        at same
      simp only [String.append_assoc] at same
      exact absurd same
        (append_ne_of_head 'E' (by simp) (by simp [strayReturnMessage]) _)

/-! ## The exits of an action -/

/--
An exit that code may take, with a return of its own to leave it or without.  The
error for a stray return is not among the errors of any code.
-/
def Exit.Permitted (returns : Bool) : Exit → Prop
  | .error found => found.isStrayReturn = false
  | .returned _ _ => returns = true
  | .mismatch _ => True
  | .exhausted => True

/-- A panic: the scopes of a `super` do not hold what it needs. -/
def Exit.IsPanic (exit : Exit) : Prop :=
  ∃ found, exit = .mismatch found

/-- An action that is left by permitted exits only, in whatever state it is run. -/
def LeftBy (returns : Bool) (action : Eval α) : Prop :=
  ∀ state exit final, action state = .error exit final → exit.Permitted returns

/-- Where no return is permitted, a run stops at an error, panics, or is out of fuel. -/
theorem Exit.Permitted.without_return
    {exit : Exit}
    (permitted : exit.Permitted false) :
    (∃ found, exit = .error found) ∨ exit.IsPanic ∨ exit = .exhausted := by
  cases exit with
  | error found => exact .inl ⟨found, rfl⟩
  | returned line value => exact absurd permitted Bool.false_ne_true
  | mismatch found => exact .inr (.inl ⟨found, rfl⟩)
  | exhausted => exact .inr (.inr rfl)

namespace LeftBy

section

variable {α β : Type} {returns : Bool}

/-! ## Actions in a row -/

/-- What leaves code without a return also leaves code with one. -/
theorem mono
    {action : Eval α}
    {fewer more : Bool}
    (implies : fewer = true → more = true)
    (left : LeftBy fewer action) :
    LeftBy more action := by
  intro state exit final stopped
  have permitted := left state exit final stopped
  cases exit with
  | returned line value => exact implies permitted
  | _ => exact permitted

theorem pure (value : α) : LeftBy returns (pure value : Eval α) := by
  intro state exit final stopped
  cases stopped

/-- A run may stop by an exit that is permitted. -/
theorem throw
    {exit : Exit}
    (permitted : exit.Permitted returns) :
    LeftBy returns (throw exit : Eval α) := by
  rintro state _ _ ⟨⟩
  exact permitted

/-- Every error but the one for a stray return may be raised anywhere. -/
theorem raise
    {error : RuntimeError}
    (other : error.isStrayReturn = false) :
    LeftBy returns (raise error : Eval α) :=
  throw other

/-- Actions in a row stop by permitted exits. -/
theorem bind
    {first : Eval α}
    {next : α → Eval β}
    (leftFirst : LeftBy returns first)
    (leftNext : ∀ value, LeftBy returns (next value)) :
    LeftBy returns (first >>= next) := by
  intro state exit final stopped
  rw [bind_apply] at stopped
  cases ended : first state with
  | ok value middle =>
      rw [ended] at stopped
      exact leftNext value middle exit final stopped
  | error found middle =>
      rw [ended] at stopped
      cases stopped
      exact leftFirst state exit final ended

/-- The state may be looked at. -/
theorem get
    {next : State → Eval α}
    (left : ∀ state, LeftBy returns (next state)) :
    LeftBy returns (get >>= next) :=
  fun state exit final stopped => left state state exit final stopped

/-- A change of the state always gives a value. -/
theorem modifyGet (change : State → α × State) :
    LeftBy returns (modifyGet change : Eval α) := by
  intro state exit final stopped
  cases stopped

theorem map
    {action : Eval α}
    {convert : α → β}
    (left : LeftBy returns action) :
    LeftBy returns (convert <$> action) := by
  rw [map_eq_pure_bind]
  exact bind left fun value => pure (convert value)

/-- One action for every element stops by permitted exits. -/
theorem mapM
    {step : α → Eval β}
    (left : ∀ value, LeftBy returns (step value))
    (values : List α) :
    LeftBy returns (values.mapM step) := by
  induction values with
  | nil => exact pure []
  | cons first rest inductionHypothesis =>
      rw [List.mapM_cons]
      refine bind (left first) fun value => ?_
      exact bind inductionHypothesis fun values => pure (value :: values)

/-- One action for every element of a list, which may matter, stops by permitted exits. -/
theorem forM
    {step : α → Eval PUnit}
    {values : List α}
    (left : ∀ value ∈ values, LeftBy returns (step value)) :
    LeftBy returns (values.forM step) := by
  induction values with
  | nil => exact pure ()
  | cons first rest inductionHypothesis =>
      refine bind (left first List.mem_cons_self) fun _ => ?_
      exact inductionHypothesis fun value member => left value (List.mem_cons_of_mem _ member)

/-- The scope of an action does not matter for how it stops. -/
theorem within
    {action : Eval α}
    (left : LeftBy returns action)
    (scope : ScopeId) :
    LeftBy returns (within scope action) := by
  intro state exit final stopped
  unfold Execution.within at stopped
  cases ended : action { state with scope := scope } with
  | ok value middle => simp [ended] at stopped
  | error found middle =>
      simp only [ended, EStateM.Result.error.injEq] at stopped
      obtain ⟨rfl, -⟩ := stopped
      exact left _ _ _ ended

/-- A call takes the return of its body, and hands on every other exit. -/
theorem returning
    {body : Eval Unit}
    (left : LeftBy true body) :
    LeftBy false (returning body) := by
  intro state exit final stopped
  unfold Execution.returning at stopped
  cases ended : body state with
  | ok value middle => simp [ended] at stopped
  | error found middle =>
      have permitted := left state found middle ended
      rw [ended] at stopped
      cases found with
      | returned line value => cases stopped
      | _ =>
          cases stopped
          exact permitted

/-! ## The steps of a run -/

/-- An operator with one operand never stops by a return. -/
theorem applyUnary (operator : UnaryOperator) (line : Nat) (operand : Value) :
    LeftBy returns (Execution.lift (applyUnary operator line operand)) := by
  unfold Execution.applyUnary
  split
  · exact pure _
  · exact pure _
  · exact raise rfl

/-- A sum never stops by a return. -/
theorem addValues (line : Nat) (first second : Value) :
    LeftBy returns (Execution.lift (addValues line first second)) := by
  unfold Execution.addValues
  split
  · exact pure _
  · exact pure _
  · exact pure _
  · exact pure _
  · exact raise rfl

/-- An operation on numbers stops as it does on these numbers. -/
theorem onNumbers
    (operator : BinaryOperator)
    (line : Nat)
    {operation : Number → Number → Except RuntimeError Value}
    (left : ∀ first second, LeftBy returns (Execution.lift (operation first second)))
    (first second : Value) :
    LeftBy returns (Execution.lift (onNumbers operator line operation first second)) := by
  unfold Execution.onNumbers
  split
  · exact left _ _
  · exact raise rfl

/-- A quotient never stops by a return. -/
theorem divideNumbers (line : Nat) (first second : Number) :
    LeftBy returns (Execution.lift (divideNumbers line first second)) := by
  unfold Execution.divideNumbers
  split
  · exact raise rfl
  · exact pure _

/-- An operator with two operands never stops by a return. -/
theorem applyBinary (operator : BinaryOperator) (line : Nat) (first second : Value) :
    LeftBy returns (Execution.lift (applyBinary operator line first second)) := by
  cases operator with
  | add => exact addValues line first second
  | divide => exact onNumbers _ line (divideNumbers line) first second
  | equal => exact pure _
  | notEqual => exact pure _
  | _ => exact onNumbers _ line (fun _ _ => pure _) first second

/-- Looking up a variable never stops by a return. -/
theorem lookUp (id : NodeId) (name : Identifier) : LeftBy returns (lookUp id name) := by
  refine get fun state => ?_
  dsimp only
  split
  · exact pure _
  · exact raise rfl

/-- Assigning to a variable never stops by a return. -/
theorem assignTo (target : Reference) (value : Value) :
    LeftBy returns (assignTo target value) := by
  intro state exit final stopped
  unfold Execution.assignTo at stopped
  dsimp only at stopped
  split at stopped
  · cases stopped
  · cases stopped
    rfl

theorem boundValue (method : Function) (object : InstanceId) :
    LeftBy returns (boundValue method object) :=
  bind (bind (modifyGet _) fun _ => pure _) fun _ => modifyGet _

/-- An access to a property never stops by a return. -/
theorem propertyOf (object : Value) (name : Identifier) :
    LeftBy returns (propertyOf object name) := by
  cases object with
  | instanceObject id =>
      refine get fun state => ?_
      dsimp only
      split
      · exact pure _
      split
      · exact boundValue _ id
      · exact raise rfl
  | _ => exact raise rfl

theorem fieldOwner (object : Value) (name : Identifier) :
    LeftBy returns (fieldOwner object name) := by
  cases object with
  | instanceObject id => exact pure id
  | _ => exact raise rfl

/-- An access to a superclass never stops by a return. -/
theorem superMethod (id : NodeId) (line : Nat) (method : Identifier) :
    LeftBy returns (superMethod id line method) := by
  have superclassAt : ∀ distance, LeftBy returns (superclassAt distance) := by
    intro distance
    refine get fun state => ?_
    split
    · exact pure _
    · exact throw trivial
  have receiverInside : ∀ distance, LeftBy returns (receiverInside distance) := by
    intro distance
    refine get fun state => ?_
    dsimp only
    split
    · exact pure _
    · exact throw trivial
  refine get fun state => ?_
  split
  · exact raise rfl
  next distance _ =>
    refine bind (superclassAt distance) fun parent => ?_
    refine bind (receiverInside distance) fun object => ?_
    refine get fun later => ?_
    split
    · exact boundValue _ object
    · exact raise rfl

/-- A class declaration never stops by a return. -/
theorem declareClass
    (name : Identifier)
    (superclass : Option Reference)
    (methods : List FunctionDeclaration) :
    LeftBy returns (declareClass name superclass methods) := by
  have defineClass : ∀ declared : Class,
      LeftBy returns (do defineHere name.text (← newClass declared)) :=
    fun declared => bind (modifyGet _) fun _ => modifyGet _
  cases superclass with
  | none =>
      rw [declareClass_none]
      exact bind (modifyGet _) fun _ => get fun _ => defineClass _
  | some parent =>
      rw [declareClass_some]
      refine bind (bind (lookUp parent.id parent.name) fun value => ?_) fun id => ?_
      · cases value with
        | classObject id => exact pure id
        | _ => exact raise rfl
      refine bind (modifyGet _) fun _ => get fun _ => ?_
      exact bind (modifyGet _) fun _ => defineClass _

/-- Finding what is called never stops by a return. -/
theorem calleeFor (subject : Value) (count line : Nat) :
    LeftBy returns (calleeFor subject count line) := by
  refine get fun state => ?_
  dsimp only
  split
  · exact raise rfl
  split
  · exact pure _
  · exact raise rfl

/-- Finding what a call gives behind its body never stops by a return. -/
theorem callResult (function : Function) (result : Value) :
    LeftBy returns (callResult function result) := by
  unfold Execution.callResult
  split
  · exact get fun _ => pure _
  · exact pure result

end

/-! ## Runs -/

section

variable {fuel : Nat}

/-- No expression is left by a return if nothing with less fuel that it runs is. -/
theorem evaluate_succ
    (expressions : ∀ value, LeftBy false (evaluate fuel value))
    (calls : ∀ callee arguments, LeftBy false (call fuel callee arguments))
    (value : Expr) :
    LeftBy false (evaluate (fuel + 1) value) := by
  cases value with
  | literal _ => exact pure _
  | grouping inner => exact expressions inner
  | unary _ _ operand => exact bind (expressions operand) fun _ => applyUnary _ _ _
  | binary _ _ left right =>
      refine bind (expressions left) fun _ => ?_
      exact bind (expressions right) fun _ => applyBinary _ _ _ _
  | logical operator left right =>
      refine bind (expressions left) fun first => ?_
      split
      · exact pure first
      · exact expressions right
  | reference occurrence => exact lookUp _ _
  | assign target value =>
      refine bind (expressions value) fun assigned => ?_
      exact bind (assignTo target assigned) fun _ => pure assigned
  | call callee arguments line =>
      refine bind (expressions callee) fun subject => ?_
      refine bind (mapM expressions arguments) fun values => ?_
      exact bind (calleeFor subject _ line) fun found => calls found values
  | property object name => exact bind (expressions object) fun found => propertyOf found name
  | setProperty object name value =>
      refine bind (expressions object) fun found => ?_
      refine bind (fieldOwner found name) fun owner => ?_
      refine bind (expressions value) fun assigned => ?_
      exact bind (modifyGet _) fun _ => pure assigned
  | this id line => exact lookUp _ _
  | super id line method => exact superMethod id line method

/-- A statement is left by a return only if it has one. -/
theorem execute_succ
    (expressions : ∀ value, LeftBy false (evaluate fuel value))
    (statements : ∀ statement, LeftBy statement.hasReturn (execute fuel statement))
    (statement : Stmt) :
    LeftBy statement.hasReturn (execute (fuel + 1) statement) := by
  have anywhere : ∀ {returns} value, LeftBy returns (evaluate fuel value) :=
    fun value => mono Bool.noConfusion (expressions value)
  cases statement with
  | expression value => exact map (expressions value)
  | print value => exact bind (expressions value) fun _ => modifyGet _
  | varDeclaration name initializer =>
      cases initializer with
      | none => exact modifyGet _
      | some value => exact bind (expressions value) fun _ => modifyGet _
  | block body =>
      refine get fun state => ?_
      refine bind (modifyGet _) fun scope => within (forM fun statement member => ?_) scope
      exact mono (Stmt.anyHasReturn_of_mem member) (statements statement)
  | branch condition consequent alternative =>
      refine bind (anywhere condition) fun found => ?_
      cases alternative with
      | none =>
          split
          · exact statements consequent
          · exact pure ()
      | some other =>
          split
          · exact mono (fun returns => by simp [Stmt.hasReturn, returns]) (statements consequent)
          · exact mono (fun returns => by simp [Stmt.hasReturn, returns]) (statements other)
  | loop condition body =>
      refine bind (anywhere condition) fun found => ?_
      split
      · exact bind (statements body) fun _ => statements (.loop condition body)
      · exact pure ()
  | functionDeclaration declaration =>
      exact get fun _ => bind (modifyGet _) fun _ => modifyGet _
  | returnValue line value =>
      cases value with
      | none => exact throw rfl
      | some value => exact bind (anywhere value) fun _ => throw rfl
  | classDeclaration name superclass methods => exact declareClass name superclass methods

/-- No call is left by a return, whatever the statements of its body may be left by. -/
theorem call_succ
    (statements : ∀ statement, LeftBy true (execute fuel statement))
    (calls : ∀ callee arguments, LeftBy false (call fuel callee arguments))
    (callee : Callee)
    (arguments : List Value) :
    LeftBy false (call (fuel + 1) callee arguments) := by
  cases callee with
  | native function => exact modifyGet _
  | function function =>
      refine bind (modifyGet _) fun scope => ?_
      refine bind (returning (within (forM ?_) scope)) fun result => callResult function result
      exact fun statement _ => statements statement
  | classObject classId =>
      refine bind (modifyGet _) fun object => get fun state => ?_
      split
      · refine bind (bind (modifyGet _) fun _ => pure _) fun bound => ?_
        exact bind (map (calls _ arguments)) fun _ => pure _
      · exact pure _

/-- With any fuel, only a statement with a return can be left by one. -/
theorem everything (fuel : Nat) :
    (∀ value, LeftBy false (evaluate fuel value)) ∧
      (∀ statement, LeftBy statement.hasReturn (execute fuel statement)) ∧
      ∀ callee arguments, LeftBy false (call fuel callee arguments) := by
  induction fuel with
  | zero =>
      exact ⟨fun _ => throw trivial, fun _ => throw trivial, fun _ _ => throw trivial⟩
  | succ fuel inductionHypothesis =>
      obtain ⟨expressions, statements, calls⟩ := inductionHypothesis
      have bodies := fun statement => mono (fun _ => rfl) (statements statement)
      exact ⟨evaluate_succ expressions calls, execute_succ expressions statements,
        call_succ bodies calls⟩

end

end LeftBy

/-! ## Programs -/

/-- Statements without a return at their top level are not left by one. -/
theorem executeAll_leftBy
    {program : List Stmt}
    (without : Stmt.anyHasReturn program = false)
    (fuel : Nat) :
    LeftBy false (executeAll fuel program) := by
  refine LeftBy.forM fun statement member => LeftBy.mono ?_ ((LeftBy.everything fuel).2.1 _)
  rw [← without]
  exact Stmt.anyHasReturn_of_mem member

/-- A program without a return at its top level runs like its statements. -/
theorem interpret_eq_executeAll
    {program : List Stmt}
    (without : Stmt.anyHasReturn program = false)
    (fuel : Nat)
    (state : State) :
    interpret fuel program state = executeAll fuel program state := by
  unfold interpret
  split
  next ended =>
    exact absurd (executeAll_leftBy without fuel _ _ _ ended) Bool.false_ne_true
  · rfl

/-- A program without a return at its top level is not left by one. -/
theorem interpret_leftBy
    {program : List Stmt}
    (without : Stmt.anyHasReturn program = false)
    (fuel : Nat) :
    LeftBy false (interpret fuel program) := by
  intro state exit final stopped
  rw [interpret_eq_executeAll without] at stopped
  exact executeAll_leftBy without fuel state exit final stopped

/--
No expression and no call is ever left by a return, in any state and with any scope
distances: without a value, a run of it stops at a runtime error or at the panic of a
`super`, or it does not end with the fuel it has.  And a program that a resolver accepts
outside of all functions never stops at a stray return, whatever its returns are nested in.
-/
theorem returns_end_at_calls (fuel : Nat) (state : State) :
    (∀ value exit final,
      evaluate fuel value state = .error exit final →
        (∃ error, exit = .error error) ∨ exit.IsPanic ∨ exit = .exhausted) ∧
    (∀ callee arguments exit final,
      call fuel callee arguments state = .error exit final →
        (∃ error, exit = .error error) ∨ exit.IsPanic ∨ exit = .exhausted) ∧
    ∀ (resolver : Scoping.Resolver) (program : List Stmt),
      resolver.scopes = [] → resolver.functionRole = none →
      (resolver.resolve program).1.verdict = .ok () →
      ∀ error final, interpret fuel program state = .error (.error error) final →
        error.summary ≠ "Can't return from top-level code." := by
  obtain ⟨expressions, -, calls⟩ := LeftBy.everything fuel
  refine ⟨?_, ?_, ?_⟩
  · intro value exit final stopped
    exact (expressions value state exit final stopped).without_return
  · intro callee arguments exit final stopped
    exact (calls callee arguments state exit final stopped).without_return
  · intro resolver program outermost outside accepted error final stopped same
    have without := Scoping.anyHasReturn_of_verdict outermost outside accepted
    have permitted := interpret_leftBy without fuel state _ final stopped
    have stray := isStrayReturn_of_summary same
    exact Bool.false_ne_true (permitted.symm.trans stray)

/-- `fun f() { while (true) { return; } }` is accepted, and no run of it stops at its return. -/
theorem returns_end_at_calls_loop :
    let body : List Stmt := [.loop (.literal (.bool true)) (.block [.returnValue 1 none])]
    let program : List Stmt :=
      [.functionDeclaration (.intro ⟨"f", 1⟩ [] body),
        .expression (.call (.reference ⟨0, ⟨"f", 1⟩⟩) [] 1)]
    (Scoping.resolve program).verdict = .ok () ∧
      ∀ fuel state error final,
        interpret fuel program state = .error (.error error) final →
          error.summary ≠ "Can't return from top-level code." := by
  intro body program
  have accepted : (Scoping.resolve program).verdict = .ok () := rfl
  refine ⟨accepted, fun fuel state => ?_⟩
  exact (returns_end_at_calls fuel state).2.2 .initial program rfl rfl accepted

end Lox.Execution
