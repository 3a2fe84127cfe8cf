import Lox.Proofs.Execution.LockstepSteps

namespace Lox.Execution

/-!
# Whole runs in lockstep

Twin programs that are run from twin states end in the same way, after the same
output.  The induction is on fuel, of which both runs use the same amount.
-/

variable {pairing : Pairing} {fuel : Nat}

/-- Twin expressions are in lockstep, with some fuel. -/
def ExpressionsLockstep (pairing : Pairing) (fuel : Nat) : Prop :=
  ∀ {labels levels : List Label} {initializing : Option String} {value value' : Expr}
    {left right : State},
    StateTwins pairing labels left right →
    Layered pairing labels left.heap left.scope levels →
    ExprTwins pairing levels initializing value value' →
    Lockstep pairing labels (evaluate fuel value) left (evaluate fuel value') right Same

/-- Twin statements are in lockstep, with some fuel. -/
def StatementsLockstep (pairing : Pairing) (fuel : Nat) : Prop :=
  ∀ {labels levels : List Label} {statement statement' : Stmt} {left right : State},
    StateTwins pairing labels left right →
    Layered pairing labels left.heap left.scope levels →
    StmtTwins pairing levels statement statement' →
    Lockstep pairing labels (execute fuel statement) left (execute fuel statement') right
      (fun _ _ _ _ => True)

/-- Calls of twin callees with the same arguments are in lockstep, with some fuel. -/
def CallsLockstep (pairing : Pairing) (fuel : Nat) : Prop :=
  ∀ {labels : List Label} {callee callee' : Callee} {left right : State},
    StateTwins pairing labels left right →
    CalleeTwins pairing labels left.heap callee callee' →
    ∀ arguments,
      Lockstep pairing labels (call fuel callee arguments) left
        (call fuel callee' arguments) right Same

section

variable {labels levels : List Label} {initializing : Option String} {left right : State}

/-! ## Expressions -/

/-- Expressions in a row give the same values in both runs. -/
theorem arguments_lockstep
    (expressions : ExpressionsLockstep pairing fuel)
    {values values' : List Expr}
    (twins : StateTwins pairing labels left right)
    (layered : Layered pairing labels left.heap left.scope levels)
    (same : List.Forall₂ (ExprTwins pairing levels initializing) values values') :
    Lockstep pairing labels (values.mapM (evaluate fuel)) left
      (values'.mapM (evaluate fuel)) right Same := by
  induction same generalizing labels left right with
  | nil => exact .pure twins rfl
  | cons first _ inductionHypothesis =>
      rw [List.mapM_cons, List.mapM_cons]
      refine (expressions twins layered first).bind ?_
      rintro value _ middle state state' onward rfl
      refine (inductionHypothesis onward.twins (onward.layered layered)).bind ?_
      rintro values _ later after after' further rfl
      exact .pure further.twins rfl

/-- Both runs evaluate the operands, and then the operation. -/
theorem binary_lockstep
    (expressions : ExpressionsLockstep pairing fuel)
    {operator : BinaryOperator}
    {line line' : Nat}
    {first first' second second' : Expr}
    (twins : StateTwins pairing labels left right)
    (layered : Layered pairing labels left.heap left.scope levels)
    (lines : pairing.lines line line')
    (sameFirst : ExprTwins pairing levels initializing first first')
    (sameSecond : ExprTwins pairing levels initializing second second') :
    Lockstep pairing labels (evaluate (fuel + 1) (.binary operator line first second)) left
      (evaluate (fuel + 1) (.binary operator line' first' second')) right Same := by
  refine (expressions twins layered sameFirst).bind ?_
  rintro value _ middle state state' onward rfl
  refine (expressions onward.twins (onward.layered layered) sameSecond).bind ?_
  rintro other _ later after after' further rfl
  exact applyBinary_lockstep further.twins lines operator value other

/-- Both runs leave out the second operand, or neither does. -/
theorem logical_lockstep
    (expressions : ExpressionsLockstep pairing fuel)
    {operator : LogicalOperator}
    {first first' second second' : Expr}
    (twins : StateTwins pairing labels left right)
    (layered : Layered pairing labels left.heap left.scope levels)
    (sameFirst : ExprTwins pairing levels initializing first first')
    (sameSecond : ExprTwins pairing levels initializing second second') :
    Lockstep pairing labels (evaluate (fuel + 1) (.logical operator first second)) left
      (evaluate (fuel + 1) (.logical operator first' second')) right Same := by
  refine (expressions twins layered sameFirst).bind ?_
  rintro value _ middle state state' onward rfl
  split
  · exact .pure onward.twins rfl
  · exact expressions onward.twins (onward.layered layered) sameSecond

/-- Both runs assign the same value to scopes that stand for each other. -/
theorem assign_lockstep
    (expressions : ExpressionsLockstep pairing fuel)
    {target target' : Reference}
    {value value' : Expr}
    (twins : StateTwins pairing labels left right)
    (layered : Layered pairing labels left.heap left.scope levels)
    (sameValue : ExprTwins pairing levels initializing value value')
    (sameTarget : ReferenceTwins pairing levels target target') :
    Lockstep pairing labels (evaluate (fuel + 1) (.assign target value)) left
      (evaluate (fuel + 1) (.assign target' value')) right Same := by
  refine (expressions twins layered sameValue).bind ?_
  rintro assigned _ middle state state' onward rfl
  refine (assignTo_lockstep onward.twins (onward.layered layered) sameTarget assigned).bind ?_
  rintro _ _ later after after' further -
  exact .pure further.twins rfl

/-- Both runs call the same value, with the same arguments. -/
theorem callExpression_lockstep
    (expressions : ExpressionsLockstep pairing fuel)
    (calls : CallsLockstep pairing fuel)
    {callee callee' : Expr}
    {arguments arguments' : List Expr}
    {line line' : Nat}
    (twins : StateTwins pairing labels left right)
    (layered : Layered pairing labels left.heap left.scope levels)
    (lines : pairing.lines line line')
    (sameCallee : ExprTwins pairing levels initializing callee callee')
    (sameArguments :
      List.Forall₂ (ExprTwins pairing levels initializing) arguments arguments') :
    Lockstep pairing labels (evaluate (fuel + 1) (.call callee arguments line)) left
      (evaluate (fuel + 1) (.call callee' arguments' line')) right Same := by
  refine (expressions twins layered sameCallee).bind ?_
  rintro subject _ middle state state' onward rfl
  refine (arguments_lockstep expressions onward.twins (onward.layered layered)
    sameArguments).bind ?_
  rintro values _ later after after' further rfl
  refine (calleeFor_lockstep further.twins lines subject values.length).bind ?_
  rintro found found' last final final' rest callees
  exact calls rest.twins callees values

/-- Both runs set the same field to the same value. -/
theorem setProperty_lockstep
    (expressions : ExpressionsLockstep pairing fuel)
    {object object' value value' : Expr}
    {name name' : Identifier}
    (twins : StateTwins pairing labels left right)
    (layered : Layered pairing labels left.heap left.scope levels)
    (sameObject : ExprTwins pairing levels initializing object object')
    (sameName : name.text = name'.text)
    (reports : pairing.Reports name name')
    (sameValue : ExprTwins pairing levels initializing value value') :
    Lockstep pairing labels (evaluate (fuel + 1) (.setProperty object name value)) left
      (evaluate (fuel + 1) (.setProperty object' name' value')) right Same := by
  refine (expressions twins layered sameObject).bind ?_
  rintro found _ first state state' onward rfl
  have atObject := onward.layered layered
  refine (fieldOwner_lockstep onward.twins reports found).bind ?_
  rintro owner _ second middle middle' further rfl
  have atOwner := further.layered atObject
  refine (expressions further.twins atOwner sameValue).bind ?_
  rintro assigned _ third after after' rest rfl
  rw [← sameName]
  refine (writeField_lockstep rest.twins owner name.text assigned).bind ?_
  rintro _ _ last final final' finally' -
  exact .pure finally'.twins rfl

/-- Twin expressions are in lockstep if everything with less fuel is. -/
theorem expressions_lockstep
    (expressions : ExpressionsLockstep pairing fuel)
    (calls : CallsLockstep pairing fuel) :
    ExpressionsLockstep pairing (fuel + 1) := by
  intro labels levels initializing value value' left right twins layered same
  cases same with
  | literal => exact .pure twins rfl
  | grouping inner => exact expressions twins layered inner
  | unary lines operand =>
      refine (expressions twins layered operand).bind ?_
      rintro found _ later after after' onward rfl
      exact applyUnary_lockstep onward.twins lines _ found
  | binary lines first second => exact binary_lockstep expressions twins layered lines first second
  | logical first second => exact logical_lockstep expressions twins layered first second
  | reference occurrences _ => exact lookUp_lockstep twins layered occurrences
  | assign value target _ => exact assign_lockstep expressions twins layered value target
  | call lines callee arguments =>
      exact callExpression_lockstep expressions calls twins layered lines callee arguments
  | property object sameName reports =>
      refine (expressions twins layered object).bind ?_
      rintro found _ later after after' onward rfl
      exact propertyOf_lockstep onward.twins sameName reports found
  | setProperty object sameName reports value =>
      exact setProperty_lockstep expressions twins layered object sameName reports value
  | this occurrences _ => exact lookUp_lockstep twins layered occurrences
  | super occurrences _ keyword sameName reports =>
      exact superMethod_lockstep twins layered occurrences keyword sameName reports

/-! ## Statements -/

/-- Both runs go through corresponding statements. -/
theorem body_lockstep
    (statements : StatementsLockstep pairing fuel)
    {body body' : List Stmt}
    (twins : StateTwins pairing labels left right)
    (layered : Layered pairing labels left.heap left.scope levels)
    (same : BodyTwins pairing levels body body') :
    Lockstep pairing labels (body.forM (execute fuel)) left (body'.forM (execute fuel)) right
      (fun _ _ _ _ => True) := by
  induction body generalizing body' labels left right with
  | nil =>
      cases same
      exact .pure twins trivial
  | cons first rest inductionHypothesis =>
      cases same with
      | cons sameFirst sameRest =>
          refine (statements twins layered sameFirst).bind ?_
          rintro _ _ later after after' onward -
          exact inductionHypothesis onward.twins (onward.layered layered) sameRest

/-- Both runs go through a block, in scopes with one label. -/
theorem block_lockstep
    (statements : StatementsLockstep pairing fuel)
    {label : Label}
    {body body' : List Stmt}
    (twins : StateTwins pairing labels left right)
    (layered : Layered pairing labels left.heap left.scope levels)
    (same : BodyTwins pairing (label :: levels) body body') :
    Lockstep pairing labels (execute (fuel + 1) (.block body)) left
      (execute (fuel + 1) (.block body')) right (fun _ _ _ _ => True) := by
  refine .get ?_
  unfold inNewScope
  rw [← twins.scope]
  refine (newScope_lockstep twins layered (.empty label)).bind ?_
  rintro scope _ later after after' onward ⟨rfl, inside⟩
  have entered : StateTwins pairing later { after with scope := scope }
      { after' with scope := scope } :=
    { onward.twins with scope := rfl }
  exact .within onward.twins (body_lockstep statements entered inside same)

/-- Both runs go through the same side of a condition. -/
theorem alternative_lockstep
    (expressions : ExpressionsLockstep pairing fuel)
    (statements : StatementsLockstep pairing fuel)
    {condition condition' : Expr}
    {consequent consequent' : Stmt}
    {alternative alternative' : Option Stmt}
    (twins : StateTwins pairing labels left right)
    (layered : Layered pairing labels left.heap left.scope levels)
    (sameCondition : ExprTwins pairing levels none condition condition')
    (sameConsequent : StmtTwins pairing levels consequent consequent')
    (sameAlternative : Option.Rel (StmtTwins pairing levels) alternative alternative') :
    Lockstep pairing labels
      (execute (fuel + 1) (.branch condition consequent alternative)) left
      (execute (fuel + 1) (.branch condition' consequent' alternative')) right
      (fun _ _ _ _ => True) := by
  refine (expressions twins layered sameCondition).bind ?_
  rintro found _ later after after' onward rfl
  have reached := onward.layered layered
  split
  · exact statements onward.twins reached sameConsequent
  · cases sameAlternative with
    | none => exact .pure onward.twins trivial
    | some same => exact statements onward.twins reached same

/-- Both runs go round a loop equally often. -/
theorem loop_lockstep
    (expressions : ExpressionsLockstep pairing fuel)
    (statements : StatementsLockstep pairing fuel)
    {condition condition' : Expr}
    {body body' : Stmt}
    (twins : StateTwins pairing labels left right)
    (layered : Layered pairing labels left.heap left.scope levels)
    (sameCondition : ExprTwins pairing levels none condition condition')
    (sameBody : StmtTwins pairing levels body body') :
    Lockstep pairing labels (execute (fuel + 1) (.loop condition body)) left
      (execute (fuel + 1) (.loop condition' body')) right (fun _ _ _ _ => True) := by
  refine (expressions twins layered sameCondition).bind ?_
  rintro found _ middle state state' onward rfl
  have reached := onward.layered layered
  split
  · refine (statements onward.twins reached sameBody).bind ?_
    rintro _ _ later after after' further -
    -- Another round is the same loop with less fuel.
    exact statements further.twins (further.layered reached) (.loop sameCondition sameBody)
  · exact .pure onward.twins trivial

/-- Twin statements are in lockstep if everything with less fuel is. -/
theorem statements_lockstep
    (expressions : ExpressionsLockstep pairing fuel)
    (statements : StatementsLockstep pairing fuel) :
    StatementsLockstep pairing (fuel + 1) := by
  intro labels levels statement statement' left right twins layered same
  cases same with
  | expression value => exact (expressions twins layered value).map fun _ _ _ _ _ => trivial
  | print value =>
      refine (expressions twins layered value).bind ?_
      rintro found _ later after after' onward rfl
      exact printValue_lockstep onward.twins found
  | uninitialized declares => exact defineHere_lockstep twins layered declares .nil
  | initialized declares value =>
      refine (expressions twins layered value).bind ?_
      rintro found _ later after after' onward rfl
      exact defineHere_lockstep onward.twins (onward.layered layered) declares found
  | block body => exact block_lockstep statements twins layered body
  | conditional condition consequent =>
      exact alternative_lockstep expressions statements twins layered condition consequent .none
  | alternative condition consequent alternative =>
      exact alternative_lockstep expressions statements twins layered condition consequent
        (.some alternative)
  | loop condition body => exact loop_lockstep expressions statements twins layered condition body
  | functionDeclaration declares function =>
      exact declareFunction_lockstep twins layered declares function
  | returnNothing lines => exact .throw twins ⟨lines, rfl⟩
  | returnValue lines value =>
      refine (expressions twins layered value).bind ?_
      rintro found _ later after after' onward rfl
      exact .throw onward.twins ⟨lines, rfl⟩
  | baseClass sameName declares methods =>
      exact declareBaseClass_lockstep twins layered sameName declares methods
  | subclass sameName declares inherits _ methods =>
      exact declareSubclass_lockstep twins layered sameName declares inherits methods

/-! ## Calls -/

/-- Both runs call corresponding functions, in scopes with one label. -/
theorem function_lockstep
    (statements : StatementsLockstep pairing fuel)
    {function function' : Function}
    (twins : StateTwins pairing labels left right)
    (functions : ClosureTwins pairing labels left.heap function function')
    (arguments : List Value) :
    Lockstep pairing labels (call (fuel + 1) (.function function) arguments) left
      (call (fuel + 1) (.function function') arguments) right Same := by
  obtain ⟨inside, bodies, activated⟩ := activate_lockstep twins functions arguments
  refine activated.bind ?_
  rintro scope _ middle state state' onward ⟨rfl, layered⟩
  have entered : StateTwins pairing middle { state with scope := scope }
      { state' with scope := scope } :=
    { onward.twins with scope := rfl }
  have run := body_lockstep statements entered layered bodies
  refine (Lockstep.within onward.twins run).returning.bind ?_
  rintro result _ later after after' further rfl
  have grown := functions.grows (onward.trans further).longer (onward.trans further).evolves.grows
  exact callResult_lockstep further.twins grown result

/-- Both runs make an instance of one class, and call its initializer if it has one. -/
theorem class_lockstep
    (calls : CallsLockstep pairing fuel)
    (twins : StateTwins pairing labels left right)
    (classId : ClassId)
    (arguments : List Value) :
    Lockstep pairing labels (call (fuel + 1) (.classObject classId) arguments) left
      (call (fuel + 1) (.classObject classId) arguments) right Same := by
  refine (newInstance_lockstep twins classId).bind ?_
  rintro object _ first state state' onward rfl
  refine .get ?_
  obtain ⟨none, none'⟩ | ⟨method, method', known, known', methods⟩ :=
    eq_none_or_some_of_rel (onward.twins.heap.findMethod? classId constructorName)
  · rw [none, none']
    exact .pure onward.twins rfl
  · rw [known, known']
    refine (bindMethod_lockstep onward.twins methods object).bind ?_
    rintro bound bound' middle reached reached' further functions
    have constructed : Lockstep pairing middle
        (discard (call fuel (.function bound) arguments)) reached
        (discard (call fuel (.function bound') arguments)) reached' (fun _ _ _ _ => True) :=
      (calls further.twins (.function functions) arguments).map fun _ _ _ _ _ => trivial
    refine constructed.bind ?_
    rintro _ _ later after after' rest -
    exact .pure rest.twins rfl

/-- Calls are in lockstep if everything with less fuel is. -/
theorem calls_lockstep
    (statements : StatementsLockstep pairing fuel)
    (calls : CallsLockstep pairing fuel) :
    CallsLockstep pairing (fuel + 1) := by
  intro labels callee callee' left right twins same arguments
  cases same with
  | native => exact readClock_lockstep twins
  | function functions => exact function_lockstep statements twins functions arguments
  | classObject => exact class_lockstep calls twins _ arguments

end

/-- Whatever twin programs run from twin states is in lockstep, with any fuel. -/
theorem everything_lockstep (pairing : Pairing) (fuel : Nat) :
    ExpressionsLockstep pairing fuel ∧
      StatementsLockstep pairing fuel ∧
      CallsLockstep pairing fuel := by
  induction fuel with
  | zero =>
      exact ⟨fun twins _ _ => .throw twins trivial, fun twins _ _ => .throw twins trivial,
        fun twins _ _ => .throw twins trivial⟩
  | succ fuel inductionHypothesis =>
      obtain ⟨expressions, statements, calls⟩ := inductionHypothesis
      exact ⟨expressions_lockstep expressions calls,
        statements_lockstep expressions statements, calls_lockstep statements calls⟩

/-! ## Programs -/

/-- A program that runs through ends as its statements do. -/
theorem interpret_of_ok
    {program : List Stmt}
    {state final : State}
    {value : PUnit}
    (given : program.forM (execute fuel) state = .ok value final) :
    interpret fuel program state = .ok value final := by
  simp [interpret, executeAll, given]

/-- A program that is left by a return ends with an error. -/
theorem interpret_of_returned
    {program : List Stmt}
    {state final : State}
    {line : Nat}
    {value : Value}
    (stopped : program.forM (execute fuel) state = .error (.returned line value) final) :
    interpret fuel program state =
      .error (.error (.typeFault (.returnOutsideFunction line))) final := by
  simp [interpret, executeAll, stopped]

/-- A program that stops otherwise stops as its statements do. -/
theorem interpret_of_error
    {program : List Stmt}
    {state final : State}
    {exit : Exit}
    (stopped : program.forM (execute fuel) state = .error exit final)
    (other : ∀ line value, exit ≠ .returned line value) :
    interpret fuel program state = .error exit final := by
  cases exit with
  | returned line value => exact absurd rfl (other line value)
  | _ => simp [interpret, executeAll, stopped]

/-- Twin programs end in the same way, also where a return stops both of them. -/
theorem interpret_lockstep
    {labels levels : List Label}
    {program program' : List Stmt}
    {left right : State}
    (fuel : Nat)
    (twins : StateTwins pairing labels left right)
    (layered : Layered pairing labels left.heap left.scope levels)
    (same : BodyTwins pairing levels program program') :
    Lockstep pairing labels (interpret fuel program) left (interpret fuel program') right
      (fun _ _ _ _ => True) := by
  have run := body_lockstep (everything_lockstep pairing fuel).2.1 twins layered same
  cases given : program.forM (execute fuel) left with
  | ok value after =>
      obtain ⟨later, value', after', given', onward, -⟩ := run.ok given
      exact .of_ok (interpret_of_ok given) (interpret_of_ok given') onward trivial
  | error exit after =>
      obtain ⟨later, exit', after', given', onward, alike⟩ := run.error given
      cases exit with
      | returned line value =>
          cases exit' with
          | returned line' value' =>
              exact .of_error (interpret_of_returned given) (interpret_of_returned given') onward
                alike.1
          | _ => exact alike.elim
      | _ =>
          cases exit' with
          | returned line' value' => exact alike.elim
          | _ =>
              exact .of_error (interpret_of_error given (by simp))
                (interpret_of_error given' (by simp)) onward alike

end Lox.Execution
