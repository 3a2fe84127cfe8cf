import Lox.Proofs.Execution.Declarations

namespace Lox.Execution

open Scoping

/-!
# A run keeps its scopes in step with the program

Whatever part of a program is run from a covered place ends, if at all, in a
coherent heap, and a statement ends at the place behind it.  The induction is on
fuel: every part is run with less of it, a body as well as another round of a
loop, and a function runs from the place where it was declared.
-/

/--
A part of a program is ready to run at a place: the current scope covers the place,
and the sites of the part are settled.
-/
structure Ready
    (resolved : Settlement → Prop)
    (place : Place)
    (initializing : Option String)
    (sites : List Site)
    (state : State) :
    Prop where
  coherent : Coherent state.distances resolved state.heap
  covers : Covers state.heap state.scope place initializing
  settled : AllSettled state.distances resolved sites
  legible : initializing ≠ some receiverName ∧ initializing ≠ some superclassName

namespace Ready

variable {resolved : Settlement → Prop} {place : Place} {initializing : Option String}
  {sites others : List Site} {state after : State}

theorem left
    (ready : Ready resolved place initializing (sites ++ others) state) :
    Ready resolved place initializing sites state :=
  { ready with
    settled := fun site member => ready.settled site (List.mem_append_left _ member) }

theorem right
    (ready : Ready resolved place initializing (sites ++ others) state) :
    Ready resolved place initializing others state :=
  { ready with
    settled := fun site member => ready.settled site (List.mem_append_right _ member) }

theorem later
    (ready : Ready resolved place initializing sites state)
    (evolves : Evolves state after)
    (coherent : Coherent after.distances resolved after.heap) :
    Ready resolved place initializing sites after where
  coherent := coherent
  covers := evolves.covers ready.covers
  settled := evolves.settled ready.settled
  legible := ready.legible

end Ready

/-- Every expression keeps the scopes, with some fuel. -/
def ExpressionsKeep (resolved : Settlement → Prop) (fuel : Nat) : Prop :=
  ∀ {value : Expr} {place : Place} {initializing : Option String} {state : State},
    value.Proper →
    Ready resolved place initializing (value.sites place initializing) state →
    Keeps resolved (evaluate fuel value) state (fun _ _ => True)
      (MayStop (.expression fuel value) state)

/-- Every statement keeps the scopes, with some fuel, and ends behind itself. -/
def StatementsKeep (resolved : Settlement → Prop) (fuel : Nat) : Prop :=
  ∀ {statement : Stmt} {place : Place} {state : State},
    statement.Proper →
    Ready resolved place none (statement.sites place) state →
    Keeps resolved (execute fuel statement) state
      (fun _ after =>
        Covers after.heap after.scope (place.declaring statement.declared) none)
      (MayStop (.statement fuel statement) state)

/-- Every call keeps the scopes, with some fuel. -/
def CallsKeep (resolved : Settlement → Prop) (fuel : Nat) : Prop :=
  ∀ {callee : Callee} {arguments : List Value} {state : State},
    Coherent state.distances resolved state.heap →
    LiveCallee state.distances resolved state.heap arguments.length callee →
    Keeps resolved (call fuel callee arguments) state (fun _ _ => True)
      (MayStop (.call fuel callee arguments) state)

/-- A step of a task that another task takes. -/
theorem Keeps.starting
    {α : Type}
    {resolved : Settlement → Prop}
    {step : Eval α}
    {state origin : State}
    {good : α → State → Prop}
    {task first : Task}
    (starts : Starts task origin first state)
    (keeps : Keeps resolved step state good (MayStop first state)) :
    Keeps resolved step state good (MayStop task origin) :=
  keeps.weaken (fun _ _ _ fine => fine) fun _ stops => .of_starts starts stops

section

variable {resolved : Settlement → Prop} {fuel : Nat} {place : Place} {initializing : Option String}
  {state : State} {distances : Distances}

/-! ## Occurrences -/

/-- A local variable that may be read is not the one being initialized. -/
theorem initialized_of_reads
    {occurrence : Reference}
    (settled : Settled distances resolved ⟨place, initializing, .reads occurrence⟩)
    (within : place.scopes ≠ []) :
    initializing ≠ some occurrence.name.text := by
  intro same
  have faultless := settled.faultless
  simp [Site.fault?, same, within] at faultless

/-- Where `this` may be read, it has a distance. -/
theorem depth?_of_this
    {id : NodeId}
    {line : Nat}
    (settled : Settled distances resolved ⟨place, initializing, .this id line⟩) :
    ∃ depth, distances.get? id = some depth ∧ place.depth? receiverName = some depth := by
  obtain ⟨depth, known⟩ := settled.sound.receiver (inClass_of_faultless settled.faultless)
  exact ⟨depth, (settled.recorded id receiverName rfl).2.trans known, known⟩

variable (fuel) in
/-- A read variable keeps the scopes, and is found unless it is global. -/
theorem reference_keeps
    {occurrence : Reference}
    (ready : Ready resolved place initializing
      ((Expr.reference occurrence).sites place initializing) state) :
    Keeps resolved (lookUp occurrence.id occurrence.name) state (fun _ _ => True)
      (MayStop (.expression (fuel + 1) (.reference occurrence)) state) := by
  have settled := ready.settled _ (List.mem_singleton.mpr rfl)
  refine lookUp_keeps ready.coherent ready.covers (settled.recorded _ _ rfl).2
    (initialized_of_reads settled) ?_
  exact fun unknown => .of_global ⟨_, rfl, rfl, unknown⟩

/-- A read instance keeps the scopes, and is always found. -/
theorem this_keeps
    {id : NodeId}
    {line : Nat}
    (ready : Ready resolved place initializing
      ((Expr.this id line).sites place initializing) state) :
    Keeps resolved (lookUp id ⟨receiverName, line⟩) state (fun _ _ => True)
      (MayStop (.expression (fuel + 1) (.this id line)) state) := by
  have settled := ready.settled _ (List.mem_singleton.mpr rfl)
  obtain ⟨depth, known, -⟩ := depth?_of_this settled
  refine lookUp_keeps ready.coherent ready.covers (settled.recorded _ _ rfl).2
    (fun _ => ready.legible.1) ?_
  exact fun unknown => absurd (known.symm.trans unknown) (by simp)

/-- An assignment keeps the scopes, and has a scope unless it is global. -/
theorem assign_keeps
    (expressions : ExpressionsKeep resolved fuel)
    {target : Reference}
    {value : Expr}
    (proper : (Expr.assign target value).Proper)
    (ready : Ready resolved place initializing
      ((Expr.assign target value).sites place initializing) state) :
    Keeps resolved (evaluate (fuel + 1) (.assign target value)) state (fun _ _ => True)
      (MayStop (.expression (fuel + 1) (.assign target value)) state) := by
  refine ((expressions proper.2 ready.left).starting .assigned).bind ?_
  intro assigned middle _ evolves coherent _
  have written := ready.right.later evolves coherent
  have recorded :=
    ((written.settled _ (List.mem_singleton.mpr rfl)).recorded _ _ rfl).2
  refine (assignTo_keeps assigned coherent written.covers recorded proper.1 ?_).bind ?_
  · intro unknown
    exact .of_global ⟨_, rfl, rfl, evolves.distances ▸ unknown⟩
  · intro _ after _ _ coherentAfter _
    exact .pure coherentAfter trivial

/-! ## Expressions -/

/-- Arguments keep the scopes one after another. -/
theorem arguments_keep
    (expressions : ExpressionsKeep resolved fuel)
    {values : List Expr}
    (proper : Expr.AllProper values)
    (ready : Ready resolved place initializing
      (Expr.sitesOfAll place initializing values) state) :
    Keeps resolved (values.mapM (evaluate fuel)) state (fun _ _ => True)
      (MayStop (.arguments fuel values) state) := by
  induction values generalizing state with
  | nil => exact .pure ready.coherent trivial
  | cons first rest inductionHypothesis =>
      rw [List.mapM_cons]
      have head := expressions proper.1 ready.left
      refine (head.starting .firstArgument).bind ?_
      intro value middle given evolves coherent _
      have tail := inductionHypothesis proper.2
        (ready.right.later evolves coherent)
      refine (tail.starting (.otherArguments given)).bind ?_
      intro values after _ _ coherentAfter _
      exact .pure coherentAfter trivial

/-- An operand before the other keeps the scopes, and so does what they give. -/
theorem binary_keeps
    (expressions : ExpressionsKeep resolved fuel)
    {operator : BinaryOperator}
    {line : Nat}
    {left right : Expr}
    (proper : (Expr.binary operator line left right).Proper)
    (ready : Ready resolved place initializing
      ((Expr.binary operator line left right).sites place initializing) state) :
    Keeps resolved (evaluate (fuel + 1) (.binary operator line left right)) state
      (fun _ _ => True)
      (MayStop (.expression (fuel + 1) (.binary operator line left right)) state) := by
  have first := expressions proper.1 ready.left
  refine (first.starting .leftOperand).bind ?_
  intro leftValue middle given evolves coherent _
  have second := expressions proper.2
    (ready.right.later evolves coherent)
  refine (second.starting (.rightOperand given)).bind ?_
  intro rightValue after _ _ coherentAfter _
  exact applyBinary_keeps coherentAfter operator line leftValue rightValue

/-- A condition keeps the scopes, and so does the other one if it is needed. -/
theorem logical_keeps
    (expressions : ExpressionsKeep resolved fuel)
    {operator : LogicalOperator}
    {left right : Expr}
    (proper : (Expr.logical operator left right).Proper)
    (ready : Ready resolved place initializing
      ((Expr.logical operator left right).sites place initializing) state) :
    Keeps resolved (evaluate (fuel + 1) (.logical operator left right)) state
      (fun _ _ => True)
      (MayStop (.expression (fuel + 1) (.logical operator left right)) state) := by
  have first := expressions proper.1 ready.left
  refine (first.starting .leftCondition).bind ?_
  intro value middle given evolves coherent _
  cases settled : isSettledBy operator value with
  | true => exact .pure coherent trivial
  | false =>
      have second := expressions proper.2
        (ready.right.later evolves coherent)
      exact second.starting (.rightCondition given settled)

/-- A callee and its arguments keep the scopes, and so does the call of them. -/
theorem callExpression_keeps
    (expressions : ExpressionsKeep resolved fuel)
    (calls : CallsKeep resolved fuel)
    {callee : Expr}
    {arguments : List Expr}
    {line : Nat}
    (proper : (Expr.call callee arguments line).Proper)
    (ready : Ready resolved place initializing
      ((Expr.call callee arguments line).sites place initializing) state) :
    Keeps resolved (evaluate (fuel + 1) (.call callee arguments line)) state
      (fun _ _ => True)
      (MayStop (.expression (fuel + 1) (.call callee arguments line)) state) := by
  have subject := expressions proper.1 ready.left
  refine (subject.starting .callee).bind ?_
  intro value first givenSubject evolves coherent _
  have evaluated := arguments_keep expressions proper.2
    (ready.right.later evolves coherent)
  refine (evaluated.starting (.arguments givenSubject)).bind ?_
  intro values second givenValues _ coherentSecond _
  refine (calleeFor_keeps coherentSecond value values.length line).bind ?_
  intro found third givenCallee _ coherentThird live
  exact (calls coherentThird live).starting (.call givenSubject givenValues givenCallee)

/-- An object and the value of its field keep the scopes. -/
theorem setProperty_keeps
    (expressions : ExpressionsKeep resolved fuel)
    {object value : Expr}
    {name : Identifier}
    (proper : (Expr.setProperty object name value).Proper)
    (ready : Ready resolved place initializing
      ((Expr.setProperty object name value).sites place initializing) state) :
    Keeps resolved (evaluate (fuel + 1) (.setProperty object name value)) state
      (fun _ _ => True)
      (MayStop (.expression (fuel + 1) (.setProperty object name value)) state) := by
  have subject := expressions proper.1 ready.right
  refine (subject.starting .owner).bind ?_
  intro found first givenObject evolves coherent _
  refine (fieldOwner_keeps coherent found name).bind ?_
  intro owner second givenOwner evolvesSecond coherentSecond _
  have assigned := expressions proper.2
    (ready.left.later
      (evolves.trans evolvesSecond) coherentSecond)
  refine (assigned.starting (.field givenObject givenOwner)).bind ?_
  intro written third _ _ coherentThird _
  refine (writeField_keeps coherentThird owner name.text written).bind ?_
  intro _ fourth _ _ coherentFourth _
  exact .pure coherentFourth trivial

/-- Every expression keeps the scopes if those with less fuel do. -/
theorem expressions_keep
    (expressions : ExpressionsKeep resolved fuel)
    (calls : CallsKeep resolved fuel) :
    ExpressionsKeep resolved (fuel + 1) := by
  intro value place initializing state proper ready
  cases value with
  | literal _ => exact .pure ready.coherent trivial
  | grouping inner =>
      have inside : inner.Proper := proper
      exact (expressions inside ready).starting .grouping
  | unary operator line operand =>
      have inside : operand.Proper := proper
      refine ((expressions inside ready).starting .operand).bind ?_
      intro operandValue after _ _ coherentAfter _
      exact applyUnary_keeps coherentAfter operator line operandValue
  | binary _ _ _ _ => exact binary_keeps expressions proper ready
  | logical _ _ _ => exact logical_keeps expressions proper ready
  | reference _ => exact reference_keeps fuel ready
  | assign _ _ => exact assign_keeps expressions proper ready
  | call _ _ _ => exact callExpression_keeps expressions calls proper ready
  | property object name =>
      have inside : object.Proper := proper
      refine ((expressions inside ready).starting .object).bind ?_
      intro found after _ _ coherentAfter _
      exact propertyOf_keeps coherentAfter found name
  | setProperty _ _ _ => exact setProperty_keeps expressions proper ready
  | this _ _ => exact this_keeps ready
  | super _ _ method =>
      have settled := ready.settled _ (List.mem_singleton.mpr rfl)
      exact superMethod_keeps method ready.coherent ready.covers settled ready.legible

/-! ## Statements -/

/-- A step that declares nothing leaves the run at the place where it was. -/
theorem Keeps.declaring_none
    {α : Type}
    {step : Eval α}
    {allowed : Exit → Prop}
    {declared : List String}
    (keeps : Keeps resolved step state (fun _ _ => True) allowed)
    (covers : Covers state.heap state.scope place none)
    (nothing : declared = []) :
    Keeps resolved step state
      (fun _ after => Covers after.heap after.scope (place.declaring declared) none)
      allowed := by
  refine keeps.weaken (fun _ after evolves _ => ?_) fun _ fine => fine
  rw [nothing, Place.declaring_nil]
  exact evolves.covers covers

/-- Statements keep the scopes one after another. -/
theorem body_keeps
    (statements : StatementsKeep resolved fuel)
    {body : List Stmt}
    (proper : Stmt.AllProper body)
    (ready : Ready resolved place none (Stmt.sitesOfAll place body) state) :
    Keeps resolved (body.forM (execute fuel)) state (fun _ _ => True)
      (MayStop (.statements fuel body) state) := by
  induction body generalizing place state with
  | nil => exact .pure ready.coherent trivial
  | cons first rest inductionHypothesis =>
      have head := statements proper.1 ready.left
      refine (head.starting .firstStatement).bind ?_
      intro _ after given evolves coherent behind
      have next := ready.right.later evolves coherent
      -- The rest is at another place: its scopes have the names of the first statement.
      have tail := inductionHypothesis proper.2
        ⟨next.coherent, behind, next.settled, next.legible⟩
      exact tail.starting (.otherStatements given)

/-- The body of a block is ready in the scope that was made for it. -/
theorem block_ready
    {body : List Stmt}
    {scope : ScopeId}
    {after : State}
    (ready : Ready resolved place none ((Stmt.block body).sites place) state)
    (given : newScope Bindings.empty state.scope state = .ok scope after) :
    Ready resolved place.entering none (Stmt.sitesOfAll place.entering body)
      { after with scope := scope } := by
  have keeps : Keeps resolved (newScope Bindings.empty state.scope) state
      (fun scope after => Covers after.heap scope place.entering none)
      (fun _ => True) :=
    newBlockScope_keeps ready.coherent ready.covers
  obtain ⟨evolves, coherent, inside⟩ := keeps.ok given
  exact ⟨coherent, inside, evolves.settled ready.settled, ready.legible⟩

/-- A block keeps the scopes: its own one is left at its end. -/
theorem block_keeps
    (statements : StatementsKeep resolved fuel)
    {body : List Stmt}
    (proper : (Stmt.block body).Proper)
    (ready : Ready resolved place none ((Stmt.block body).sites place) state) :
    Keeps resolved (execute (fuel + 1) (.block body)) state
      (fun _ after => Covers after.heap after.scope (place.declaring []) none)
      (MayStop (.statement (fuel + 1) (.block body)) state) := by
  refine Keeps.declaring_none ?_ ready.covers rfl
  refine .get ((newBlockScope_keeps ready.coherent ready.covers).bind ?_)
  intro scope after given _ _ _
  have entered := block_ready ready given
  have run := (body_keeps statements proper entered).starting (.block given)
  exact run.within

/-- A branch without an alternative keeps the scopes. -/
theorem conditional_keeps
    (expressions : ExpressionsKeep resolved fuel)
    (statements : StatementsKeep resolved fuel)
    {condition : Expr}
    {consequent : Stmt}
    (proper : (Stmt.branch condition consequent none).Proper)
    (ready : Ready resolved place none
      ((Stmt.branch condition consequent none).sites place) state) :
    Keeps resolved (execute (fuel + 1) (.branch condition consequent none)) state
      (fun _ _ => True)
      (MayStop (.statement (fuel + 1) (.branch condition consequent none)) state) := by
  have test := expressions proper.1 ready.left
  refine (test.starting .condition).bind ?_
  intro found after given evolves coherent _
  cases truth : found.isTruthy with
  | true =>
      have chosen := statements proper.2.1 (ready.right.later evolves coherent)
      refine (chosen.starting (.consequent given truth)).weaken ?_ fun _ fine => fine
      exact fun _ _ _ _ => trivial
  | false => exact .pure coherent trivial

/-- A branch with an alternative keeps the scopes. -/
theorem alternative_keeps
    (expressions : ExpressionsKeep resolved fuel)
    (statements : StatementsKeep resolved fuel)
    {condition : Expr}
    {consequent alternative : Stmt}
    (proper : (Stmt.branch condition consequent (some alternative)).Proper)
    (ready : Ready resolved place none
      ((Stmt.branch condition consequent (some alternative)).sites place) state) :
    Keeps resolved (execute (fuel + 1) (.branch condition consequent (some alternative)))
      state (fun _ _ => True)
      (MayStop
        (.statement (fuel + 1) (.branch condition consequent (some alternative)))
        state) := by
  have test := expressions proper.1 ready.left
  refine (test.starting .condition).bind ?_
  intro found after given evolves coherent _
  cases truth : found.isTruthy with
  | true =>
      have chosen := statements proper.2.1.1 (ready.right.left.later evolves coherent)
      refine (chosen.starting (.consequent given truth)).weaken ?_ fun _ fine => fine
      exact fun _ _ _ _ => trivial
  | false =>
      have other := ready.right.right.later evolves coherent
      rw [proper.2.1.2, Place.declaring_nil] at other
      have chosen := statements proper.2.2.1 other
      refine (chosen.starting (.alternative given truth)).weaken ?_ fun _ fine => fine
      exact fun _ _ _ _ => trivial

/-- A loop keeps the scopes in every round. -/
theorem loop_keeps
    (expressions : ExpressionsKeep resolved fuel)
    (statements : StatementsKeep resolved fuel)
    {condition : Expr}
    {body : Stmt}
    (proper : (Stmt.loop condition body).Proper)
    (ready : Ready resolved place none ((Stmt.loop condition body).sites place) state) :
    Keeps resolved (execute (fuel + 1) (.loop condition body)) state (fun _ _ => True)
      (MayStop (.statement (fuel + 1) (.loop condition body)) state) := by
  have test := expressions proper.1 ready.left
  refine (test.starting .loopCondition).bind ?_
  intro found first given evolves coherent _
  cases truth : found.isTruthy with
  | true =>
      have round := statements proper.2.1 (ready.right.later evolves coherent)
      refine (round.starting (.round given truth)).bind ?_
      intro _ second givenRound evolvesRound coherentSecond _
      -- Another round is the same loop with less fuel, not a part of the loop.
      have again := statements proper
        (ready.later (evolves.trans evolvesRound) coherentSecond)
      refine (again.starting (.nextRound given truth givenRound)).weaken ?_
        fun _ fine => fine
      exact fun _ _ _ _ => trivial
  | false => exact .pure coherent trivial

/-- An initializer is ready behind the declaration of its variable. -/
theorem initializer_ready
    {name : Identifier}
    {value : Expr}
    (legible : name.Legible)
    (ready : Ready resolved place none
      ((Stmt.varDeclaration name (some value)).sites place) state) :
    Ready resolved (place.declaring [name.text]) (some name.text)
      (value.sites (place.declaring [name.text]) (some name.text)) state := by
  refine ⟨ready.coherent, ready.covers.declaring name.text, ?_, ?_⟩
  · exact fun site member => ready.settled site (List.mem_cons_of_mem _ member)
  · exact ⟨by simpa using legible.1, by simpa using legible.2⟩

/-- A declared variable is bound behind its initializer. -/
theorem varDeclaration_keeps
    (expressions : ExpressionsKeep resolved fuel)
    {name : Identifier}
    {initializer : Option Expr}
    (proper : (Stmt.varDeclaration name initializer).Proper)
    (ready : Ready resolved place none
      ((Stmt.varDeclaration name initializer).sites place) state) :
    Keeps resolved (execute (fuel + 1) (.varDeclaration name initializer)) state
      (fun _ after =>
        Covers after.heap after.scope (place.declaring [name.text]) none)
      (MayStop (.statement (fuel + 1) (.varDeclaration name initializer)) state) := by
  cases initializer with
  | none => exact defineHere_keeps ready.coherent ready.covers proper.1 .nil
  | some value =>
      have started := initializer_ready proper.1 ready
      refine ((expressions proper.2 started).starting .initializer).bind ?_
      intro found after _ evolves coherent _
      exact defineHere_keeps coherent (evolves.covers ready.covers) proper.1 found

/-- A superclass is looked up before the name of its class is bound. -/
theorem superclass_ready
    {name : Identifier}
    {parent : Reference}
    {methods : List FunctionDeclaration}
    (legible : name.Legible)
    (ready : Ready resolved place none
      ((Stmt.classDeclaration name (some parent) methods).sites place) state) :
    Ready resolved (place.declaring [name.text]) (some name.text)
      ((Expr.reference parent).sites (place.declaring [name.text]) (some name.text))
      state := by
  have inherits := ready.settled _ (by
    exact List.mem_cons_of_mem _ (List.mem_append_left _ (List.mem_cons_self)))
  have reads := ready.settled _ (by
    exact List.mem_cons_of_mem _
      (List.mem_append_left _ (List.mem_cons_of_mem _ List.mem_cons_self)))
  refine ⟨ready.coherent, ready.covers.declaring name.text, ?_, ?_⟩
  · intro site member
    obtain rfl := List.mem_singleton.mp member
    refine ⟨?_, reads.sound, reads.recorded⟩
    -- The name of the class is not bound yet, but no class inherits from itself.
    have other : ¬ parent.name.text = name.text := by
      intro same
      have faultless := inherits.faultless
      simp [Site.fault?, same] at faultless
    simp [Site.fault?, Ne.symm other]
  · exact ⟨by simpa using legible.1, by simpa using legible.2⟩

/-- A declared class is bound behind its superclass and its methods. -/
theorem classDeclaration_keeps
    {name : Identifier}
    {superclass : Option Reference}
    {methods : List FunctionDeclaration}
    (proper : (Stmt.classDeclaration name superclass methods).Proper)
    (ready : Ready resolved place none
      ((Stmt.classDeclaration name superclass methods).sites place) state) :
    Keeps resolved (execute (fuel + 1) (.classDeclaration name superclass methods)) state
      (fun _ after =>
        Covers after.heap after.scope (place.declaring [name.text]) none)
      (MayStop (.statement (fuel + 1) (.classDeclaration name superclass methods))
        state) := by
  have settled : AllSettled state.distances resolved
      (FunctionDeclaration.sitesOfAll
        ((place.declaring [name.text]).ofMethods superclass) methods) :=
    fun site member =>
      ready.settled site (List.mem_cons_of_mem _ (List.mem_append_right _ member))
  cases superclass with
  | none =>
      exact declareBaseClass_keeps ready.coherent ready.covers proper.1 proper.2 settled
  | some parent =>
      refine declareSubclass_keeps ready.covers proper.1 proper.2 settled ?_
      have found := reference_keeps fuel (superclass_ready proper.1 ready)
      exact superclassOf_keeps (found.starting .superclass) (.of_other (by simp) (by simp))

/-- The value of a return is ready where the return is. -/
theorem result_ready
    {line : Nat}
    {value : Expr}
    (ready : Ready resolved place none
      ((Stmt.returnValue line (some value)).sites place) state) :
    Ready resolved place none (value.sites place none) state :=
  { ready with
    settled := fun site member => ready.settled site (List.mem_cons_of_mem _ member) }

/-- Every statement keeps the scopes if everything with less fuel does. -/
theorem statements_keep
    (expressions : ExpressionsKeep resolved fuel)
    (statements : StatementsKeep resolved fuel) :
    StatementsKeep resolved (fuel + 1) := by
  intro statement place state proper ready
  cases statement with
  | expression value =>
      have inside : value.Proper := proper
      have keeps := (expressions inside ready).starting .effect
      exact Keeps.declaring_none (.map keeps) ready.covers rfl
  | print value =>
      have inside : value.Proper := proper
      refine Keeps.declaring_none ?_ ready.covers rfl
      refine ((expressions inside ready).starting .printed).bind ?_
      intro found after _ _ coherentAfter _
      exact printValue_keeps coherentAfter found
  | varDeclaration _ _ => exact varDeclaration_keeps expressions proper ready
  | block _ => exact block_keeps statements proper ready
  | branch condition consequent alternative =>
      cases alternative with
      | none =>
          have keeps := conditional_keeps expressions statements proper ready
          exact keeps.declaring_none ready.covers proper.2.2
      | some other =>
          have keeps := alternative_keeps expressions statements proper ready
          refine keeps.declaring_none ready.covers ?_
          rw [Stmt.declared, proper.2.1.2, proper.2.2.2]
          rfl
  | loop condition body =>
      have keeps := loop_keeps expressions statements proper ready
      exact keeps.declaring_none ready.covers proper.2.2
  | functionDeclaration declaration =>
      refine declareFunction_keeps ready.coherent ready.covers proper.1 proper.2 ?_
      exact fun site member => ready.settled site (List.mem_cons_of_mem _ member)
  | returnValue line value =>
      refine Keeps.declaring_none ?_ ready.covers rfl
      cases value with
      | none => exact .throw ready.coherent (.of_other (by simp) (by simp))
      | some result =>
          have inside : result.Proper := proper
          have started := result_ready ready
          refine ((expressions inside started).starting .returned).bind ?_
          intro found after _ _ coherentAfter _
          exact .throw coherentAfter (.of_other (by simp) (by simp))
  | classDeclaration _ _ _ => exact classDeclaration_keeps proper ready

/-! ## Calls -/

/-- A live function that is called with enough arguments has a body that is ready. -/
theorem activate_ready
    {function : Function}
    {arguments : List Value}
    (coherent : Coherent state.distances resolved state.heap)
    (live : LiveFunction state.distances resolved state.heap function)
    (matched : function.arity = arguments.length) :
    ∃ start, Stmt.AllProper function.declaration.body ∧
      ∀ allowed, Keeps resolved (activate function arguments) state
        (fun scope after =>
          Ready resolved start none (Stmt.sitesOfAll start function.declaration.body)
            { after with scope := scope })
        allowed := by
  obtain ⟨place, role, covers, proper, settled⟩ := live
  obtain ⟨⟨name, parameters, body⟩, closure, isConstructor⟩ := function
  refine ⟨(place.asFunction role).entering.declaring (parameters.map (·.text)),
    proper.2, fun allowed => ?_⟩
  have inFunction : Covers state.heap closure (place.asFunction role) none :=
    covers.of_scopes rfl
  have keeps : Keeps resolved
      (activate ⟨.intro name parameters body, closure, isConstructor⟩ arguments) state _
      allowed :=
    activate_keeps coherent inFunction proper.1 matched
  refine .of_ok rfl ⟨.addScope _ _, rfl, rfl⟩ (keeps.ok rfl).2.1 ?_
  refine ⟨(keeps.ok rfl).2.1, (keeps.ok rfl).2.2, ?_, by simp⟩
  exact fun site member => settled site (List.mem_append_right _ member)

/-- A called function keeps the scopes: it runs from where it was declared. -/
theorem function_keeps
    (statements : StatementsKeep resolved fuel)
    {function : Function}
    {arguments : List Value}
    (coherent : Coherent state.distances resolved state.heap)
    (live : LiveFunction state.distances resolved state.heap function)
    (matched : function.arity = arguments.length) :
    Keeps resolved (call (fuel + 1) (.function function) arguments) state (fun _ _ => True)
      (MayStop (.call (fuel + 1) (.function function) arguments) state) := by
  obtain ⟨start, proper, activated⟩ := activate_ready coherent live matched
  refine (activated _).bind ?_
  intro scope after given _ coherentAfter entered
  have run := (body_keeps statements proper entered).starting (.functionBody given)
  refine run.within.returning.bind ?_
  intro result last _ _ coherentLast _
  exact callResult_keeps coherentLast function result

/-- A constructor that is bound to a new instance is live. -/
theorem constructor_ready
    {classId : ClassId}
    {object : InstanceId}
    {count : Nat}
    {method function : Function}
    {middle after : State}
    (coherent : Coherent state.distances resolved state.heap)
    (matched : state.heap.classArity classId = count)
    (givenObject : newInstance classId state = .ok object middle)
    (found : middle.heap.findMethod? classId constructorName = some method)
    (given : bindMethod method object middle = .ok function after) :
    Coherent after.distances resolved after.heap ∧
      LiveCallee after.distances resolved after.heap count (.function function) := by
  have created : Keeps resolved (newInstance classId) state
      (fun _ after => after.heap.classes = state.heap.classes) (fun _ => True) :=
    newInstance_keeps coherent classId
  obtain ⟨-, coherentMiddle, sameClasses⟩ := created.ok givenObject
  have binding : Keeps resolved (bindMethod method object) middle
      (fun function after =>
        function.declaration = method.declaration ∧
          LiveFunction after.distances resolved after.heap function)
      (fun _ => True) :=
    bindMethod_keeps coherentMiddle (coherentMiddle.findMethod? found) object
  obtain ⟨-, coherentAfter, sameDeclaration, live⟩ := binding.ok given
  refine ⟨coherentAfter, live, ?_⟩
  have same := findMethod?_of_classes sameClasses classId constructorName
  rw [← matched, Heap.classArity, ← same, found, Function.arity, sameDeclaration]
  rfl

/-- A called class keeps the scopes, and so does its constructor. -/
theorem class_keeps
    (calls : CallsKeep resolved fuel)
    {classId : ClassId}
    {arguments : List Value}
    (coherent : Coherent state.distances resolved state.heap)
    (matched : state.heap.classArity classId = arguments.length) :
    Keeps resolved (call (fuel + 1) (.classObject classId) arguments) state
      (fun _ _ => True)
      (MayStop (.call (fuel + 1) (.classObject classId) arguments) state) := by
  refine (newInstance_keeps coherent classId).bind ?_
  intro object middle givenObject _ coherentMiddle _
  refine .get ?_
  cases found : middle.heap.findMethod? classId constructorName with
  | none => exact .pure coherentMiddle trivial
  | some method =>
      have live := coherentMiddle.findMethod? found
      refine (bindMethod_keeps coherentMiddle live object).bind ?_
      intro function after givenMethod _ _ _
      obtain ⟨coherentAfter, ready⟩ :=
        constructor_ready coherent matched givenObject found givenMethod
      have constructed :=
        (calls coherentAfter ready).starting (.construction givenObject found givenMethod)
      refine constructed.map.bind ?_
      intro _ last _ _ coherentLast _
      exact .pure coherentLast trivial

/-- Every call keeps the scopes if everything with less fuel does. -/
theorem calls_keep
    (statements : StatementsKeep resolved fuel)
    (calls : CallsKeep resolved fuel) :
    CallsKeep resolved (fuel + 1) := by
  intro callee arguments state coherent live
  cases callee with
  | native _ => exact readClock_keeps coherent
  | function _ => exact function_keeps statements coherent live.1 live.2
  | classObject _ => exact class_keeps calls coherent live

end

/-- Everything keeps the scopes, with any fuel. -/
theorem everything_keeps (resolved : Settlement → Prop) (fuel : Nat) :
    ExpressionsKeep resolved fuel ∧ StatementsKeep resolved fuel ∧ CallsKeep resolved fuel := by
  induction fuel with
  | zero =>
      refine ⟨?_, ?_, ?_⟩
      · intro _ _ _ _ _ ready
        exact .throw ready.coherent (.of_other (by simp) (by simp))
      · intro _ _ _ _ ready
        exact .throw ready.coherent (.of_other (by simp) (by simp))
      · intro _ _ _ coherent _
        exact .throw coherent (.of_other (by simp) (by simp))
  | succ fuel inductionHypothesis =>
      obtain ⟨expressions, statements, calls⟩ := inductionHypothesis
      exact ⟨expressions_keep expressions calls,
        statements_keep expressions statements, calls_keep statements calls⟩

/-- A program keeps the scopes, also where it stops at a return outside of functions. -/
theorem interpret_keeps
    {resolved : Settlement → Prop}
    {program : List Stmt}
    {state : State}
    (fuel : Nat)
    (proper : Stmt.AllProper program)
    (ready : Ready resolved .outermost none (programSites program) state) :
    Keeps resolved (interpret fuel program) state (fun _ _ => True)
      (MayStop (.statements fuel program) state) := by
  have keeps := body_keeps (everything_keeps resolved fuel).2.1 proper ready
  unfold Keeps at keeps ⊢
  unfold interpret executeAll
  cases run : program.forM (execute fuel) state with
  | ok value after =>
      rw [run] at keeps
      exact keeps
  | error exit after =>
      rw [run] at keeps
      cases exit with
      | returned line value =>
          exact ⟨keeps.1, keeps.2.1, .of_other (by simp) (by simp)⟩
      | error _ => exact keeps
      | mismatch _ => exact keeps
      | exhausted => exact keeps

end Lox.Execution
