import Lox.Proofs.Execution.Homes
import Lox.Proofs.Grammar.WellFormed

namespace Lox.Execution

/-!
# Whatever is run stands in a program

A run evaluates parts of the program that it runs, and of the functions and methods in the
heap, which come from programs that were run before.  So if all of these were read by a
parser, then every node that is evaluated is one that the parser has built, whatever the
scopes and their distances are.
-/

/-! ## Where code comes from -/

/-- The code that a task is to run. -/
def Task.code : Task → List Node
  | .expression _ value => [.expression value]
  | .arguments _ values => values.map .expression
  | .statement _ single => [.statement single]
  | .statements _ body => body.map .statement
  | .call _ (.function function) _ => [.function function.declaration]
  | .call _ (.native _) _ => []
  | .call _ (.classObject _) _ => []

/-- A task calls something that has been evaluated. -/
def Task.IsCall : Task → Prop
  | .call _ _ _ => True
  | _ => False

/-- The code of a task stands in some trees. -/
def Task.WrittenIn (trees : List Node) (task : Task) : Prop :=
  ∀ node ∈ task.code, node.OccursIn trees

/-- All functions and methods that have been made stand in some trees. -/
structure Heap.WrittenIn (trees : List Node) (heap : Heap) : Prop where
  functions :
    ∀ (id : FunctionId) function, heap.functions[id]? = some function →
      (Node.function function.declaration).OccursIn trees
  methods :
    ∀ classId method, heap.HasMethod classId method →
      (Node.function method.declaration).OccursIn trees

/-- The functions that an act puts into the heap. -/
def Act.declarations : Act → List FunctionDeclaration
  | .bind method _ => [method.declaration]
  | .declareFunction declaration => [declaration]
  | .declareClass _ _ methods => methods
  | _ => []

theorem Heap.initial_writtenIn (trees : List Node) (clock : Clock) :
    (State.initial clock).heap.WrittenIn trees where
  functions _ _ known := by cases known
  methods _ _ has := by
    obtain ⟨_, _, known, -⟩ := has
    cases known

/-- What is found through a class is a method of some class. -/
theorem Heap.hasMethod_of_findMethod?
    {heap : Heap}
    {classId : ClassId}
    {name : String}
    {method : Function}
    (found : heap.findMethod? classId name = some method) :
    ∃ ancestor, heap.HasMethod ancestor method := by
  obtain ⟨ancestor, made, -, known, own⟩ :=
    exists_of_findMethod? (fun _ => True) (fun _ _ _ _ _ _ => trivial) trivial found
  exact ⟨ancestor, made, name, known, own⟩

namespace Act

variable {act : Act} {state : State}

/-- A method is an old one, or an act has put it into the heap. -/
theorem hasMethod_cases
    {classId : ClassId}
    {method : Function}
    (has : (act.result state).heap.HasMethod classId method) :
    state.heap.HasMethod classId method ∨ method.declaration ∈ act.declarations := by
  obtain ⟨made, name, known, own⟩ := has
  rcases act.classes_result state with ⟨-, same⟩ | ⟨declaration, added, declares, makes, same⟩
  · exact .inl ⟨made, name, same ▸ known, own⟩
  rw [same, Array.getElem?_push] at known
  split at known
  next =>
    obtain rfl := Option.some.inj known
    obtain ⟨closure, lookUp⟩ := makes.methods
    rw [lookUp] at own
    obtain ⟨found, isLast, rfl⟩ := Option.map_eq_some_iff.mp own
    have member := List.mem_reverse.mp (List.mem_of_find?_eq_some isLast)
    cases act with
    | declareClass _ _ _ =>
        obtain rfl := Option.some.inj declares
        exact .inr member
    | _ => cases declares
  · exact .inl ⟨made, name, known, own⟩

/-- An act that puts nothing new into the heap but functions of some trees. -/
theorem writtenIn
    {trees : List Node}
    (written : state.heap.WrittenIn trees)
    (declared :
      ∀ declaration ∈ act.declarations, (Node.function declaration).OccursIn trees) :
    (act.result state).heap.WrittenIn trees where
  functions id function known := by
    rcases functions_cases known with old | ⟨method, object, rfl, rfl⟩ | ⟨declaration, rfl, rfl⟩
    · exact written.functions id function old
    · exact declared method.declaration (List.mem_singleton.mpr rfl)
    · exact declared declaration (List.mem_singleton.mpr rfl)
  methods classId method has := by
    rcases hasMethod_cases has with old | new
    · exact written.methods classId method old
    · exact declared method.declaration new

end Act

section

variable {trees : List Node} {root task first : Task} {start state begun after : State}
  {act : Act} {progress : Progress}

/-- A method that is found through a class stands in the trees. -/
theorem Heap.WrittenIn.found
    {heap : Heap}
    (written : heap.WrittenIn trees)
    {classId : ClassId}
    {name : String}
    {method : Function}
    (found : heap.findMethod? classId name = some method) :
    (Node.function method.declaration).OccursIn trees := by
  obtain ⟨ancestor, has⟩ := Heap.hasMethod_of_findMethod? found
  exact written.methods ancestor method has

/-- What a task puts into the heap stands in its own code, or was in the heap before. -/
theorem Does.declarations_occur
    (does : Does task begun state act)
    (written : state.heap.WrittenIn trees)
    (code : task.WrittenIn trees) :
    ∀ declaration ∈ act.declarations, (Node.function declaration).OccursIn trees := by
  cases does with
  | property _ _ inherited =>
      obtain ⟨made, -, found⟩ := Option.bind_eq_some_iff.mp inherited
      simpa [Act.declarations] using written.found found
  | super _ _ _ found => simpa [Act.declarations] using written.found found
  | functionDeclaration =>
      have occurs := (code _ (List.mem_singleton.mpr rfl)).part .declared
      simpa [Act.declarations] using occurs
  | baseClass => exact fun _ member => (code _ (List.mem_singleton.mpr rfl)).part (.method member)
  | subclass _ => exact fun _ member => (code _ (List.mem_singleton.mpr rfl)).part (.method member)
  | _ => exact nofun

/-- If all code that is run stands in some trees, then so do the functions that are made. -/
theorem Course.writtenIn
    (course : Course root start progress)
    (written : start.heap.WrittenIn trees)
    (code : ∀ task begun, Reaches root start task begun → task.WrittenIn trees) :
    progress.state.heap.WrittenIn trees := by
  induction course with
  | begin => exact written
  | learn _ _ inductionHypothesis => exact inductionHypothesis
  | act _ reaches does _ inductionHypothesis =>
      exact Act.writtenIn inductionHypothesis
        (does.declarations_occur inductionHypothesis (code _ _ reaches))

/-! ## What a task starts -/

/-- A task starts what is a part of its own code, or else it calls something. -/
theorem Starts.code_part
    (starts : Starts task state first after) :
    first.IsCall ∨
      ∀ part ∈ first.code, part ∈ task.code ∨ ∃ whole ∈ task.code, Node.Part part whole := by
  have single : ∀ {part whole : Node}, whole.Part part → ∀ found ∈ [whole],
      found ∈ [part] ∨ ∃ outer ∈ [part], found.Part outer := by
    intro part whole isPart found member
    obtain rfl := List.mem_singleton.mp member
    exact .inr ⟨part, List.mem_singleton.mpr rfl, isPart⟩
  cases starts with
  | grouping => exact .inr (single .grouped)
  | operand => exact .inr (single .operand)
  | leftOperand => exact .inr (single .leftOperand)
  | rightOperand _ => exact .inr (single .rightOperand)
  | leftCondition => exact .inr (single .leftCondition)
  | rightCondition _ _ => exact .inr (single .rightCondition)
  | assigned => exact .inr (single .assigned)
  | callee => exact .inr (single .callee)
  | call _ _ _ => exact .inl trivial
  | object => exact .inr (single .object)
  | owner => exact .inr (single .owner)
  | field _ _ => exact .inr (single .field)
  | effect => exact .inr (single .effect)
  | printed => exact .inr (single .printed)
  | initializer => exact .inr (single .initializer)
  | condition => exact .inr (single .condition)
  | consequent _ _ => exact .inr (single .consequent)
  | alternative _ _ => exact .inr (single .alternative)
  | loopCondition => exact .inr (single .loopCondition)
  | round _ _ => exact .inr (single .round)
  | returned => exact .inr (single .returned)
  | superclass => exact .inr (single .superclass)
  | construction _ _ _ => exact .inl trivial
  | nextRound _ _ _ => exact .inr fun _ member => .inl member
  | firstArgument =>
      refine .inr fun _ member => .inl ?_
      obtain rfl := List.mem_singleton.mp member
      exact List.mem_cons_self
  | otherArguments _ => exact .inr fun _ member => .inl (List.mem_cons_of_mem _ member)
  | firstStatement =>
      refine .inr fun _ member => .inl ?_
      obtain rfl := List.mem_singleton.mp member
      exact List.mem_cons_self
  | otherStatements _ => exact .inr fun _ member => .inl (List.mem_cons_of_mem _ member)
  | arguments _ =>
      refine .inr fun part member => .inr ?_
      obtain ⟨value, isArgument, rfl⟩ := List.mem_map.mp member
      exact ⟨_, List.mem_singleton.mpr rfl, .argument isArgument⟩
  | block _ =>
      refine .inr fun part member => .inr ?_
      obtain ⟨single, isMember, rfl⟩ := List.mem_map.mp member
      exact ⟨_, List.mem_singleton.mpr rfl, .member isMember⟩
  | functionBody _ =>
      refine .inr fun part member => .inr ?_
      obtain ⟨single, isMember, rfl⟩ := List.mem_map.mp member
      exact ⟨_, List.mem_singleton.mpr rfl, .run isMember⟩

/-- What a task starts stands where the task does, unless it is a call. -/
theorem Task.WrittenIn.started
    (code : task.WrittenIn trees)
    (starts : Starts task state first after)
    (noCall : ¬ first.IsCall) :
    first.WrittenIn trees := by
  rcases starts.code_part with isCall | parts
  · exact absurd isCall noCall
  intro part member
  rcases parts part member with own | ⟨whole, isWhole, isPart⟩
  · exact code part own
  · exact (code whole isWhole).part isPart

/-- The code of a task and all functions in the heap before it stand in some trees. -/
structure Written (trees : List Node) (state : State) (task : Task) : Prop where
  heap : state.heap.WrittenIn trees
  code : task.WrittenIn trees

/-- Whatever is reached from a task in some trees is in these trees. -/
def Task.StaysWritten (trees : List Node) (task : Task) : Prop :=
  ∀ state, Written trees state task →
    ∀ later after, Reaches task state later after → Written trees after later

/-- All tasks of lower rank than some task stay in some trees. -/
def Task.LowerStayWritten (trees : List Node) (task : Task) : Prop :=
  ∀ lower : Task, Prod.Lex (· < ·) (· < ·) lower.rank task.rank → lower.StaysWritten trees

/-- Behind a task all functions in the heap stand in the trees. -/
theorem Task.StaysWritten.ended
    (stays : task.StaysWritten trees)
    (written : Written trees state task) :
    (endState (task.run state)).heap.WrittenIn trees := by
  have here : Reaches task state task state := .here
  obtain ⟨progress, course, same⟩ := here.course_end
  rw [← same]
  exact course.writtenIn written.heap fun later begun reaches =>
    (stays state written later begun reaches).code

section

variable {fuel : Nat} (written : Written trees state task)
  (lower : task.LowerStayWritten trees)

include written lower

/-- Behind what a task has started. -/
theorem Written.behind
    (starts : Starts task state first begun)
    (heap : begun.heap.WrittenIn trees)
    (noCall : ¬ first.IsCall)
    (ended : endState (first.run begun) = after) :
    after.heap.WrittenIn trees :=
  ended ▸ (lower first starts.rank_lt).ended ⟨heap, written.code.started starts noCall⟩

theorem Written.behind_expression
    {value : Expr}
    {found : Value}
    (starts : Starts task state (.expression fuel value) state)
    (given : evaluate fuel value state = .ok found after) :
    after.heap.WrittenIn trees :=
  written.behind lower starts written.heap id (Task.ended_expression given)

/-- The heap in which a task starts another one. -/
theorem Written.starts_heap
    (starts : Starts task state first after) :
    after.heap.WrittenIn trees := by
  -- The acts with which blocks and calls begin make scopes and instances only.
  have act : ∀ {act : Act} {state : State}, state.heap.WrittenIn trees →
      act.declarations = [] → (act.result state).heap.WrittenIn trees :=
    fun heap none => Act.writtenIn heap (by rw [none]; exact List.forall_mem_nil _)
  cases starts with
  | rightOperand given => exact written.behind_expression lower .leftOperand given
  | rightCondition given _ => exact written.behind_expression lower .leftCondition given
  | arguments given => exact written.behind_expression lower .callee given
  | call givenCallee givenArguments givenFound =>
      have middle := written.behind_expression lower .callee givenCallee
      obtain ⟨rfl, -⟩ := calleeFor_ok givenFound
      exact written.behind lower (.arguments givenCallee) middle id
        (by rw [Task.run, givenArguments]; rfl)
  | field givenObject givenOwner =>
      obtain ⟨-, rfl⟩ := fieldOwner_ok givenOwner
      exact written.behind_expression lower .owner givenObject
  | otherArguments given => exact written.behind_expression lower .firstArgument given
  | consequent given _ => exact written.behind_expression lower .condition given
  | alternative given _ => exact written.behind_expression lower .condition given
  | round given _ => exact written.behind_expression lower .loopCondition given
  | nextRound given truthy givenRound =>
      have middle := written.behind_expression lower .loopCondition given
      exact written.behind lower (.round given truthy) middle id (Task.ended_statement givenRound)
  | otherStatements given =>
      exact written.behind lower .firstStatement written.heap id (Task.ended_statement given)
  | block given =>
      obtain ⟨rfl, rfl⟩ := EStateM.Result.ok.inj given
      have entered : (Act.enterBlock.result state).heap.WrittenIn trees := act written.heap rfl
      exact entered
  | @functionBody _ function passed _ _ _ given =>
      obtain ⟨rfl, rfl⟩ := EStateM.Result.ok.inj given
      have entered : ((Act.activate function passed).result state).heap.WrittenIn trees :=
        act written.heap rfl
      exact entered
  | @construction _ classId _ _ object _ method _ _ givenObject _ givenMethod =>
      obtain ⟨rfl, rfl⟩ := EStateM.Result.ok.inj givenObject
      obtain ⟨rfl, rfl⟩ := EStateM.Result.ok.inj givenMethod
      have made : ((Act.construct classId).result state).heap.WrittenIn trees :=
        act written.heap rfl
      have bound := @act (.receive method state.heap.instances.size) _ made rfl
      exact bound
  | _ => exact written.heap

end

/-- A function that a value is stands in the trees. -/
theorem Heap.WrittenIn.callee
    {heap : Heap}
    (written : heap.WrittenIn trees)
    {subject : Value}
    {callee : Callee}
    (found : heap.callee? subject = some callee)
    (fuel : Nat)
    (passed : List Value) :
    (Task.call fuel callee passed).WrittenIn trees := by
  cases callee with
  | function function =>
      obtain ⟨id, known⟩ := Heap.exists_function found
      intro node member
      obtain rfl := List.mem_singleton.mp member
      exact written.functions id function known
  | native _ => exact List.forall_mem_nil _
  | classObject _ => exact List.forall_mem_nil _

/-- What a task in some trees starts is in them too. -/
theorem Written.starts
    (written : Written trees state task)
    (lower : task.LowerStayWritten trees)
    (starts : Starts task state first after) :
    Written trees after first := by
  have heap := written.starts_heap lower starts
  have code := written.code.started starts
  refine ⟨heap, ?_⟩
  cases starts with
  | call _ _ givenFound =>
      obtain ⟨rfl, isCallee⟩ := calleeFor_ok givenFound
      exact heap.callee isCallee _ _
  | @construction _ classId _ _ _ _ method _ _ givenObject found givenMethod =>
      obtain ⟨rfl, rfl⟩ := EStateM.Result.ok.inj givenObject
      obtain ⟨rfl, rfl⟩ := EStateM.Result.ok.inj givenMethod
      have made : ((Act.construct classId).result state).heap.WrittenIn trees :=
        Act.writtenIn written.heap nofun
      have occurs : (Node.function method.declaration).OccursIn trees := made.found found
      intro node member
      obtain rfl := List.mem_singleton.mp member
      exact occurs
  | _ => exact code id

/-- Whatever is reached from a task in some trees stands in them. -/
theorem Task.staysWritten (trees : List Node) (task : Task) : task.StaysWritten trees := by
  -- Where a task begins behind others, these are of lower rank: the heap is as they leave it.
  induction task using Task.rank_wellFounded.induction with
  | _ task lower =>
      intro state written later after reaches
      cases reaches with
      | here => exact written
      | inside starts reaches =>
          exact lower _ starts.rank_lt _ (written.starts lower starts) later after reaches

end

/-! ## What a parser has built -/

open Grammar in
/--
Every tree that a parser gives, wherever it stands when it is called, is well formed: it
comes from the tokens in front of the parser.  No two occurrences in the trees of calls in a
row have the same identity.  And whatever is evaluated when such trees are run is a part of
them, whatever the scopes and their distances are, as long as the functions in the heap come
from such trees too, which is so in a new state and behind every such run.  Thus no operator
is evaluated that does not stand for a token with a meaning.
-/
theorem parsed_wellFormed (calls : List (Call × Reader)) (nextId : NodeId) :
    (∀ (call : Call) (reader : Reader), ∀ tree ∈ call.trees reader,
        WellFormed reader.rest tree) ∧
      ((treesOf calls nextId).flatMap Node.ids).Nodup ∧
      (∀ clock, (State.initial clock).heap.WrittenIn (treesOf calls nextId)) ∧
      ∀ (state : State) (task : Task), Written (treesOf calls nextId) state task →
        (endState (task.run state)).heap.WrittenIn (treesOf calls nextId) ∧
          ∀ later after, Reaches task state later after →
            ∀ node ∈ later.code, WellFormed (tokensOf calls) node := by
  obtain ⟨_, fresh⟩ := treesOf_fresh calls nextId
  refine ⟨fun call reader => call.trees_wellFormed (List.Subset.refl _), fresh.distinct,
    Heap.initial_writtenIn _, ?_⟩
  intro state task written
  have stays := Task.staysWritten (treesOf calls nextId) task
  refine ⟨stays.ended written, fun later after reaches node member => ?_⟩
  obtain ⟨tree, isTree, occurs⟩ := (stays state written later after reaches).code node member
  have wellFormed := treesOf_wellFormed (List.Subset.refl (tokensOf calls)) nextId tree isTree
  exact fun part inside => wellFormed part (inside.trans occurs)

open Grammar in
/-- The tokens of `print -a;`, read twice, of which the second reading is run. -/
theorem parsed_wellFormed_at_negation :
    let tokens : List Token :=
      [⟨.keyword .printWord, "print", 1⟩, ⟨.symbol .minus, "-", 1⟩, ⟨.identifier, "a", 1⟩,
        ⟨.symbol .semicolon, ";", 1⟩]
    let calls := [(Call.program, Reader.start tokens 0), (Call.program, Reader.start tokens 0)]
    let negation := fun id : NodeId => Expr.unary .negate 1 (.reference ⟨id, ⟨"a", 1⟩⟩)
    let trees := [Node.statement (.print (negation 0)), .statement (.print (negation 1))]
    treesOf calls 0 = trees ∧
      Written trees (State.initial ⟨0⟩) (.statement 3 (.print (negation 1))) ∧
        WellFormed (tokensOf calls) (.expression (negation 1)) := by
  intro tokens calls negation trees
  have read : treesOf calls 0 = trees := rfl
  obtain ⟨-, -, new, evaluated⟩ := parsed_wellFormed calls 0
  have written : Written trees (State.initial ⟨0⟩) (.statement 3 (.print (negation 1))) := by
    refine ⟨read ▸ new ⟨0⟩, fun node member => ?_⟩
    obtain rfl := List.mem_singleton.mp member
    exact ⟨_, List.mem_cons_of_mem _ List.mem_cons_self, .here⟩
  have reaches : Reaches (.statement 3 (.print (negation 1))) (State.initial ⟨0⟩)
      (.expression 2 (negation 1)) (State.initial ⟨0⟩) :=
    .inside .printed .here
  obtain ⟨-, wellFormed⟩ := evaluated (.initial ⟨0⟩) _ (read ▸ written)
  exact ⟨read, written, wellFormed _ _ reaches _ List.mem_cons_self⟩

end Lox.Execution
