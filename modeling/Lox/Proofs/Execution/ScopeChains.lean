import Lox.Proofs.Execution.DetourEnds
import Lox.Proofs.Execution.InnerEnds
import Lox.Proofs.Execution.NearestBindings

namespace Lox.Execution

/-!
# Chains of scopes

A scope is made inside of one that is there already: of the current one, or of the one that
a function or a method is closed over.  What is around it stays around it for ever.  So from
every scope the way outwards goes to older and older ones, repeats none, and ends in the
global scope, the only one with none around it; and every access along the way comes to its
end.  This is so whatever distances are recorded and however a run ends.
-/

namespace Heap

/-! ## Chains -/

/-- The chain of a scope: the scope, the one around it, and so on to one with none around it. -/
inductive Chain (heap : Heap) : ScopeId → List ScopeId → Prop where
  | outermost {scope : ScopeId} :
      heap.Has (.scope scope) →
      heap.enclosing? scope = none →
      Chain heap scope [scope]
  | inside {scope outer : ScopeId} {outers : List ScopeId} :
      heap.enclosing? scope = some outer →
      Chain heap outer outers →
      Chain heap scope (scope :: outers)

/-- The first scope of a chain that binds a name. -/
def firstBinder? (heap : Heap) (scopes : List ScopeId) (name : String) : Option ScopeId :=
  scopes.find? fun scope => (heap.getLocal? scope name).isSome

/--
Every access from a scope goes along a chain: a number of steps leads to the scope with that
number in it, or nowhere if the chain is too short, and a search ends at the first scope that
binds the name, or else at the end.
-/
structure AccessedAlong (heap : Heap) (scope : ScopeId) (scopes : List ScopeId) : Prop where
  ancestor : ∀ distance, heap.ancestor? distance scope = scopes[distance]?
  getAt :
    ∀ distance name,
      heap.getAt? scope distance name = scopes[distance]?.bind (heap.getLocal? · name)
  assignAt :
    ∀ distance name value,
      heap.assignAt? scope distance name value = scopes[distance]?.map (heap.define · name value)
  search : ∀ name, heap.Search name scope (heap.firstBinder? scopes name)
  get : ∀ name, heap.get? scope name = (heap.firstBinder? scopes name).bind (heap.getLocal? · name)
  assign :
    ∀ name value,
      heap.assign? scope name value = (heap.firstBinder? scopes name).map (heap.define · name value)

section

variable {heap : Heap} {scope : ScopeId} {scopes : List ScopeId}

namespace Chain

variable (chain : heap.Chain scope scopes)

include chain

theorem ancestor?_eq (distance : Nat) : heap.ancestor? distance scope = scopes[distance]? := by
  induction chain generalizing distance with
  | outermost has alone =>
      cases distance with
      | zero => rfl
      | succ distance => simp [ancestor?_outwards, alone]
  | inside around _ inductionHypothesis =>
      cases distance with
      | zero => rfl
      | succ distance => simpa [ancestor?_outwards, around] using inductionHypothesis distance

/-- A search that takes one step after another ends at the first binder of the chain. -/
theorem search_firstBinder? (name : String) :
    heap.Search name scope (heap.firstBinder? scopes name) := by
  induction chain with
  | @outermost scope has alone =>
      by_cases bound : (heap.getLocal? scope name).isSome
      · simpa [firstBinder?, bound] using Search.here bound
      · have unbound := Option.not_isSome_iff_eq_none.mp bound
        simpa [firstBinder?, unbound] using Search.outermost unbound alone
  | @inside scope outer outers around _ inductionHypothesis =>
      by_cases bound : (heap.getLocal? scope name).isSome
      · simpa [firstBinder?, bound] using Search.here bound
      · have unbound := Option.not_isSome_iff_eq_none.mp bound
        have same : heap.firstBinder? (scope :: outers) name = heap.firstBinder? outers name := by
          simp [firstBinder?, unbound]
        rw [same]
        exact .outwards unbound around inductionHypothesis

end Chain

/-- A search has one end, the scope that is computed. -/
theorem Search.binder?_eq
    {name : String}
    {found : Option ScopeId}
    (search : heap.Search name scope found) :
    heap.binder? scope name = found := by
  induction search with
  | here bound => exact binder?_eq_some_iff.mpr ⟨0, nearest_zero_iff.mpr ⟨rfl, bound⟩⟩
  | outwards unbound around _ inductionHypothesis =>
      rw [binder?_of_enclosing unbound around, inductionHypothesis]
  | outermost unbound alone => exact binder?_of_outermost unbound alone

theorem Chain.accessedAlong (chain : heap.Chain scope scopes) :
    heap.AccessedAlong scope scopes where
  ancestor := chain.ancestor?_eq
  getAt distance name := by rw [getAt?, chain.ancestor?_eq]
  assignAt distance name value := by rw [assignAt?, chain.ancestor?_eq]
  search := chain.search_firstBinder?
  get name := by rw [get?, (chain.search_firstBinder? name).binder?_eq]
  assign name value := by rw [assign?, (chain.search_firstBinder? name).binder?_eq]

end

/-! ## Heaps with one root -/

/-- One scope of a heap is outermost, and all others are inside of older ones. -/
structure Rooted (heap : Heap) (root : ScopeId) : Prop where
  has : heap.Has (.scope root)
  alone : heap.enclosing? root = none
  only : ∀ scope, heap.Has (.scope scope) → heap.enclosing? scope = none → scope = root
  older : ∀ scope outer, heap.enclosing? scope = some outer → outer < scope

theorem enclosing?_addScope {heap : Heap} (added : Scope) (scope : ScopeId) :
    (heap.addScope added).enclosing? scope =
      if scope = heap.scopes.size then added.enclosing else heap.enclosing? scope := by
  simp only [enclosing?, addScope, Array.getElem?_push]
  split <;> rfl

namespace Rooted

variable {heap : Heap} {root : ScopeId} (rooted : heap.Rooted root)

include rooted

theorem define (scope : ScopeId) (name : String) (value : Value) :
    (heap.define scope name value).Rooted root where
  has := (has_define scope name value).mpr rooted.has
  alone := by rw [enclosing?_define, rooted.alone]
  only other has alone := by
    rw [enclosing?_define] at alone
    exact rooted.only other ((has_define scope name value).mp has) alone
  older other outer around := by
    rw [enclosing?_define] at around
    exact rooted.older other outer around

/-- A new scope is inside of an older one. -/
theorem addScope
    {outer : ScopeId}
    (has : heap.Has (.scope outer))
    (bindings : Bindings Value) :
    (heap.addScope ⟨bindings, some outer⟩).Rooted root where
  has := (has_addScope _).mpr (.inl rooted.has)
  alone := by rw [enclosing?_addScope, if_neg (Nat.ne_of_lt rooted.has), rooted.alone]
  only scope hasAfter alone := by
    rw [enclosing?_addScope] at alone
    split at alone
    · cases alone
    next old =>
      rcases (has_addScope _).mp hasAfter with before | new
      · exact rooted.only scope before alone
      · exact absurd (Entry.scope.inj new) old
  older scope around isAround := by
    rw [enclosing?_addScope] at isAround
    split at isAround
    next new =>
      obtain rfl := Option.some.inj isAround
      rw [new]
      exact has
    · exact rooted.older scope around isAround

theorem of_scopes {other : Heap} (same : other.scopes = heap.scopes) : other.Rooted root where
  has := by
    have has := rooted.has
    unfold Has at has ⊢
    rwa [same]
  alone := by
    have alone := rooted.alone
    unfold enclosing? at alone ⊢
    rwa [same]
  only scope has alone := by
    unfold Has at has
    unfold enclosing? at alone
    rw [same] at has alone
    exact rooted.only scope has alone
  older scope outer around := by
    unfold enclosing? at around
    rw [same] at around
    exact rooted.older scope outer around

variable {scope : ScopeId}

/-- A class is made in a scope, or in one inside of it that holds its superclass. -/
theorem withClass
    (has : heap.Has (.scope scope))
    (name : String)
    (parent : Option ClassId)
    (methods : List FunctionDeclaration) :
    (heap.withClass scope name parent methods).Rooted root := by
  have named := rooted.define scope name .nil
  have around : ((heap.define scope name .nil).withSuperclass scope parent).1.Rooted root := by
    cases parent with
    | none => exact named
    | some parent => exact named.addScope ((has_define _ _ _).mpr has) _
  refine define ?_ _ _ _
  exact around.of_scopes rfl

/-- From every scope a chain leads outwards. -/
theorem exists_chain (has : heap.Has (.scope scope)) : ∃ scopes, heap.Chain scope scopes := by
  induction scope using Nat.strongRecOn with
  | ind scope inductionHypothesis =>
      cases around : heap.enclosing? scope with
      | none => exact ⟨_, .outermost has around⟩
      | some outer =>
          have less := rooted.older scope outer around
          obtain ⟨outers, chain⟩ := inductionHypothesis outer less (Nat.lt_trans less has)
          exact ⟨_, .inside around chain⟩

variable {scopes : List ScopeId} (chain : heap.Chain scope scopes)

include chain

/-- A chain goes to older scopes, and so it repeats none. -/
theorem chain_descends : (∀ passed ∈ scopes, passed ≤ scope) ∧ scopes.Nodup := by
  induction chain with
  | outermost => simp
  | @inside scope outer outers around _ inductionHypothesis =>
      obtain ⟨bound, distinct⟩ := inductionHypothesis
      have below : ∀ passed ∈ outers, passed < scope := fun passed member =>
        Nat.lt_of_le_of_lt (bound passed member) (rooted.older scope outer around)
      refine ⟨List.forall_mem_cons.mpr ⟨Nat.le_refl scope, fun passed member => ?_⟩, ?_⟩
      · exact Nat.le_of_lt (below passed member)
      · exact List.nodup_cons.mpr ⟨fun member => Nat.lt_irrefl scope (below scope member), distinct⟩

/-- A chain ends in the root. -/
theorem chain_ends : scopes.getLast? = some root := by
  induction chain with
  | outermost has alone => rw [rooted.only _ has alone, List.getLast?_singleton]
  | inside around chain inductionHypothesis =>
      cases chain with
      | outermost _ _ => simpa using inductionHypothesis
      | inside _ _ => simpa using inductionHypothesis

end Rooted

end Heap

/-! ## What every act keeps -/

section

variable {root : ScopeId} {task : Task} {start state : State} {progress : Progress}

/-- The scope that an act makes is inside of the current one, or of one that it takes. -/
theorem Act.rooted
    {act : Act}
    (rooted : state.heap.Rooted root)
    (here : state.heap.Has (.scope state.scope))
    (taken : ∀ entry ∈ act.uses, state.heap.Has entry) :
    (act.result state).heap.Rooted root := by
  cases act with
  | define scope name value => exact rooted.define scope name value
  | declareFunction declaration =>
      refine Heap.Rooted.define ?_ _ _ _
      exact rooted.of_scopes rfl
  | declareClass name parent methods => exact rooted.withClass here name parent methods
  | bind method object =>
      have receiving : (state.heap.withReceiver method object).Rooted root :=
        rooted.addScope (taken _ List.mem_cons_self) _
      exact receiving.of_scopes rfl
  | receive method object => exact rooted.addScope (taken _ List.mem_cons_self) _
  | enterBlock => exact rooted.addScope here _
  | activate function arguments => exact rooted.addScope (taken _ List.mem_cons_self) _
  | _ => exact rooted.of_scopes rfl

theorem Course.rooted
    (course : Course task start progress)
    (whole : start.heap.Whole)
    (roots : ∀ entry ∈ task.roots start, start.heap.Has entry)
    (rooted : start.heap.Rooted root) :
    progress.state.heap.Rooted root := by
  induction course with
  | begin => exact rooted
  | learn _ _ inductionHypothesis => exact inductionHypothesis
  | act course _ _ atHand inductionHypothesis =>
      have before := course.whole whole roots
      exact Act.rooted inductionHypothesis (before.has_of_reached course.reached_scope)
        fun entry taken => before.has_of_reached (atHand.reached entry taken)

theorem State.rooted_initial (clock : Clock) :
    (State.initial clock).heap.Rooted (State.initial clock).globals where
  has := Nat.zero_lt_one
  alone := rfl
  only _ has _ := Nat.lt_one_iff.mp has
  older scope outer around := by
    unfold initial at around
    rw [Heap.enclosing?_addScope] at around
    split at around
    · cases around
    · simp [Heap.enclosing?, Heap.empty] at around

/-- In a session the global scope stays what it was, and everything is rooted in it. -/
theorem Visited.rooted
    {clock : Clock}
    {history : List Act}
    (visited : Visited clock history state) :
    state.globals = (State.initial clock).globals ∧ state.heap.Rooted state.globals := by
  induction visited with
  | start => exact ⟨rfl, State.rooted_initial clock⟩
  | settled _ _ inductionHypothesis => exact inductionHypothesis
  | @underway history state task progress before nothing course inductionHypothesis =>
      obtain ⟨whole, scope, globals, -⟩ := before.sound
      have roots : ∀ entry ∈ task.roots state, state.heap.Has entry := by
        simp [Task.roots, nothing, scope, globals]
      rw [course.globals.1]
      exact ⟨inductionHypothesis.1, course.rooted whole roots inductionHypothesis.2⟩

end

/-! ## All through a session -/

section

variable {task : Task} {state after : State} {scope : ScopeId}

/--
A scope that a task holds: the current one, that of a function or method in the heap or of
the function that is called, and any other one that has been made, such as those with `this`
and with `super`.
-/
inductive Task.Holds (task : Task) (state : State) : ScopeId → Prop where
  | current : Holds task state state.scope
  | function {id : FunctionId} {function : Function} :
      state.heap.functions[id]? = some function →
      Holds task state function.closure
  | method {classId : ClassId} {method : Function} :
      state.heap.HasMethod classId method →
      Holds task state method.closure
  | called {scope : ScopeId} :
      .scope scope ∈ task.handed →
      Holds task state scope
  | made {scope : ScopeId} :
      state.heap.Has (.scope scope) →
      Holds task state scope

/--
What holds of the scopes at every state of a session: what is around them is what a map for
the whole session says, nothing is around the global scope, and from every scope that is
held a chain leads to the global scope, without a repetition, along which every access goes.
-/
structure Anchored
    (around : ScopeId → Option ScopeId)
    (globals : ScopeId)
    (task : Task)
    (state : State) :
    Prop where
  links : ∀ scope, state.heap.Has (.scope scope) → state.heap.enclosing? scope = around scope
  same : state.globals = globals
  outermost : state.heap.Has (.scope globals) ∧ state.heap.enclosing? globals = none
  chains :
    ∀ scope, task.Holds state scope →
      ∃ scopes,
        state.heap.Chain scope scopes ∧ scopes.Nodup ∧ scopes.getLast? = some globals ∧
          state.heap.AccessedAlong scope scopes

theorem Grows.has
    {before after : Heap}
    (grows : Grows before after)
    (has : before.Has (.scope scope)) :
    after.Has (.scope scope) := by
  obtain ⟨later, known, -⟩ := grows scope _ (Array.getElem?_eq_getElem has)
  exact (Array.getElem?_eq_some_iff.mp known).1

theorem Visited.anchored
    {clock : Clock}
    {history : List Act}
    {final : Heap}
    (visited : Visited clock history state)
    (grows : Grows state.heap final)
    (handed : ∀ scope : ScopeId, .scope scope ∈ task.handed → state.heap.Has (.scope scope)) :
    Anchored final.enclosing? (State.initial clock).globals task state := by
  obtain ⟨whole, here, -, -⟩ := visited.sound
  obtain ⟨globals, rooted⟩ := visited.rooted
  rw [globals] at rooted
  refine ⟨fun scope has => ?_, globals, ⟨rooted.has, rooted.alone⟩, fun scope holds => ?_⟩
  · exact (grows.enclosing? (Array.getElem?_eq_getElem has)).symm
  · have has : state.heap.Has (.scope scope) := by
      cases holds with
      | current => exact here
      | function known => exact whole.has_closure known
      | method has => exact whole.has_methodClosure has
      | called member => exact handed _ member
      | made has => exact has
    obtain ⟨scopes, chain⟩ := rooted.exists_chain has
    exact ⟨scopes, chain, (rooted.chain_descends chain).2, rooted.chain_ends chain,
      chain.accessedAlong⟩

theorem State.afterRounds_append (state : State) (before rounds : List Round) :
    state.afterRounds (before ++ rounds) = (state.afterRounds before).afterRounds rounds :=
  List.foldl_append

theorem State.grows_afterRounds (state : State) (rounds : List Round) :
    Grows state.heap (state.afterRounds rounds).heap := by
  induction rounds generalizing state with
  | nil => exact .refl state.heap
  | cons round rest inductionHypothesis =>
      have first : Grows state.heap (state.afterRound round).heap :=
        grows_steady.interpret round.fuel round.program { state with distances := round.distances }
      exact first.trans (inductionHypothesis (state.afterRound round))

/-- Behind a task of a program, the program comes to its end, and then others may be run. -/
theorem Reaches.grows_onwards
    {start : State}
    {round : Round}
    (reaches :
      Reaches (.statements round.fuel round.program) { start with distances := round.distances }
        task state)
    (behind : List Round) :
    Grows (endState (task.run state)).heap (start.afterRounds (round :: behind)).heap := by
  have growing : Steady (BetweenHeaps Grows) := grows_steady
  have ended : BetweenHeaps Grows (endState (task.run state)) (start.afterRound round) := by
    rw [State.afterRound, endState_interpret, ← endState_statements]
    exact reaches.ends growing
  exact ended.trans ((start.afterRound round).grows_afterRounds behind)

/--
In every series of programs, whatever distances each of them is run with, one map says for
all states what is around each scope.  At every state in which a task begins or ends, also
behind errors, nothing is around the global scope, and from every scope that is held the
scopes around it lead to the global scope in finitely many steps and without coming back.
So every access by a distance and every search for a name comes to its end.
-/
theorem scopes_anchored (clock : Clock) (rounds : List Round) :
    ∃ around : ScopeId → Option ScopeId,
      ∀ before round behind,
        rounds = before ++ round :: behind →
        ∀ task state,
          Reaches (.statements round.fuel round.program)
              { (State.initial clock).afterRounds before with distances := round.distances }
              task state →
            Anchored around (State.initial clock).globals task state ∧
              Anchored around (State.initial clock).globals task
                (endState (task.run state)) := by
  refine ⟨((State.initial clock).afterRounds rounds).heap.enclosing?, ?_⟩
  rintro before round behind rfl task state reaches
  obtain ⟨_, visited⟩ := visited_afterRounds clock before
  have settled := visited.settled round.distances
  obtain ⟨wholeStart, here, globals, -⟩ := settled.sound
  obtain ⟨progress, course, rfl, handed⟩ := reaches.course
  obtain ⟨later, courseLater, same⟩ := reaches.course_end
  have whole := course.whole wholeStart (by simp [Task.roots, Task.handed, here, globals])
  have taken (scope : ScopeId) (member : .scope scope ∈ task.handed) :
      progress.state.heap.Has (.scope scope) :=
    whole.known _ (handed _ member)
  -- All heaps of the series are compared with the one behind it.
  have ran : Grows progress.state.heap (endState (task.run progress.state)).heap :=
    grows_steady.run task progress.state
  have onwards := reaches.grows_onwards behind
  rw [State.afterRounds_append]
  constructor
  · exact (settled.underway rfl course).anchored (ran.trans onwards) taken
  · rw [← same] at ran onwards ⊢
    exact (settled.underway rfl courseLater).anchored onwards
      fun scope member => ran.has (taken scope member)

/-- A function that is declared outside of the block in which it is called. -/
def outerFunction : FunctionDeclaration :=
  .intro ⟨"f", 1⟩ [] [.expression (.literal .nil)]

/-- The statements `fun f() { nil; } { f(); }`. -/
def outerCall : List Stmt :=
  [.functionDeclaration outerFunction,
    .block [.expression (.call (.reference ⟨0, ⟨"f", 1⟩⟩) [] 1)]]

/-- The scope of the call is inside of the global one, and not of that of the block. -/
theorem scopes_anchored_call :
    ∃ task state around,
      Reaches (.statements 6 outerCall)
          { (State.initial ⟨0⟩).afterRounds [] with distances := .empty } task state ∧
        Anchored around 0 task state ∧
        state.scope = 2 ∧
        around 2 = some 0 ∧ around 1 = some 0 ∧ around 0 = none ∧
        state.heap.AccessedAlong 2 [2, 0] := by
  let rounds : List Round := [⟨.empty, outerCall, 6⟩]
  let begun : State := { (State.initial ⟨0⟩).afterRounds [] with distances := .empty }
  let declared := (Act.declareFunction outerFunction).result begun
  let entered := Act.enterBlock.result declared
  let called := (Act.activate ⟨outerFunction, 0, false⟩ []).result entered
  let body : Task := .statements 2 outerFunction.body
  have found : lookUp 0 ⟨"f", 1⟩ entered = .ok (.functionObject 0) entered := rfl
  have reaches : Reaches (.statements 6 outerCall) begun body called :=
    .inside (.otherStatements rfl) <| .inside .firstStatement <| .inside (.block rfl) <|
      .inside .firstStatement <| .inside .effect <| .inside (.call found rfl rfl) <|
      .inside (.functionBody rfl) .here
  obtain ⟨around, anchored⟩ := scopes_anchored ⟨0⟩ rounds
  obtain ⟨here, -⟩ := anchored [] ⟨.empty, outerCall, 6⟩ [] rfl body called reaches
  have made (scope : ScopeId) (small : scope < 3) : called.heap.Has (.scope scope) := small
  have inner : called.heap.enclosing? 2 = some 0 := rfl
  have chain : called.heap.Chain 2 [2, 0] := .inside inner (.outermost (made 0 (by decide)) rfl)
  refine ⟨body, called, around, reaches, here, rfl, ?_, ?_, ?_, chain.accessedAlong⟩
  · exact (here.links 2 (made 2 (by decide))).symm
  · exact (here.links 1 (made 1 (by decide))).symm
  · exact (here.links 0 (made 0 (by decide))).symm

end

end Lox.Execution
