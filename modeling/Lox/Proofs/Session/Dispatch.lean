import Lox.Proofs.Execution.ClearNames
import Lox.Proofs.Session.Accounts
import Lox.Proofs.Session.SelfTwins

namespace Lox.Session

open Scoping Execution

/-!
# `super` is dispatched statically

Wherever `super` is evaluated, the nearest scope with `this` belongs to a method of one
class, and the method is looked for from the superclass that this class was declared with.
Nothing that a session does changes what these scopes hold.
-/

/-! ## The nearest `this` -/

/--
At an occurrence of a keyword in one of some programs, no scope has `this` that is nearer
than the one with the `this` that is meant.
-/
def ReceiverClear
    (programs : List (List Stmt))
    (levels : List Label)
    (_ : Option String) :
    Deed → Prop
  | .this id _ =>
      ∃ program ∈ programs, ∃ depth,
        ⟨id, receiverName, some depth⟩ ∈ (Scoping.resolve program).settled ∧
          Clear levels receiverName (some depth)
  | .super id _ =>
      ∃ program ∈ programs, ∃ depth,
        ⟨id, superclassName, some (depth + 1)⟩ ∈ (Scoping.resolve program).settled ∧
          Clear levels receiverName (some depth)
  | _ => True

/-- Sessions are their own twins, with nearer scopes clear of the `this` that is meant. -/
def receiverPairing : SelfPairing where
  base := ownOccurrences
  admits := ReceiverClear
  globals := ownOccurrences_globals
  reflexive := ownOccurrences_reflexive
  grows := by
    intro programs program levels initializing deed admitted
    cases deed with
    | this id line =>
        obtain ⟨origin, member, rest⟩ := admitted
        exact ⟨origin, List.mem_cons_of_mem _ member, rest⟩
    | super id line =>
        obtain ⟨origin, member, rest⟩ := admitted
        exact ⟨origin, List.mem_cons_of_mem _ member, rest⟩
    | _ => trivial
  own := by
    intro programs program member proper accepted
    refine ⟨introducedAt program, fun site inSites => ⟨?_, ?_⟩⟩
    · exact fun name declares => mem_introducedBy inSites declares
    · intro levels labelled initializing _
      have faultless :=
        List.findSome?_eq_none_iff.mp (faultless_of_accepted accepted) site inSites
      have sound := sound_statements program proper Place.sound_outermost site inSites
      have clear := clear_of_keyword proper labelled (.inl rfl)
      obtain ⟨place, within, deed⟩ := site
      cases deed with
      | this id line =>
          obtain ⟨depth, known⟩ := sound.receiver (inClass_of_faultless faultless)
          have settled := mem_settled_of_accepted accepted inSites rfl
          exact ⟨program, member, depth, known ▸ settled, known ▸ clear⟩
      | super id line =>
          obtain ⟨depth, _, above, known, -⟩ :=
            sound.exists_receiver (subclass_of_faultless faultless)
          have settled := mem_settled_of_accepted accepted inSites rfl
          exact ⟨program, member, depth, above ▸ settled, known ▸ clear⟩
      | _ => trivial

/--
The nearest scope with `this` has been made for a method of a class and an instance, and
an occurrence stands in the declaration of this method.
-/
def InMethod
    (heap : Heap)
    (scope : ScopeId)
    (id : NodeId)
    (classId : ClassId)
    (object : InstanceId) :
    Prop :=
  ∃ receiving method,
    heap.binder? scope receiverName = some receiving ∧
      heap.Receives receiving classId method object ∧ id ∈ method.declaration.ids

/--
The keyword of a task is evaluated inside of a method of one class, for one instance.
There `this` is the instance, and `super` gives the method that the nearest ancestor of
the class has, bound to the instance; if no ancestor has one, the property is undefined.
-/
def DispatchesStatically (state : State) : Task → Prop
  | .expression (fuel + 1) (.this id line) =>
      ∃ classId object,
        (∀ other receiver, InMethod state.heap state.scope id other receiver ↔
          other = classId ∧ receiver = object) ∧
          Execution.evaluate (fuel + 1) (.this id line) state = .ok (.instanceObject object) state
  | .expression (fuel + 1) (.super id line method) =>
      ∃ classId object made parent ancestors,
        (∀ other receiver, InMethod state.heap state.scope id other receiver ↔
          other = classId ∧ receiver = object) ∧
          state.heap.classes[classId]? = some made ∧ made.superclass = some parent ∧
          state.heap.Lineage parent ancestors ∧
          Execution.evaluate (fuel + 1) (.super id line method) state =
            match ancestors.findSome? (state.heap.ownMethod? · method.text) with
            | some found =>
                .ok (.functionObject state.heap.functions.size)
                  ((Act.bind found object).result state)
            | none => .error (.error (.undefinedProperty method)) state
  | _ => True

section

variable {programs : List (List Stmt)} {session resolved : Session} {program : List Stmt}
  {fuel : Nat} {task : Task} {state : State} {initializing : Option String}
  {distances : Distances} {id : NodeId} {line : Nat}

/-- An occurrence that is settled somewhere is recorded so where it is ready. -/
theorem recorded_of_settled
    (holds : Invariant programs session)
    {recorded : Distances}
    {site : Site}
    (settled : Settled recorded (Resolved programs distances) site)
    {name : String}
    (occurs : site.occurrence? = some (id, name))
    {depth : Option Nat}
    (somewhere : ∃ origin ∈ programs, ⟨id, name, depth⟩ ∈ (Scoping.resolve origin).settled) :
    recorded.get? id = depth := by
  obtain ⟨origin, inPrograms, inOrigin⟩ := somewhere
  obtain ⟨⟨other, inOthers, inOther, -⟩, distance⟩ := settled.recorded id name occurs
  -- No identity is settled in two ways, so the depth that was found is the distance.
  have same := holds.separate origin inPrograms _ inOrigin other inOthers _ inOther rfl
  exact distance.trans (congrArg Settlement.depth same).symm

/-- The `this` that is meant by a keyword is the one of the nearest scope that has any. -/
theorem binder?_of_receiverClear
    {levels : List Label}
    (point : TwinPoint (receiverPairing.pairing programs distances) levels state)
    {depth : Nat}
    (clear : Clear levels receiverName (some depth))
    (bound : state.HasValue depth receiverName) :
    state.heap.binder? state.scope receiverName = state.heap.ancestor? depth state.scope := by
  obtain ⟨labels, twins, layered⟩ := point
  refine binder?_of_clear twins.heap layered clear fun found same => ?_
  obtain rfl := Option.some.inj same
  exact bound

/-- The nearest scope with `this` is the one that a keyword means. -/
theorem binder?_of_this
    (holds : Invariant programs session)
    (ready : TaskReadyIn (Resolved programs distances) state initializing
      (.expression fuel (.this id line)))
    (twins : TaskTwins (receiverPairing.pairing programs distances) state initializing
      (.expression fuel (.this id line))) :
    ∃ depth, state.distances.get? id = some depth ∧ state.HasValue depth receiverName ∧
      state.heap.binder? state.scope receiverName =
        state.heap.ancestor? depth state.scope := by
  obtain ⟨depth, known, bound⟩ := agrees_of_ready (taskReady_iff.mpr ⟨_, ready⟩)
  obtain ⟨place, -, inside⟩ := ready
  obtain ⟨levels, point, both⟩ := twins
  cases both with
  | this _ admitted =>
      obtain ⟨origin, inPrograms, found, inOrigin, clear⟩ := admitted
      have settled := inside.settled _ (List.mem_singleton.mpr rfl)
      have recorded := recorded_of_settled holds settled rfl ⟨origin, inPrograms, inOrigin⟩
      obtain rfl := Option.some.inj (known.symm.trans recorded)
      exact ⟨depth, known, bound, binder?_of_receiverClear point clear bound⟩

theorem binder?_of_super
    {method : Identifier}
    (holds : Invariant programs session)
    (ready : TaskReadyIn (Resolved programs distances) state initializing
      (.expression fuel (.super id line method)))
    (twins : TaskTwins (receiverPairing.pairing programs distances) state initializing
      (.expression fuel (.super id line method))) :
    ∃ depth parent object, state.distances.get? id = some (depth + 1) ∧
      state.heap.getAt? state.scope (depth + 1) superclassName = some (.classObject parent) ∧
      state.heap.getAt? state.scope depth receiverName = some (.instanceObject object) ∧
      state.heap.binder? state.scope receiverName =
        state.heap.ancestor? depth state.scope := by
  obtain ⟨depth, parent, object, known, isClass, isInstance⟩ :=
    agrees_of_ready (taskReady_iff.mpr ⟨_, ready⟩)
  obtain ⟨place, -, inside⟩ := ready
  obtain ⟨levels, point, both⟩ := twins
  cases both with
  | super _ admitted _ _ _ =>
      obtain ⟨origin, inPrograms, found, inOrigin, clear⟩ := admitted
      have settled := inside.settled _ (List.mem_singleton.mpr rfl)
      have recorded := recorded_of_settled holds settled rfl ⟨origin, inPrograms, inOrigin⟩
      obtain rfl : depth = found := by simpa using known.symm.trans recorded
      exact ⟨depth, parent, object, known, isClass, isInstance,
        binder?_of_receiverClear point clear ⟨_, isInstance⟩⟩

/-! ## Keywords that are evaluated -/

theorem lookUp_apply
    {name : Identifier}
    {value : Value}
    (found :
      (match state.distances.get? id with
      | some distance => state.heap.getAt? state.scope distance name.text
      | none => state.global? name.text) = some value) :
    lookUp id name state = .ok value state := by
  unfold lookUp
  rw [bind_of_ok (get_apply state)]
  cases known : state.distances.get? id with
  | some distance =>
      rw [known] at found
      dsimp only at found ⊢
      rw [found]
      rfl
  | none =>
      rw [known] at found
      dsimp only at found ⊢
      rw [found]
      rfl

theorem superMethod_apply
    {method : Identifier}
    {depth : Nat}
    {parent : ClassId}
    {object : InstanceId}
    (known : state.distances.get? id = some (depth + 1))
    (isClass :
      state.heap.getAt? state.scope (depth + 1) superclassName = some (.classObject parent))
    (isInstance :
      state.heap.getAt? state.scope depth receiverName = some (.instanceObject object)) :
    superMethod id line method state =
      match state.heap.findMethod? parent method.text with
      | some found =>
          .ok (.functionObject state.heap.functions.size) ((Act.bind found object).result state)
      | none => .error (.error (.undefinedProperty method)) state := by
  unfold superMethod
  rw [bind_of_ok (get_apply state), known]
  dsimp only
  rw [bind_of_ok (superclassAt_apply isClass), bind_of_ok (receiverInside_apply isInstance),
    bind_of_ok (get_apply state)]
  cases state.heap.findMethod? parent method.text <;> rfl

/-- Where code is at home, the nearest scope with `this` is one of its method alone. -/
theorem inMethod_iff
    {object : InstanceId}
    {ids : List NodeId}
    (dispatching : Dispatching state.heap)
    (home : state.heap.Houses state.scope ids)
    (member : id ∈ ids)
    {receiving : ScopeId}
    (nearest : state.heap.binder? state.scope receiverName = some receiving)
    {classId : ClassId}
    {method : Function}
    (receives : state.heap.Receives receiving classId method object)
    (other : ClassId)
    (receiver : InstanceId) :
    InMethod state.heap state.scope id other receiver ↔
      other = classId ∧ receiver = object := by
  constructor
  · rintro ⟨found, _, isNearest, again, -⟩
    obtain rfl := Option.some.inj (nearest.symm.trans isNearest)
    exact dispatching.receives_unique again receives
  · rintro ⟨rfl, rfl⟩
    obtain ⟨_, inner, _, again, within⟩ := home _ receiving nearest
    obtain ⟨rfl, rfl⟩ := dispatching.receives_unique again receives
    exact ⟨receiving, inner, nearest, again, within member⟩

theorem dispatches_this
    (holds : Invariant programs session)
    (ready : TaskReadyIn (Resolved programs distances) state initializing
      (.expression (fuel + 1) (.this id line)))
    (twins : TaskTwins (receiverPairing.pairing programs distances) state initializing
      (.expression (fuel + 1) (.this id line)))
    (dispatching : Dispatching state.heap)
    (home : (Task.expression (fuel + 1) (.this id line)).Housed state) :
    DispatchesStatically state (.expression (fuel + 1) (.this id line)) := by
  obtain ⟨depth, known, ⟨value, bound⟩, nearest⟩ := binder?_of_this holds ready twins
  obtain ⟨receiving, above, this⟩ := Option.bind_eq_some_iff.mp bound
  obtain ⟨classId, method, object, rfl, receives⟩ := dispatching.receivers receiving value this
  refine ⟨classId, object, inMethod_iff dispatching home (List.mem_singleton.mpr rfl)
    (nearest.trans above) receives, ?_⟩
  rw [Execution.evaluate]
  exact lookUp_apply (by rw [known]; exact bound)

theorem dispatches_super
    {method : Identifier}
    (holds : Invariant programs session)
    (ready : TaskReadyIn (Resolved programs distances) state initializing
      (.expression (fuel + 1) (.super id line method)))
    (twins : TaskTwins (receiverPairing.pairing programs distances) state initializing
      (.expression (fuel + 1) (.super id line method)))
    (dispatching : Dispatching state.heap)
    (home : (Task.expression (fuel + 1) (.super id line method)).Housed state)
    {history : List Act}
    (recorded : Recorded history state) :
    DispatchesStatically state (.expression (fuel + 1) (.super id line method)) := by
  obtain ⟨depth, parent, object, known, isClass, isInstance, nearest⟩ :=
    binder?_of_super holds ready twins
  obtain ⟨receiving, classId, _, made, ancestors, above, receives, isMade, isParent, lineage, -⟩ :=
    dispatching.superclass isClass isInstance
  refine ⟨classId, object, made, parent, ancestors, inMethod_iff dispatching home
    (List.mem_singleton.mpr rfl) (nearest.trans above) receives, isMade, isParent, lineage, ?_⟩
  rw [Execution.evaluate, superMethod_apply known isClass isInstance,
    recorded.methods parent ancestors method.text lineage]

/-! ## All through a session -/

/--
At a state of a session every receiver is of the class of its method or of one that
descends from it, and later states have the same `this` and `super` in the same scopes.
-/
structure ReceiversKept (clock : Clock) (history : List Act) (state : State) : Prop where
  dispatching : Dispatching state.heap
  carries :
    ∀ later after, Passes clock (history ++ later) after → state.heap.Carries after.heap

theorem Passes.receiversKept
    {clock : Clock}
    {history : List Act}
    (passes : Passes clock history state) :
    ReceiversKept clock history state where
  dispatching := passes.accounted.dispatching
  carries later after passesLater := by
    have accounted := passesLater.accounted
    have legible := (List.forall_mem_append.mp accounted.legible).2
    rw [accounted.visited.replay, passes.accounted.visited.replay, State.replay_append]
    exact State.carries_replay legible _

/--
In every session, wherever the run of an accepted program evaluates `this` or `super`, it
is inside of a method of one class, and `super` gives the method that the nearest ancestor
of this class has, bound to what `this` is there, or stops if no ancestor has any.  At all
states of all sessions the receivers of methods are instances of their classes, and what
scopes have as `this` and `super` stays the same.
-/
theorem super_dispatches_statically
    (reachable : Reachable programs session)
    (member : program ∈ programs)
    (accepted : resolve program session = .ok () resolved)
    (reaches : Reaches (.statements fuel program) resolved.state task state) :
    DispatchesStatically state task ∧
      ∃ clock history,
        Passes clock history state ∧
          (∃ later, Passes clock (history ++ later) (endState (task.run state))) ∧
          ∀ history passed, Passes clock history passed →
            ReceiversKept clock history passed := by
  have holds := reachable_invariant reachable
  obtain ⟨initializing, ready, twins⟩ :=
    reached_twins receiverPairing reachable member accepted reaches
  obtain ⟨clock, history, recounts⟩ := reachable.recounts
  obtain ⟨resting, begins⟩ := recounts.resting.atHome reachable member accepted fuel
  have atHome := Task.staysHome _ _ _ begins _ _ reaches
  obtain ⟨progress, later, course, rfl, courseLater, before, ended⟩ := reaches.course_through
  have passes := Passes.underway recounts member accepted course
  have passesLater := Passes.underway recounts member accepted courseLater
  obtain ⟨rest, same⟩ := before.acts
  rw [← same, ← List.append_assoc, ended] at passesLater
  refine ⟨?_, clock, _, passes, ⟨rest, passesLater⟩, fun _ _ passed => passed.receiversKept⟩
  cases task with
  | expression fuel value =>
      cases fuel with
      | zero => trivial
      | succ fuel =>
          cases value with
          | this id line =>
              exact dispatches_this holds ready twins atHome.dispatching atHome.home
          | super id line method =>
              exact dispatches_super holds ready twins atHome.dispatching atHome.home
                passes.accounted.visited.recorded
          | _ => trivial
  | _ => trivial

end

/-- The tokens of `class A { m() {} } class B < A { ctor() { super.m; } } B();`. -/
def superTokens : List Token :=
  let word (text : String) : Token := ⟨.identifier, text, 1⟩
  let keyword (word : Keyword) : Token := ⟨.keyword word, word.spelling, 1⟩
  let symbol (symbol : Symbol) : Token := ⟨.symbol symbol, symbol.spelling, 1⟩
  [keyword .classWord, word "A", symbol .leftBrace,
    word "m", symbol .leftParen, symbol .rightParen, symbol .leftBrace,
    symbol .rightBrace, symbol .rightBrace,
    keyword .classWord, word "B", symbol .less, word "A", symbol .leftBrace,
    word "ctor", symbol .leftParen, symbol .rightParen, symbol .leftBrace,
    keyword .superWord, symbol .dot, word "m",
    symbol .semicolon, symbol .rightBrace, symbol .rightBrace,
    word "B", symbol .leftParen, symbol .rightParen, symbol .semicolon]

/-- The methods of the subclass. -/
def superMethods : List FunctionDeclaration :=
  [.intro ⟨"ctor", 1⟩ [] [.expression (.super 1 1 ⟨"m", 1⟩)]]

/-- A program in which a constructor gets hold of an inherited method. -/
def superProgram : List Stmt :=
  [.classDeclaration ⟨"A", 1⟩ none [.intro ⟨"m", 1⟩ [] []],
    .classDeclaration ⟨"B", 1⟩ (some ⟨0, ⟨"A", 1⟩⟩) superMethods,
    .expression (.call (.reference ⟨2, ⟨"B", 1⟩⟩) [] 1)]

/-- Whether statements are those of the program. -/
def isSuperProgram : List Stmt → Bool
  | [.classDeclaration base none [.intro inherited [] []],
      .classDeclaration derived (some parent)
        [.intro constructor [] [.expression (.super id line method)]],
      .expression (.call (.reference callee) [] closingLine)] =>
      decide (base = ⟨"A", 1⟩ ∧ inherited = ⟨"m", 1⟩ ∧ derived = ⟨"B", 1⟩ ∧
        parent = ⟨0, ⟨"A", 1⟩⟩ ∧ constructor = ⟨"ctor", 1⟩ ∧ id = 1 ∧ line = 1 ∧
        method = ⟨"m", 1⟩ ∧ callee = ⟨2, ⟨"B", 1⟩⟩ ∧ closingLine = 1)
  | _ => false

theorem eq_of_isSuperProgram {program : List Stmt} (same : isSuperProgram program = true) :
    program = superProgram := by
  unfold isSuperProgram at same
  split at same
  · obtain ⟨rfl, rfl, rfl, rfl, rfl, rfl, rfl, rfl, rfl, rfl⟩ := of_decide_eq_true same
    rfl
  · cases same

/-- In a new session the run of the program comes to the keyword. -/
theorem superProgram_reaches
    (begun : State)
    (heap : begun.heap = (State.initial ⟨0⟩).heap)
    (globals : begun.globals = 0)
    (scope : begun.scope = 0)
    (parent : begun.distances.get? 0 = none)
    (callee : begun.distances.get? 2 = none) :
    ∃ state,
      Reaches (.statements 6 superProgram) begun (.expression 1 (.super 1 1 ⟨"m", 1⟩)) state := by
  obtain ⟨_, _, _, distances, transcript, clock⟩ := begun
  obtain rfl := heap
  obtain rfl := globals
  obtain rfl := scope
  let begun : State := ⟨(State.initial ⟨0⟩).heap, 0, 0, distances, transcript, clock⟩
  let base := (Act.declareClass "A" none [.intro ⟨"m", 1⟩ [] []]).result begun
  let derived := (Act.declareClass "B" (some 0) superMethods).result base
  let made := (Act.construct 1).result derived
  have isBase : base.global? "A" = some (.classObject 0) := by
    have found : ((State.initial ⟨0⟩).heap.withClass 0 "A" none
        [.intro ⟨"m", 1⟩ [] []]).getLocal? 0 "A" = some (.classObject 0) := by decide +kernel
    exact found
  have isDerived : derived.global? "B" = some (.classObject 1) := by
    have found : (((State.initial ⟨0⟩).heap.withClass 0 "A" none
        [.intro ⟨"m", 1⟩ [] []]).withClass 0 "B" (some 0) superMethods).getLocal? 0 "B" =
          some (.classObject 1) := by decide +kernel
    exact found
  have lookedUp : lookUp 0 ⟨"A", 1⟩ base = .ok (.classObject 0) base :=
    lookUp_apply (by
      rw [show base.distances.get? 0 = none from parent]
      exact isBase)
  have parentFound : superclassOf ⟨0, ⟨"A", 1⟩⟩ base = .ok 0 base := by
    unfold superclassOf
    rw [bind_of_ok lookedUp]
    rfl
  have declared :
      Execution.execute 6
          (.classDeclaration ⟨"B", 1⟩ (some ⟨0, ⟨"A", 1⟩⟩) superMethods) base =
        .ok () derived := by
    rw [Execution.execute, declareClass_some, bind_of_ok parentFound]
    rfl
  have calleeFound : Execution.evaluate 4 (.reference ⟨2, ⟨"B", 1⟩⟩) derived =
      .ok (.classObject 1) derived :=
    lookUp_apply (by
      rw [show derived.distances.get? 2 = none from callee]
      exact isDerived)
  have called : calleeFor (.classObject 1) 0 1 derived = .ok (.classObject 1) derived := rfl
  have constructor : made.heap.findMethod? 1 constructorName =
      some ⟨.intro ⟨"ctor", 1⟩ [] [.expression (.super 1 1 ⟨"m", 1⟩)], 1, true⟩ := rfl
  exact ⟨_, .inside (.otherStatements rfl) <| .inside (.otherStatements declared) <|
    .inside .firstStatement <| .inside .effect <| .inside (.call calleeFound rfl called) <|
    .inside (.construction rfl constructor rfl) <| .inside (.functionBody rfl) <|
    .inside .firstStatement <| .inside .effect .here⟩

/-- Recording distances has to do with nothing else. -/
theorem recording_apart (session : Session) (program : List Stmt) :
    let recorded := session.recording program
    recorded.state.heap = session.state.heap ∧
      recorded.state.globals = session.state.globals ∧
      recorded.state.scope = session.state.scope :=
  ⟨rfl, rfl, rfl⟩

/-- The constructor gets hold of what the superclass of its class has. -/
theorem super_dispatches_statically_constructor :
    ∃ session resolved state,
      Reachable [superProgram] session ∧
        resolve superProgram session = .ok () resolved ∧
        Reaches (.statements 6 superProgram) resolved.state
          (.expression 1 (.super 1 1 ⟨"m", 1⟩)) state ∧
        DispatchesStatically state (.expression 1 (.super 1 1 ⟨"m", 1⟩)) := by
  have faultless : (Grammar.readProgram (Grammar.Reader.start superTokens 0)).errors = [] :=
    List.isEmpty_iff.mp (by decide +kernel)
  have legible : Grammar.LegibleTokens superTokens := by
    unfold Grammar.LegibleTokens
    decide
  obtain ⟨session, fresh, parsed⟩ : ∃ session : Session, session.state = State.initial ⟨0⟩ ∧
      parseTokens Grammar.program superTokens (start ⟨0⟩) = .ok superProgram session := by
    have read : (Grammar.readProgram (Grammar.Reader.start superTokens 0)).statements =
        superProgram :=
      eq_of_isSuperProgram (by decide +kernel)
    have parsed := parseTokens_of_faultless faultless ⟨0⟩
    dsimp only at parsed
    rw [read] at parsed
    exact ⟨_, rfl, parsed⟩
  have reachable := Reachable.parsed (.start ⟨0⟩) legible parsed
  have verdict : (Scoping.resolve superProgram).verdict = .ok () := by
    decide +kernel
  have accepted : resolve superProgram session = .ok () (session.recording superProgram) := by
    rw [resolve_apply, verdict]
  have settledParent : ⟨0, "A", none⟩ ∈ (Scoping.resolve superProgram).settled := by
    decide +kernel
  have settledCallee : ⟨2, "B", none⟩ ∈ (Scoping.resolve superProgram).settled := by
    decide +kernel
  have holds := reachable_invariant reachable
  have parent := holds.recorded_now List.mem_cons_self settledParent
  have callee := holds.recorded_now List.mem_cons_self settledCallee
  obtain ⟨heap, globals, scope⟩ := recording_apart session superProgram
  rw [fresh] at heap globals scope
  obtain ⟨state, reaches⟩ := superProgram_reaches _ heap globals scope parent callee
  exact ⟨session, session.recording superProgram, state, reachable, accepted, reaches,
    (super_dispatches_statically reachable List.mem_cons_self accepted reaches).1⟩

end Lox.Session
