import Lox.Proofs.Execution.Reachability

namespace Lox.Execution

/-!
# The acts of a run

Whatever a run does to its state, it does by acts of a few kinds: it binds a name, sets
a field, makes something new, or moves to another scope and back.  Here it is said once
which act each task performs, and when.  The course of a run is the series of its acts,
together with what the run has got hold of on the way.
-/

/-! ## Acts -/

/-- One change that a run makes to its state. -/
inductive Act where
  | define (scope : ScopeId) (name : String) (value : Value)
  | setField (object : InstanceId) (name : String) (value : Value)
  | print (text : String)
  | readClock
  | bind (method : Function) (object : InstanceId)
  | declareFunction (declaration : FunctionDeclaration)
  | declareClass
      (name : String)
      (parent : Option ClassId)
      (methods : List FunctionDeclaration)
  | enterBlock
  | activate (function : Function) (arguments : List Value)
  | leave (scope : ScopeId)
  | construct (classId : ClassId)
  | receive (method : Function) (object : InstanceId)

namespace Heap

/-- The heap with a scope for a method in which `this` is an instance. -/
def withReceiver (heap : Heap) (method : Function) (object : InstanceId) : Heap :=
  heap.addScope
    ⟨Bindings.ofList [(receiverName, .instanceObject object)], some method.closure⟩

/-- The heap with what the methods of a class are closed over, which is in it. -/
def withSuperclass (heap : Heap) (scope : ScopeId) : Option ClassId → Heap × ScopeId
  | none => (heap, scope)
  | some parent =>
      (heap.addScope
        ⟨Bindings.ofList [(superclassName, .classObject parent)], some scope⟩,
        heap.scopes.size)

/-- The heap with a class that is declared in a scope. -/
def withClass
    (heap : Heap)
    (scope : ScopeId)
    (name : String)
    (parent : Option ClassId)
    (methods : List FunctionDeclaration) :
    Heap :=
  let (around, closure) := (heap.define scope name .nil).withSuperclass scope parent
  (around.addClass ⟨name, parent, methodTable closure methods⟩).define scope name
    (.classObject around.classes.size)

end Heap

namespace Act

/-- The state after an act. -/
def result (state : State) : Act → State
  | .define scope name value => state.define scope name value
  | .setField object name value =>
      { state with heap := state.heap.setField object name value }
  | .print text => { state with transcript := state.transcript.print text }
  | .readClock => { state with clock := state.clock.next }
  | .bind method object =>
      { state with
        heap :=
          (state.heap.withReceiver method object).addFunction
            { method with closure := state.heap.scopes.size } }
  | .declareFunction declaration =>
      { state with
        heap :=
          (state.heap.addFunction ⟨declaration, state.scope, false⟩).define state.scope
            declaration.name.text (.functionObject state.heap.functions.size) }
  | .declareClass name parent methods =>
      { state with heap := state.heap.withClass state.scope name parent methods }
  | .enterBlock =>
      { state with
        heap := state.heap.addScope ⟨Bindings.empty, some state.scope⟩
        scope := state.heap.scopes.size }
  | .activate function arguments =>
      { state with
        heap :=
          state.heap.addScope
            ⟨Bindings.ofList ((function.declaration.parameters.map (·.text)).zip arguments),
              some function.closure⟩
        scope := state.heap.scopes.size }
  | .leave scope => { state with scope := scope }
  | .construct classId =>
      { state with heap := state.heap.addInstance ⟨classId, Bindings.empty⟩ }
  | .receive method object => { state with heap := state.heap.withReceiver method object }

/-- What must be at hand for an act. -/
def uses : Act → List Entry
  | .define scope _ value => .scope scope :: value.entry?.toList
  | .setField object _ value => .instanceObject object :: value.entry?.toList
  | .print _ => []
  | .readClock => []
  | .bind method object => [.scope method.closure, .instanceObject object]
  | .declareFunction _ => []
  | .declareClass _ parent _ => (parent.map Entry.classObject).toList
  | .enterBlock => []
  | .activate function arguments =>
      .scope function.closure :: arguments.filterMap Value.entry?
  | .leave _ => []
  | .construct classId => [.classObject classId]
  | .receive method object => [.scope method.closure, .instanceObject object]

/-- What an act gives to its run. -/
def gives (state : State) : Act → List Entry
  | .bind _ _ => [.function state.heap.functions.size]
  | .enterBlock => [.scope state.heap.scopes.size]
  | .activate _ _ => [.scope state.heap.scopes.size]
  | .construct _ => [.instanceObject state.heap.instances.size]
  | .receive _ _ => [.scope state.heap.scopes.size]
  | _ => []

end Act

/-- The scope that an assignment writes to. -/
def State.writtenScope? (state : State) (target : Reference) : Option ScopeId :=
  match state.distances.get? target.id with
  | some distance => state.heap.ancestor? distance state.scope
  | none => (state.global? target.name.text).map fun _ => state.globals

/--
A task that was begun in one state performs an act in another one, which it has come to
in between: the acts of each kind of task, in the states in which they come about.
-/
inductive Does : Task → State → State → Act → Prop where
  | assign {fuel target value begun assigned state scope} :
      evaluate fuel value begun = .ok assigned state →
      state.writtenScope? target = some scope →
      Does (.expression (fuel + 1) (.assign target value)) begun state
        (.define scope target.name.text assigned)
  | setProperty {fuel object name value begun owner middle assigned state} :
      evaluate fuel object begun = .ok (.instanceObject owner) middle →
      evaluate fuel value middle = .ok assigned state →
      Does (.expression (fuel + 1) (.setProperty object name value)) begun state
        (.setField owner name.text assigned)
  | property {fuel object name begun owner state method} :
      evaluate fuel object begun = .ok (.instanceObject owner) state →
      state.heap.getField? owner name.text = none →
      state.heap.methodOf? owner name.text = some method →
      Does (.expression (fuel + 1) (.property object name)) begun state (.bind method owner)
  | super {fuel id line name state distance parent object method} :
      state.distances.get? id = some (distance + 1) →
      state.heap.getAt? state.scope (distance + 1) superclassName = some (.classObject parent) →
      state.heap.getAt? state.scope distance receiverName = some (.instanceObject object) →
      state.heap.findMethod? parent name.text = some method →
      Does (.expression (fuel + 1) (.super id line name)) state state (.bind method object)
  | clock {fuel arguments state} :
      Does (.call (fuel + 1) (.native .clock) arguments) state state .readClock
  | print {fuel value begun found state} :
      evaluate fuel value begun = .ok found state →
      Does (.statement (fuel + 1) (.print value)) begun state
        (.print (state.heap.display found))
  | varDeclaration {fuel name state} :
      Does (.statement (fuel + 1) (.varDeclaration name none)) state state
        (.define state.scope name.text .nil)
  | initialized {fuel name value begun found state} :
      evaluate fuel value begun = .ok found state →
      Does (.statement (fuel + 1) (.varDeclaration name (some value))) begun state
        (.define state.scope name.text found)
  | functionDeclaration {fuel declaration state} :
      Does (.statement (fuel + 1) (.functionDeclaration declaration)) state state
        (.declareFunction declaration)
  | baseClass {fuel name methods state} :
      Does (.statement (fuel + 1) (.classDeclaration name none methods)) state state
        (.declareClass name.text none methods)
  | subclass {fuel name parent methods begun id state} :
      evaluate (fuel + 1) (.reference parent) begun = .ok (.classObject id) state →
      Does (.statement (fuel + 1) (.classDeclaration name (some parent) methods)) begun state
        (.declareClass name.text (some id) methods)
  | block {fuel body state} :
      Does (.statement (fuel + 1) (.block body)) state state .enterBlock
  | blockEnd {fuel body begun} :
      Does (.statement (fuel + 1) (.block body)) begun
        (endState (executeAll fuel body (Act.enterBlock.result begun))) (.leave begun.scope)
  | activation {fuel function arguments state} :
      Does (.call (fuel + 1) (.function function) arguments) state state
        (.activate function arguments)
  | callEnd {fuel function arguments begun} :
      Does (.call (fuel + 1) (.function function) arguments) begun
        (endState (executeAll fuel function.declaration.body
          ((Act.activate function arguments).result begun)))
        (.leave begun.scope)
  | construction {fuel classId arguments state} :
      Does (.call (fuel + 1) (.classObject classId) arguments) state state
        (.construct classId)
  | constructor {fuel classId arguments begun method} :
      ((Act.construct classId).result begun).heap.findMethod? classId constructorName =
        some method →
      Does (.call (fuel + 1) (.classObject classId) arguments) begun
        ((Act.construct classId).result begun) (.receive method begun.heap.instances.size)

/-! ## Courses -/

/--
How far a run has come: its acts in order, what it has got hold of, the scopes that have
been current, and its state.
-/
structure Progress where
  acts : List Act
  known : List Entry
  entered : List ScopeId
  state : State

/-- What an act takes is reached from what is at hand, and no new scope is gone back to. -/
structure Act.AtHand (act : Act) (progress : Progress) : Prop where
  reached : ∀ entry ∈ act.uses, progress.state.heap.Reached progress.known entry
  entered : ∀ scope, act = .leave scope → scope ∈ progress.entered

/-- The progress after an act. -/
def Progress.after (progress : Progress) (act : Act) : Progress where
  acts := progress.acts ++ [act]
  known := act.gives progress.state ++ progress.known
  entered := (act.result progress.state).scope :: progress.entered
  state := act.result progress.state

/-- What is reached from something at hand may be got hold of. -/
def Progress.learning (progress : Progress) (entry : Entry) : Progress :=
  { progress with known := entry :: progress.known }

/--
The course of a task: it gets hold of something it can reach, or a task that is reached
from it performs an act.
-/
inductive Course (root : Task) (start : State) : Progress → Prop where
  | begin : Course root start ⟨[], root.roots start, [start.scope], start⟩
  | learn {progress entry} :
      Course root start progress →
      progress.state.heap.Reached progress.known entry →
      Course root start (progress.learning entry)
  | act {progress task begun act} :
      Course root start progress →
      Reaches root start task begun →
      Does task begun progress.state act →
      act.AtHand progress →
      Course root start (progress.after act)

end Lox.Execution
