import Lox.Proofs.Correspondence
import Lox.Proofs.Execution.Endings
import Lox.Proofs.Execution.TwinStates
import Lox.Proofs.Syntax.Copies

namespace Lox.Execution

/-!
# States of runs of copies

Two runs of copies of a program make the same scopes, classes, functions and instances
in the same order, and values are the same in both.  Only the trees that functions keep
differ, as copies do, and so do the identities under which distances are recorded.
-/

variable (matching : Matching)

/-! ## Exits -/

/-- Type faults of one kind, on lines that stand for each other. -/
inductive TypeFaultCopies : TypeFault → TypeFault → Prop where
  | operandNotNumber {line line'} :
      matching.lines line line' →
      TypeFaultCopies (.operandNotNumber line) (.operandNotNumber line')
  | operandsNotNumbers {operator line line'} :
      matching.lines line line' →
      TypeFaultCopies (.operandsNotNumbers operator line) (.operandsNotNumbers operator line')
  | operandsNotAddable {line line'} :
      matching.lines line line' →
      TypeFaultCopies (.operandsNotAddable line) (.operandsNotAddable line')
  | notCallable {line line'} :
      matching.lines line line' →
      TypeFaultCopies (.notCallable line) (.notCallable line')
  | propertyOfNonInstance {name name'} :
      IdentifierCopies matching name name' →
      TypeFaultCopies (.propertyOfNonInstance name) (.propertyOfNonInstance name')
  | fieldOfNonInstance {name name'} :
      IdentifierCopies matching name name' →
      TypeFaultCopies (.fieldOfNonInstance name) (.fieldOfNonInstance name')
  | superclassNotClass {name name'} :
      IdentifierCopies matching name name' →
      TypeFaultCopies (.superclassNotClass name) (.superclassNotClass name')
  | returnOutsideFunction {line line'} :
      matching.lines line line' →
      TypeFaultCopies (.returnOutsideFunction line) (.returnOutsideFunction line')

/-- Runtime errors of one kind, on lines that stand for each other. -/
inductive RuntimeErrorCopies : RuntimeError → RuntimeError → Prop where
  | undefinedVariable {name name'} :
      IdentifierCopies matching name name' →
      RuntimeErrorCopies (.undefinedVariable name) (.undefinedVariable name')
  | undefinedProperty {name name'} :
      IdentifierCopies matching name name' →
      RuntimeErrorCopies (.undefinedProperty name) (.undefinedProperty name')
  | typeFault {fault fault'} :
      TypeFaultCopies matching fault fault' →
      RuntimeErrorCopies (.typeFault fault) (.typeFault fault')
  | divisionByZero {line line'} :
      matching.lines line line' →
      RuntimeErrorCopies (.divisionByZero line) (.divisionByZero line')
  | arityMismatch {expected got line line'} :
      matching.lines line line' →
      RuntimeErrorCopies (.arityMismatch expected got line) (.arityMismatch expected got line')

/-- Exits of one kind with the same value, on lines that stand for each other. -/
inductive ExitCopies : Exit → Exit → Prop where
  | error {error error'} :
      RuntimeErrorCopies matching error error' →
      ExitCopies (.error error) (.error error')
  | returned {line line' value} :
      matching.lines line line' →
      ExitCopies (.returned line value) (.returned line' value)
  | mismatch {found} : ExitCopies (.mismatch found) (.mismatch found)
  | exhausted : ExitCopies .exhausted .exhausted

/-! ## Heaps and states -/

/-- Functions made in one scope from copies of a declaration. -/
structure ClosureCopies (left right : Function) : Prop where
  declaration : FunctionCopies matching left.declaration right.declaration
  closure : left.closure = right.closure
  isConstructor : left.isConstructor = right.isConstructor

/-- Entries of method tables under one name. -/
structure MethodCopies (left right : String × Function) : Prop where
  name : left.1 = right.1
  method : ClosureCopies matching left.2 right.2

/-- Classes made from copies of a declaration. -/
structure ClassCopies (left right : Class) : Prop where
  name : left.name = right.name
  superclass : left.superclass = right.superclass
  methods : List.Forall₂ (MethodCopies matching) left.methods.entries right.methods.entries

/-- Heaps of runs of copies. -/
structure HeapCopies (left right : Heap) : Prop where
  scopes : left.scopes = right.scopes
  functions : Aligned (ClosureCopies matching) left.functions right.functions
  classes : Aligned (ClassCopies matching) left.classes right.classes
  instances : left.instances = right.instances

/-- States of runs of copies. -/
structure StateCopies (left right : State) : Prop where
  heap : HeapCopies matching left.heap right.heap
  globals : left.globals = right.globals
  scope : left.scope = right.scope
  distances :
    ∀ {id id'}, matching.ids id id' →
      left.distances.get? id = right.distances.get? id'
  transcript : left.transcript = right.transcript
  clock : left.clock = right.clock

/-- Callees that were made from copies. -/
inductive CalleeCopies : Callee → Callee → Prop where
  | native {function} : CalleeCopies (.native function) (.native function)
  | function {first second} :
      ClosureCopies matching first second →
      CalleeCopies (.function first) (.function second)
  | classObject {id} : CalleeCopies (.classObject id) (.classObject id)

variable {matching}

/-! ## Method tables -/

/-- Copies of a method are found under its name, or none on both sides. -/
theorem find?_copies
    {left right : List (String × Function)}
    (copies : List.Forall₂ (MethodCopies matching) left right)
    (name : String) :
    Option.Rel (ClosureCopies matching) (Bindings.find? name left)
      (Bindings.find? name right) := by
  induction copies with
  | nil => exact .none
  | @cons first second _ _ same _ inductionHypothesis =>
      unfold Bindings.find?
      rw [same.name]
      split
      · exact .some same.method
      · exact inductionHypothesis

/-- A method table stays a copy where copies of one method are put under one name. -/
theorem replace_copies
    {left right : List (String × Function)}
    (copies : List.Forall₂ (MethodCopies matching) left right)
    {name : String}
    {method method' : Function}
    (same : ClosureCopies matching method method') :
    List.Forall₂ (MethodCopies matching) (Bindings.replace name method left)
      (Bindings.replace name method' right) := by
  induction copies with
  | nil => exact .cons ⟨rfl, same⟩ .nil
  | @cons first second rest rest' head others inductionHypothesis =>
      unfold Bindings.replace
      rw [head.name]
      split
      · exact .cons ⟨rfl, same⟩ others
      · exact .cons ⟨rfl, head.method⟩ inductionHypothesis

/-- Copies of methods that are put into tables one after another. -/
theorem insertAll_copies
    {methods methods' : List (String × Function)}
    (copies : List.Forall₂ (MethodCopies matching) methods methods')
    {table table' : Bindings Function}
    (before : List.Forall₂ (MethodCopies matching) table.entries table'.entries) :
    List.Forall₂ (MethodCopies matching)
      (methods.foldl (fun table entry => table.insert entry.1 entry.2) table).entries
      (methods'.foldl (fun table entry => table.insert entry.1 entry.2) table').entries := by
  induction copies generalizing table table' with
  | nil => exact before
  | cons same _ inductionHypothesis =>
      refine inductionHypothesis ?_
      dsimp only [Bindings.insert]
      rw [same.name]
      exact replace_copies before same.method

/-- The method tables of copies of a class. -/
theorem methodTable_copies
    {methods methods' : List FunctionDeclaration}
    (copies : List.Forall₂ (FunctionCopies matching) methods methods')
    (closure : ScopeId) :
    List.Forall₂ (MethodCopies matching) (methodTable closure methods).entries
      (methodTable closure methods').entries := by
  refine insertAll_copies ?_ .nil
  refine List.forall₂_map_left_iff.mpr (List.forall₂_map_right_iff.mpr ?_)
  refine copies.imp fun declaration declaration' same => ⟨same.name, same, rfl, ?_⟩
  dsimp only
  rw [same.name]

/-! ## What heaps of copies hold -/

namespace HeapCopies

variable {left right : Heap}

/-- Copies of a scope bind the same names to the same values. -/
theorem getLocal? (copies : HeapCopies matching left right) (scope : ScopeId) (name : String) :
    left.getLocal? scope name = right.getLocal? scope name := by
  unfold Heap.getLocal?
  rw [copies.scopes]

/-- Copies of a heap have the same scopes around a scope. -/
theorem ancestor? (copies : HeapCopies matching left right) (distance : Nat) (scope : ScopeId) :
    left.ancestor? distance scope = right.ancestor? distance scope := by
  induction distance generalizing scope with
  | zero => rfl
  | succ distance inductionHypothesis =>
      unfold Heap.ancestor? Heap.enclosing?
      rw [copies.scopes]
      split
      · exact inductionHypothesis _
      · rfl

/-- Copies of a heap bind a name alike so many scopes away. -/
theorem getAt?
    (copies : HeapCopies matching left right)
    (scope : ScopeId)
    (distance : Nat)
    (name : String) :
    left.getAt? scope distance name = right.getAt? scope distance name := by
  unfold Heap.getAt?
  rw [copies.ancestor?]
  cases right.ancestor? distance scope with
  | none => rfl
  | some outer => exact copies.getLocal? outer name

/-- Copies of a heap have tables that are read alike. -/
theorem tables (copies : HeapCopies matching left right) :
    TablesAlike (ClosureCopies matching) (ClosureCopies matching) left right where
  functions := copies.functions
  classes := copies.classes.imp fun _ _ same =>
    ⟨same.name, same.superclass, find?_copies same.methods⟩
  instances := copies.instances

/-- Both runs find copies of one method. -/
theorem findMethod?
    (copies : HeapCopies matching left right)
    (classId : ClassId)
    (name : String) :
    Option.Rel (ClosureCopies matching) (left.findMethod? classId name)
      (right.findMethod? classId name) :=
  copies.tables.findMethod? classId name

/-- Copies of a method are found for one instance, or none on both sides. -/
theorem methodOf?
    (copies : HeapCopies matching left right)
    (object : InstanceId)
    (name : String) :
    Option.Rel (ClosureCopies matching) (left.methodOf? object name)
      (right.methodOf? object name) :=
  copies.tables.methodOf? object name

/-- Both runs print the same text for a value. -/
theorem display (copies : HeapCopies matching left right) (value : Value) :
    left.display value = right.display value :=
  copies.tables.display (fun _ _ functions => functions.declaration.name) value

/-- Copies of what is called are found for one value, or neither can be called. -/
theorem callee? (copies : HeapCopies matching left right) (value : Value) :
    Option.Rel (CalleeCopies matching) (left.callee? value) (right.callee? value) := by
  refine rel_imp (copies.tables.callee? value) fun _ _ same => ?_
  cases same with
  | native => exact .native
  | function functions => exact .function functions
  | classObject => exact .classObject

/-- Copies of a callee take as many arguments. -/
theorem arity
    (copies : HeapCopies matching left right)
    {callee callee' : Callee}
    (same : CalleeCopies matching callee callee') :
    left.arity callee = right.arity callee' := by
  refine copies.tables.arity (fun _ _ functions => functions.declaration.arity)
    (fun _ _ methods => methods.declaration.arity) ?_
  cases same with
  | native => exact .native
  | function functions => exact .function functions
  | classObject => exact .classObject

end HeapCopies

/-! ## Steps -/

/-- Actions that end alike from states of runs of copies. -/
abbrev Mirror {α : Type} (matching : Matching) (values : α → α → Prop)
    (first second : Eval α) : Prop :=
  Mirrors (StateCopies matching) (ExitCopies matching) values first second

/-- Copies of an error are raised alike. -/
theorem raise_mirror
    {α : Type}
    {values : α → α → Prop}
    {error error' : RuntimeError}
    (same : RuntimeErrorCopies matching error error') :
    Mirror matching values (raise error) (raise error') :=
  .throw (.error same)

/-- An action of which only the heap of the state is changed. -/
theorem StateCopies.withHeap
    {left right : State}
    (copies : StateCopies matching left right)
    {heap heap' : Heap}
    (changed : HeapCopies matching heap heap') :
    StateCopies matching { left with heap := heap } { right with heap := heap' } :=
  { copies with heap := changed }

/-- The same binding is made in copies of a state. -/
theorem StateCopies.define
    {left right : State}
    (copies : StateCopies matching left right)
    (scope : ScopeId)
    (name : String)
    (value : Value) :
    StateCopies matching (left.define scope name value) (right.define scope name value) :=
  copies.withHeap { copies.heap with scopes := by simp [Heap.define, copies.heap.scopes] }

/-- Copies of a heap give a new scope the same place. -/
theorem newScope_mirror (bindings : Bindings Value) (enclosing : ScopeId) :
    Mirror matching Eq (newScope bindings enclosing) (newScope bindings enclosing) :=
  .modifyGet fun _ _ copies =>
    ⟨congrArg Array.size copies.heap.scopes,
      copies.withHeap { copies.heap with
        scopes := by simp [Heap.addScope, copies.heap.scopes] }⟩

/-- Copies of a function are put at the same place. -/
theorem newFunction_mirror
    {function function' : Function}
    (same : ClosureCopies matching function function') :
    Mirror matching Eq (newFunction function) (newFunction function') :=
  .modifyGet fun _ _ copies =>
    ⟨congrArg Value.functionObject copies.heap.functions.size,
      copies.withHeap { copies.heap with functions := copies.heap.functions.push same }⟩

/-- Copies of a class are put at the same place. -/
theorem newClass_mirror
    {declared declared' : Class}
    (same : ClassCopies matching declared declared') :
    Mirror matching Eq (newClass declared) (newClass declared') :=
  .modifyGet fun _ _ copies =>
    ⟨congrArg Value.classObject copies.heap.classes.size,
      copies.withHeap { copies.heap with classes := copies.heap.classes.push same }⟩

theorem newInstance_mirror (classId : ClassId) :
    Mirror matching Eq (newInstance classId) (newInstance classId) :=
  .modifyGet fun _ _ copies =>
    ⟨congrArg Array.size copies.heap.instances,
      copies.withHeap { copies.heap with
        instances := by simp [Heap.addInstance, copies.heap.instances] }⟩

theorem defineHere_mirror (name : String) (value : Value) :
    Mirror matching Eq (defineHere name value) (defineHere name value) :=
  .modify fun _ right copies => by
    rw [copies.scope]
    exact copies.define right.scope name value

theorem writeField_mirror (object : InstanceId) (name : String) (value : Value) :
    Mirror matching Eq (writeField object name value) (writeField object name value) :=
  .modify fun _ _ copies =>
    copies.withHeap { copies.heap with
      instances := by simp [Heap.setField, copies.heap.instances] }

theorem printValue_mirror (value : Value) :
    Mirror matching Eq (printValue value) (printValue value) :=
  .modify fun _ _ copies =>
    { copies with
      transcript := by rw [copies.transcript, copies.heap.display] }

theorem readClock_mirror : Mirror matching Eq readClock readClock :=
  .modifyGet fun _ _ copies =>
    ⟨congrArg (fun clock : Clock => Value.number clock.seconds) copies.clock,
      { copies with clock := congrArg Clock.next copies.clock }⟩

/-! ## Variables -/

/-- The global variables have the same values in copies of a state. -/
theorem StateCopies.global?
    {left right : State}
    (copies : StateCopies matching left right)
    (name : String) :
    left.global? name = right.global? name := by
  unfold State.global?
  rw [copies.globals, copies.heap.getLocal?]

/-- Both runs look a variable up at the same distance, under the same name. -/
theorem lookUp_mirror
    {occurrence occurrence' : Reference}
    (same : ReferenceCopies matching occurrence occurrence') :
    Mirror matching Eq (lookUp occurrence.id occurrence.name)
      (lookUp occurrence'.id occurrence'.name) := by
  refine .get fun left right copies => ?_
  dsimp only
  rw [copies.distances same.id, copies.scope, same.name.text]
  cases right.distances.get? occurrence'.id with
  | none =>
      dsimp only
      rw [copies.global?]
      cases right.global? occurrence'.name.text with
      | none => exact raise_mirror (.undefinedVariable same.name)
      | some value => exact .pure rfl
  | some distance =>
      dsimp only
      rw [copies.heap.getAt?]
      cases right.heap.getAt? right.scope distance occurrence'.name.text with
      | none => exact raise_mirror (.undefinedVariable same.name)
      | some value => exact .pure rfl

/-- Copies of a target are assigned to in the same scope. -/
theorem assignTo_mirror
    {target target' : Reference}
    (same : ReferenceCopies matching target target')
    (value : Value) :
    Mirror matching Eq (assignTo target value) (assignTo target' value) := by
  intro left right copies
  unfold assignTo
  dsimp only
  rw [copies.distances same.id, copies.scope, same.name.text, copies.global?,
    copies.globals]
  cases right.distances.get? target'.id with
  | none =>
      cases right.global? target'.name.text with
      | none => exact .error (.error (.undefinedVariable same.name)) copies
      | some old => exact .ok rfl (copies.define _ _ value)
  | some distance =>
      dsimp only
      rw [copies.heap.ancestor?]
      cases right.heap.ancestor? distance right.scope with
      | none => exact .error (.error (.undefinedVariable same.name)) copies
      | some scope => exact .ok rfl (copies.define _ _ value)

/-! ## Methods and properties -/

/-- Copies of a method are bound to one instance in scopes at the same place. -/
theorem bindMethod_mirror
    {method method' : Function}
    (same : ClosureCopies matching method method')
    (object : InstanceId) :
    Mirror matching (ClosureCopies matching) (bindMethod method object)
      (bindMethod method' object) := by
  unfold bindMethod
  rw [same.closure]
  refine (newScope_mirror _ _).bind ?_
  rintro scope _ rfl
  exact .pure ⟨same.declaration, rfl, same.isConstructor⟩

/-- Copies of a method are bound to one instance by functions at the same place. -/
theorem boundValue_mirror
    {method method' : Function}
    (same : ClosureCopies matching method method')
    (object : InstanceId) :
    Mirror matching Eq (boundValue method object) (boundValue method' object) :=
  (bindMethod_mirror same object).bind fun _ _ bound => newFunction_mirror bound

/-- Both runs bind copies of the method that they have found, if they have found one. -/
theorem methodFound_mirror
    {found found' : Option Function}
    {name name' : Identifier}
    (sameName : IdentifierCopies matching name name')
    (object : InstanceId) :
    Option.Rel (ClosureCopies matching) found found' →
      Mirror matching Eq
        (match found with
        | some method => boundValue method object
        | none => raise (.undefinedProperty name))
        (match found' with
        | some method => boundValue method object
        | none => raise (.undefinedProperty name')) := by
  intro same
  cases same with
  | none => exact raise_mirror (.undefinedProperty sameName)
  | some methods => exact boundValue_mirror methods object

/-- Copies of a property are read alike, or missing on lines that stand for each other. -/
theorem propertyOf_mirror
    {name name' : Identifier}
    (same : IdentifierCopies matching name name')
    (object : Value) :
    Mirror matching Eq (propertyOf object name) (propertyOf object name') := by
  cases object with
  | instanceObject id =>
      refine .get fun left right copies => ?_
      dsimp only [Heap.getField?]
      rw [copies.heap.instances, same.text]
      cases right.heap.instances[id]?.bind (·.fields.get? name'.text) with
      | some value => exact .pure rfl
      | none => exact methodFound_mirror same id (copies.heap.methodOf? id name'.text)
  | _ => exact raise_mirror (.typeFault (.propertyOfNonInstance same))

/-- Copies of an access to a field find the same instance, or are rejected alike. -/
theorem fieldOwner_mirror
    {name name' : Identifier}
    (same : IdentifierCopies matching name name')
    (object : Value) :
    Mirror matching Eq (fieldOwner object name) (fieldOwner object name') := by
  cases object with
  | instanceObject id => exact .pure rfl
  | _ => exact raise_mirror (.typeFault (.fieldOfNonInstance same))

/-! ## Superclasses -/

/-- The superclass is found at the same distance in copies of a state. -/
theorem superclassAt_mirror (distance : Nat) :
    Mirror matching Eq (superclassAt distance) (superclassAt distance) := by
  refine .get fun left right copies => ?_
  rw [copies.heap.getAt?, copies.scope]
  split
  · exact .pure rfl
  · exact .throw .mismatch

/-- The receiver is found at the same distance in copies of a state. -/
theorem receiverInside_mirror (distance : Nat) :
    Mirror matching Eq (receiverInside distance) (receiverInside distance) := by
  refine .get fun left right copies => ?_
  cases distance with
  | zero => exact .throw .mismatch
  | succ nearer =>
      dsimp only
      rw [copies.heap.getAt?, copies.scope]
      split
      · exact .pure rfl
      · exact .throw .mismatch

/-- Copies of an access to a superclass find the same class and bind copies of its method. -/
theorem superMethod_mirror
    {id id' : NodeId}
    {line line' : Nat}
    {method method' : Identifier}
    (same : matching.ids id id')
    (lines : matching.lines line line')
    (sameName : IdentifierCopies matching method method') :
    Mirror matching Eq (superMethod id line method) (superMethod id' line' method') := by
  refine .get fun left right copies => ?_
  rw [copies.distances same]
  cases right.distances.get? id' with
  | none => exact raise_mirror (.undefinedVariable ⟨rfl, lines⟩)
  | some distance =>
      refine (superclassAt_mirror distance).bind ?_
      rintro parent _ rfl
      refine (receiverInside_mirror distance).bind ?_
      rintro object _ rfl
      refine .get fun later later' further => ?_
      rw [sameName.text]
      exact methodFound_mirror sameName object (further.heap.findMethod? parent method'.text)

/-- Copies of a superclass are the same class, or rejected alike. -/
theorem superclassOf_mirror
    {parent parent' : Reference}
    (same : ReferenceCopies matching parent parent') :
    Mirror matching Eq (superclassOf parent) (superclassOf parent') := by
  refine (lookUp_mirror same).bind ?_
  rintro value _ rfl
  cases value with
  | classObject id => exact .pure rfl
  | _ => exact raise_mirror (.typeFault (.superclassNotClass same.name))

/-! ## Declarations -/

/-- Copies of a function are declared at the same place. -/
theorem declareFunction_mirror
    {declaration declaration' : FunctionDeclaration}
    (same : FunctionCopies matching declaration declaration') :
    Mirror matching Eq (declareFunction declaration) (declareFunction declaration') := by
  refine .get fun left right copies => ?_
  have functions : ClosureCopies matching ⟨declaration, left.scope, false⟩
      ⟨declaration', right.scope, false⟩ :=
    ⟨same, copies.scope, rfl⟩
  refine (newFunction_mirror functions).bind ?_
  rintro function _ rfl
  rw [same.name]
  exact defineHere_mirror _ function

/-- Copies of a class are made and bound at the same place. -/
theorem defineClass_mirror
    {methods methods' : List FunctionDeclaration}
    (same : List.Forall₂ (FunctionCopies matching) methods methods')
    (name : String)
    (superclass : Option ClassId)
    (closure : ScopeId) :
    Mirror matching Eq
      (newClass ⟨name, superclass, methodTable closure methods⟩ >>= defineHere name)
      (newClass ⟨name, superclass, methodTable closure methods'⟩ >>= defineHere name) := by
  have classes : ClassCopies matching ⟨name, superclass, methodTable closure methods⟩
      ⟨name, superclass, methodTable closure methods'⟩ :=
    ⟨rfl, rfl, methodTable_copies same closure⟩
  refine (newClass_mirror classes).bind ?_
  rintro declared _ rfl
  exact defineHere_mirror name declared

/-- Copies of a class are declared at the same place, with the same superclass. -/
theorem declareClass_mirror
    {name name' : Identifier}
    {superclass superclass' : Option Reference}
    {methods methods' : List FunctionDeclaration}
    (sameName : IdentifierCopies matching name name')
    (inherits : Option.Rel (ReferenceCopies matching) superclass superclass')
    (same : List.Forall₂ (FunctionCopies matching) methods methods') :
    Mirror matching Eq (declareClass name superclass methods)
      (declareClass name' superclass' methods') := by
  cases inherits with
  | none =>
      rw [declareClass_none, declareClass_none, sameName.text]
      refine (defineHere_mirror _ _).bind fun _ _ _ => ?_
      refine .get fun left right copies => ?_
      rw [copies.scope]
      exact defineClass_mirror same _ _ _
  | some parents =>
      rw [declareClass_some, declareClass_some, sameName.text]
      refine (superclassOf_mirror parents).bind ?_
      rintro id _ rfl
      refine (defineHere_mirror _ _).bind fun _ _ _ => ?_
      refine .get fun left right copies => ?_
      rw [copies.scope]
      refine (newScope_mirror _ _).bind ?_
      rintro closure _ rfl
      exact defineClass_mirror same _ _ _

/-! ## Calls -/

/-- Calls of copies of a function are begun in scopes at the same place. -/
theorem activate_mirror
    {function function' : Function}
    (same : ClosureCopies matching function function')
    (arguments : List Value) :
    Mirror matching Eq (activate function arguments) (activate function' arguments) := by
  unfold activate
  rw [same.closure, same.declaration.parameterNames]
  exact newScope_mirror _ _

/-- Calls of copies of a function give the same value. -/
theorem callResult_mirror
    {function function' : Function}
    (same : ClosureCopies matching function function')
    (result : Value) :
    Mirror matching Eq (callResult function result) (callResult function' result) := by
  unfold callResult
  rw [same.isConstructor, same.closure]
  split
  · refine .get fun left right copies => .pure ?_
    rw [copies.heap.getLocal?]
  · exact .pure rfl

/-- The same values can be called with so many arguments in copies of a state. -/
theorem calleeFor_mirror
    {line line' : Nat}
    (lines : matching.lines line line')
    (subject : Value)
    (count : Nat) :
    Mirror matching (CalleeCopies matching) (calleeFor subject count line)
      (calleeFor subject count line') := by
  refine .get fun left right copies => ?_
  dsimp only
  rcases eq_none_or_some_of_rel (copies.heap.callee? subject) with
    ⟨none, none'⟩ | ⟨callee, callee', known, known', same⟩
  · rw [none, none']
    exact raise_mirror (.typeFault (.notCallable lines))
  · rw [known, known']
    dsimp only
    rw [copies.heap.arity same]
    split
    · exact .pure same
    · exact raise_mirror (.arityMismatch lines)

/-! ## Operators -/

/-- An operator with one operand gives the same on lines that stand for each other. -/
theorem applyUnary_mirror
    {line line' : Nat}
    (lines : matching.lines line line')
    (operator : UnaryOperator)
    (operand : Value) :
    Mirror matching Eq (lift (applyUnary operator line operand))
      (lift (applyUnary operator line' operand)) := by
  cases operator with
  | not => exact .pure rfl
  | negate =>
      cases operand with
      | number value => exact .pure rfl
      | _ => exact raise_mirror (.typeFault (.operandNotNumber lines))

/-- An operation on numbers gives the same on lines that stand for each other. -/
theorem onNumbers_mirror
    {line line' : Nat}
    {operation operation' : Number → Number → Except RuntimeError Value}
    (lines : matching.lines line line')
    (operator : BinaryOperator)
    (first second : Value)
    (steps : ∀ one other,
      Mirror matching Eq (lift (operation one other)) (lift (operation' one other))) :
    Mirror matching Eq (lift (onNumbers operator line operation first second))
      (lift (onNumbers operator line' operation' first second)) := by
  unfold onNumbers
  split
  · exact steps _ _
  · exact raise_mirror (.typeFault (.operandsNotNumbers lines))

/-- An operator with two operands gives the same on lines that stand for each other. -/
theorem applyBinary_mirror
    {line line' : Nat}
    (lines : matching.lines line line')
    (operator : BinaryOperator)
    (first second : Value) :
    Mirror matching Eq (lift (applyBinary operator line first second))
      (lift (applyBinary operator line' first second)) := by
  cases operator with
  | add =>
      simp only [applyBinary, addValues]
      split
      · exact .pure rfl
      · exact .pure rfl
      · exact .pure rfl
      · exact .pure rfl
      · exact raise_mirror (.typeFault (.operandsNotAddable lines))
  | divide =>
      refine onNumbers_mirror lines _ first second fun one other => ?_
      unfold divideNumbers
      split
      · exact raise_mirror (.divisionByZero lines)
      · exact .pure rfl
  | equal => exact .pure rfl
  | notEqual => exact .pure rfl
  | _ => exact onNumbers_mirror lines _ first second fun _ _ => .pure rfl

end Lox.Execution
