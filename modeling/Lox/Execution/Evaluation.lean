import Lox.Execution.State
import Lox.Execution.Operators

namespace Lox.Execution

/-!
# Evaluation

Expressions and statements are run by recursion on fuel, which every nested
step and every round of a loop uses up by one; a run that does not need all of
its fuel does not depend on it.  Everything that needs no recursion stands
first.
-/

/-- Give the value of a pure step, or stop with its error. -/
def lift : Except RuntimeError α → Eval α
  | .ok value => pure value
  | .error error => raise error

/--
The value of an occurrence: of the scope at its recorded distance, or else of
the global scope.
-/
def lookUp (id : NodeId) (name : Identifier) : Eval Value := do
  let state ← get
  let found :=
    match state.distances.get? id with
    | some distance => state.heap.getAt? state.scope distance name.text
    | none => state.global? name.text
  match found with
  | some value => pure value
  | none => raise (.undefinedVariable name)

/--
Assign to an occurrence.  The scope at its recorded distance takes the value in
any case, the global scope only if it has the name.
-/
def assignTo (target : Reference) (value : Value) : Eval Unit := fun state =>
  let name := target.name
  let written :=
    match state.distances.get? target.id with
    | some distance => state.heap.ancestor? distance state.scope
    | none => (state.global? name.text).map fun _ => state.globals
  match written with
  | some scope => .ok () (state.define scope name.text value)
  | none => .error (.error (.undefinedVariable name)) state

/-- A method with a scope around it in which `this` is a given instance. -/
def bindMethod (method : Function) (object : InstanceId) : Eval Function := do
  let scope ←
    newScope (Bindings.ofList [(receiverName, .instanceObject object)])
      method.closure
  return { method with closure := scope }

/-- A bound method as a value of its own. -/
def boundValue (method : Function) (object : InstanceId) : Eval Value := do
  newFunction (← bindMethod method object)

/-- A property of an instance: its field, or else its class's method bound to it. -/
def readProperty (object : InstanceId) (name : Identifier) : Eval Value := do
  let heap := (← get).heap
  match heap.getField? object name.text with
  | some value => pure value
  | none =>
      match heap.methodOf? object name.text with
      | some method => boundValue method object
      | none => raise (.undefinedProperty name)

/-- Set a field of an instance. -/
def writeField (object : InstanceId) (name : String) (value : Value) : Eval Unit :=
  modify fun state => { state with heap := state.heap.setField object name value }

/-- The value of a property, for an object that is an instance. -/
def propertyOf (object : Value) (name : Identifier) : Eval Value :=
  match object with
  | .instanceObject id => readProperty id name
  | _ => raise (.typeFault (.propertyOfNonInstance name))

/-- The instance that an object is, so that a field of it can be set. -/
def fieldOwner (object : Value) (name : Identifier) : Eval InstanceId :=
  match object with
  | .instanceObject id => pure id
  | _ => raise (.typeFault (.fieldOfNonInstance name))

/-- The class that the scope of `super` holds. -/
def superclassAt (distance : Nat) : Eval ClassId := do
  let state ← get
  match state.heap.getAt? state.scope distance superclassName with
  | some (.classObject parent) => pure parent
  | found => throw (.mismatch (.superNotClass distance found))

/-- The receiver, which the scope inside that of `super` holds. -/
def receiverInside (distance : Nat) : Eval InstanceId := do
  let state ← get
  let found :=
    match distance with
    | 0 => none
    | nearer + 1 => state.heap.getAt? state.scope nearer receiverName
  match found with
  | some (.instanceObject object) => pure object
  | found => throw (.mismatch (.thisNotInstance distance found))

/-- A method of the superclass, bound to the receiver. -/
def superMethod (id : NodeId) (line : Nat) (method : Identifier) : Eval Value := do
  match (← get).distances.get? id with
  | none => raise (.undefinedVariable ⟨superclassName, line⟩)
  | some distance =>
      let parent ← superclassAt distance
      let object ← receiverInside distance
      match (← get).heap.findMethod? parent method.text with
      | some found => boundValue found object
      | none => raise (.undefinedProperty method)

/-- Define a function in the current scope. -/
def declareFunction (declaration : FunctionDeclaration) : Eval Unit := do
  let function ← newFunction ⟨declaration, (← get).scope, false⟩
  defineHere declaration.name.text function

/-- The class that a superclass clause names. -/
def superclassOf (parent : Reference) : Eval ClassId := do
  match ← lookUp parent.id parent.name with
  | .classObject id => pure id
  | _ => raise (.typeFault (.superclassNotClass parent.name))

/-- Methods closed over a scope; of two with one name the later counts. -/
def methodTable
    (closure : ScopeId)
    (methods : List FunctionDeclaration) :
    Bindings Function :=
  Bindings.ofList (methods.map fun declaration =>
    (declaration.name.text,
      ⟨declaration, closure, declaration.name.text = constructorName⟩))

/--
Define a class in the current scope.  The methods of a subclass are closed over
a scope of their own that holds `super`; it is the current scope while the methods
are made, and left again before the class is bound to its name.
-/
def declareClass
    (name : Identifier)
    (superclass : Option Reference)
    (methods : List FunctionDeclaration) :
    Eval Unit := do
  let parent ← superclass.mapM superclassOf
  defineHere name.text .nil
  let left ← parent.mapM fun id =>
    enterNewScope (Bindings.ofList [(superclassName, .classObject id)])
  let table := methodTable (← get).scope methods
  left.forM moveTo
  let declared ← newClass ⟨name.text, parent, table⟩
  defineHere name.text declared

/-- The scope of a call: the parameters with their arguments, under the closure. -/
def activate (function : Function) (arguments : List Value) : Eval ScopeId :=
  let names := function.declaration.parameters.map (·.text)
  newScope (Bindings.ofList (names.zip arguments)) function.closure

/-- What a call gives: a constructor its receiver, any other function its result. -/
def callResult (function : Function) (result : Value) : Eval Value := do
  if function.isConstructor then
    return ((← get).heap.getLocal? function.closure receiverName).getD .nil
  else
    return result

/-- The callee that a value is, for a call with a number of arguments. -/
def calleeFor (subject : Value) (count : Nat) (line : Nat) : Eval Callee := do
  let heap := (← get).heap
  match heap.callee? subject with
  | none => raise (.typeFault (.notCallable line))
  | some callee =>
      if count = heap.arity callee then
        return callee
      else
        raise (.arityMismatch (heap.arity callee) count line)

mutual

/-- The value of an expression. -/
def evaluate : Nat → Expr → Eval Value
  | 0, _ => throw .exhausted
  | _ + 1, .literal value => pure (.ofLiteral value)
  | fuel + 1, .grouping inner => evaluate fuel inner
  | fuel + 1, .unary operator line operand => do
      lift (applyUnary operator line (← evaluate fuel operand))
  | fuel + 1, .binary operator line left right => do
      let first ← evaluate fuel left
      let second ← evaluate fuel right
      lift (applyBinary operator line first second)
  | fuel + 1, .logical operator left right => do
      let first ← evaluate fuel left
      if isSettledBy operator first then
        return first
      else
        evaluate fuel right
  | _ + 1, .reference occurrence => lookUp occurrence.id occurrence.name
  | fuel + 1, .assign target value => do
      let assigned ← evaluate fuel value
      assignTo target assigned
      return assigned
  | fuel + 1, .call callee arguments line => do
      let subject ← evaluate fuel callee
      let values ← arguments.mapM (evaluate fuel)
      let callee ← calleeFor subject values.length line
      call fuel callee values
  | fuel + 1, .property object name => do
      propertyOf (← evaluate fuel object) name
  | fuel + 1, .setProperty object name value => do
      let owner ← fieldOwner (← evaluate fuel object) name
      let assigned ← evaluate fuel value
      writeField owner name.text assigned
      return assigned
  | _ + 1, .this id line => lookUp id ⟨receiverName, line⟩
  | _ + 1, .super id line method => superMethod id line method

/-- Run a statement. -/
def execute : Nat → Stmt → Eval Unit
  | 0, _ => throw .exhausted
  | fuel + 1, .expression value => discard (evaluate fuel value)
  | fuel + 1, .print value => do
      printValue (← evaluate fuel value)
  | _ + 1, .varDeclaration name none => defineHere name.text .nil
  | fuel + 1, .varDeclaration name (some value) => do
      defineHere name.text (← evaluate fuel value)
  | fuel + 1, .block body => do
      inNewScope (← get).scope (body.forM (execute fuel))
  | fuel + 1, .branch condition consequent alternative => do
      if (← evaluate fuel condition).isTruthy then
        execute fuel consequent
      else
        match alternative with
        | some other => execute fuel other
        | none => pure ()
  | fuel + 1, .loop condition body => do
      if (← evaluate fuel condition).isTruthy then
        execute fuel body
        execute fuel (.loop condition body)
  | _ + 1, .functionDeclaration declaration => declareFunction declaration
  | _ + 1, .returnValue line none => throw (.returned line .nil)
  | fuel + 1, .returnValue line (some value) => do
      throw (.returned line (← evaluate fuel value))
  | _ + 1, .classDeclaration name superclass methods =>
      declareClass name superclass methods

/--
Call a callee with arguments whose number is not checked any more.  A class
makes an instance and runs its constructor, if it has one, on that instance.
-/
def call : Nat → Callee → List Value → Eval Value
  | 0, _, _ => throw .exhausted
  | _ + 1, .native .clock, _ => readClock
  | fuel + 1, .function function, arguments => do
      let scope ← activate function arguments
      let result ←
        returning (within scope (function.declaration.body.forM (execute fuel)))
      callResult function result
  | fuel + 1, .classObject classId, arguments => do
      let object ← newInstance classId
      match (← get).heap.findMethod? classId constructorName with
      | some constructor => do
          let bound ← bindMethod constructor object
          discard (call fuel (.function bound) arguments)
      | none => pure ()
      return .instanceObject object

end

/-- Run statements in order in the current scope. -/
def executeAll (fuel : Nat) (body : List Stmt) : Eval Unit :=
  body.forM (execute fuel)

/-- Run a program, in which a return outside of every function is an error. -/
def interpret (fuel : Nat) (program : List Stmt) : Eval Unit := fun state =>
  match executeAll fuel program state with
  | .error (.returned line _) final =>
      .error (.error (.typeFault (.returnOutsideFunction line))) final
  | outcome => outcome

end Lox.Execution
