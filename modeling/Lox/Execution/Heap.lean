import Lox.Execution.Value
import Lox.Bindings

namespace Lox.Execution

/-!
# The heap

Scopes, functions, classes and instances, each in a table that only grows.  A
scope holds bindings and may be enclosed by another scope, to which a search for
a name goes on.
-/

/-- One lexical scope. -/
structure Scope where
  bindings : Bindings Value
  enclosing : Option ScopeId
  deriving Repr, DecidableEq

/-- A function of a program with the scope around its declaration. -/
structure Function where
  declaration : FunctionDeclaration
  closure : ScopeId
  isConstructor : Bool

/-- A class with the methods that its own declaration defines. -/
structure Class where
  name : String
  superclass : Option ClassId
  methods : Bindings Function

/-- An instance of a class with its fields. -/
structure Instance where
  classId : ClassId
  fields : Bindings Value
  deriving Repr, DecidableEq

/-- All scopes, functions, classes and instances that were ever made. -/
structure Heap where
  scopes : Array Scope
  functions : Array Function
  classes : Array Class
  instances : Array Instance

namespace Heap

/-- A heap without anything in it. -/
def empty : Heap :=
  ⟨#[], #[], #[], #[]⟩

/-! ## Scopes -/

/-- Add a scope. -/
def addScope (heap : Heap) (scope : Scope) : Heap :=
  { heap with scopes := heap.scopes.push scope }

/-- The scope around a scope. -/
def enclosing? (heap : Heap) (scope : ScopeId) : Option ScopeId :=
  heap.scopes[scope]?.bind (·.enclosing)

/-- The value that a scope itself binds to a name. -/
def getLocal? (heap : Heap) (scope : ScopeId) (name : String) : Option Value :=
  heap.scopes[scope]?.bind (·.bindings.get? name)

/-- Bind a name in a scope, replacing the value it had there. -/
def define (heap : Heap) (scope : ScopeId) (name : String) (value : Value) : Heap :=
  { heap with
    scopes := heap.scopes.modify scope fun found =>
      { found with bindings := found.bindings.insert name value } }

/-- The scope a number of enclosing steps up. -/
def ancestor? (heap : Heap) : Nat → ScopeId → Option ScopeId
  | 0, scope => some scope
  | distance + 1, scope =>
      match heap.enclosing? scope with
      | some outer => heap.ancestor? distance outer
      | none => none

/-- The value of a name in the scope a number of steps up, and only there. -/
def getAt?
    (heap : Heap)
    (scope : ScopeId)
    (distance : Nat)
    (name : String) :
    Option Value :=
  (heap.ancestor? distance scope).bind (heap.getLocal? · name)

/-- Bind a name in the scope a number of steps up, if there is one. -/
def assignAt?
    (heap : Heap)
    (scope : ScopeId)
    (distance : Nat)
    (name : String)
    (value : Value) :
    Option Heap :=
  (heap.ancestor? distance scope).map (heap.define · name value)

/-- The nearest scope that binds a name, within a number of steps up. -/
def binderWithin? (heap : Heap) (name : String) : Nat → ScopeId → Option ScopeId
  | 0, _ => none
  | fuel + 1, scope =>
      if (heap.getLocal? scope name).isSome then some scope
      else (heap.enclosing? scope).bind (heap.binderWithin? name fuel)

/--
The nearest scope that binds a name.  A chain that repeats no scope is no longer
than the table of scopes.
-/
def binder? (heap : Heap) (scope : ScopeId) (name : String) : Option ScopeId :=
  heap.binderWithin? name heap.scopes.size scope

/-- The value of the nearest binding of a name. -/
def get? (heap : Heap) (scope : ScopeId) (name : String) : Option Value :=
  (heap.binder? scope name).bind (heap.getLocal? · name)

/-- Replace the value of the nearest binding of a name, if there is one. -/
def assign?
    (heap : Heap)
    (scope : ScopeId)
    (name : String)
    (value : Value) :
    Option Heap :=
  (heap.binder? scope name).map (heap.define · name value)

/-! ## Functions, classes and instances -/

/-- Add a function. -/
def addFunction (heap : Heap) (function : Function) : Heap :=
  { heap with functions := heap.functions.push function }

/-- Add a class. -/
def addClass (heap : Heap) (declared : Class) : Heap :=
  { heap with classes := heap.classes.push declared }

/-- Add an instance. -/
def addInstance (heap : Heap) (created : Instance) : Heap :=
  { heap with instances := heap.instances.push created }

/-- The method of a class or, within a number of steps up, of a superclass. -/
def findMethodWithin? (heap : Heap) (name : String) : Nat → ClassId → Option Function
  | 0, _ => none
  | fuel + 1, classId =>
      match heap.classes[classId]? with
      | none => none
      | some found =>
          match found.methods.get? name with
          | some method => some method
          | none => found.superclass.bind (heap.findMethodWithin? name fuel)

/--
The method of a class or of its nearest superclass that defines it.  A chain of
superclasses that repeats no class is no longer than the table of classes.
-/
def findMethod? (heap : Heap) (classId : ClassId) (name : String) : Option Function :=
  heap.findMethodWithin? name heap.classes.size classId

/-- The value of a field. -/
def getField? (heap : Heap) (object : InstanceId) (name : String) : Option Value :=
  heap.instances[object]?.bind (·.fields.get? name)

/-- Set a field, which need not exist before. -/
def setField (heap : Heap) (object : InstanceId) (name : String) (value : Value) : Heap :=
  { heap with
    instances := heap.instances.modify object fun found =>
      { found with fields := found.fields.insert name value } }

/-- The method that an instance finds in its class. -/
def methodOf? (heap : Heap) (object : InstanceId) (name : String) : Option Function :=
  heap.instances[object]?.bind (heap.findMethod? ·.classId name)

/-- A search for a method goes from class to superclass, up to one that has the method. -/
theorem exists_of_findMethod?
    {heap : Heap}
    (passes : ClassId → Prop)
    (upwards :
      ∀ id parent declared, passes id → heap.classes[id]? = some declared →
        declared.superclass = some parent → passes parent)
    {classId : ClassId}
    (start : passes classId)
    {name : String}
    {method : Function}
    (found : heap.findMethod? classId name = some method) :
    ∃ id declared,
      passes id ∧ heap.classes[id]? = some declared ∧
        declared.methods.get? name = some method := by
  unfold findMethod? at found
  generalize heap.classes.size = fuel at found
  induction fuel generalizing classId with
  | zero => cases found
  | succ fuel inductionHypothesis =>
      unfold findMethodWithin? at found
      cases known : heap.classes[classId]? with
      | none => simp [known] at found
      | some declared =>
          cases own : declared.methods.get? name with
          | some first =>
              obtain rfl : first = method := by simpa [known, own] using found
              exact ⟨classId, declared, start, known, own⟩
          | none =>
              simp only [known, own] at found
              cases above : declared.superclass with
              | none => simp [above] at found
              | some parent =>
                  rw [above] at found
                  exact inductionHypothesis (upwards _ _ _ start known above) found

end Heap

/-! ## Functions and classes as callees -/

/-- The method that runs when a class is called. -/
def constructorName : String :=
  "ctor"

/-- What can be called. -/
inductive Callee where
  | native (function : NativeFunction)
  | function (function : Function)
  | classObject (id : ClassId)

/-- The name of a function. -/
def Function.name (function : Function) : String :=
  function.declaration.name.text

/-- The number of arguments that a function takes. -/
def Function.arity (function : Function) : Nat :=
  function.declaration.arity

namespace Heap

/-- The callee that a value is. -/
def callee? (heap : Heap) : Value → Option Callee
  | .native function => some (.native function)
  | .functionObject id => heap.functions[id]?.map .function
  | .classObject id => some (.classObject id)
  | _ => none

/-- The number of arguments of a class: those of its constructor, if it has one. -/
def classArity (heap : Heap) (classId : ClassId) : Nat :=
  ((heap.findMethod? classId constructorName).map (·.arity)).getD 0

/-- The number of arguments that a callee takes. -/
def arity (heap : Heap) : Callee → Nat
  | .native function => function.arity
  | .function function => function.arity
  | .classObject id => heap.classArity id

/-- The name of a class. -/
def className (heap : Heap) (classId : ClassId) : String :=
  (heap.classes[classId]?.map (·.name)).getD ""

/-- The text that a program prints for a value. -/
def display (heap : Heap) : Value → String
  | .nil => "null"
  | .bool true => "true"
  | .bool false => "false"
  | .number value => value.display
  | .string contents => contents
  | .native _ => "<native fn>"
  | .functionObject id =>
      "<fn " ++ (heap.functions[id]?.map (·.name)).getD "" ++ ">"
  | .classObject id => heap.className id
  | .instanceObject id =>
      (heap.instances[id]?.map (heap.className ·.classId)).getD "" ++ " instance"

end Heap

end Lox.Execution
