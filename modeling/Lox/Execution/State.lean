import Lox.Execution.Error
import Lox.Scoping.Resolver
import Lox.Transcript

namespace Lox.Execution

/-!
# The state of a run

The heap, the global scope, the scope in which the run is at the moment, the
scope distances of occurrences, what has been printed, and the clock.
-/

/-- Scope distances of occurrences; an occurrence without one is global. -/
structure Distances where
  entries : Array (Option Nat)
  deriving Repr, DecidableEq

namespace Distances

/-- No distance for any occurrence. -/
def empty : Distances :=
  ⟨#[]⟩

/-- The distance of an occurrence. -/
def get? (distances : Distances) (id : NodeId) : Option Nat :=
  distances.entries[id]?.join

/-- Record the distance of an occurrence. -/
def insert (distances : Distances) (id : NodeId) (depth : Nat) : Distances :=
  if id < distances.entries.size then
    ⟨distances.entries.setIfInBounds id (some depth)⟩
  else
    let padding := Array.replicate (id - distances.entries.size) none
    ⟨(distances.entries ++ padding).push (some depth)⟩

/-- Record what resolution settled; global occurrences get no distance. -/
def record
    (distances : Distances)
    (settled : List Scoping.Settlement) :
    Distances :=
  settled.foldl
    (fun recorded settlement =>
      match settlement.depth with
      | some depth => recorded.insert settlement.id depth
      | none => recorded)
    distances

end Distances

/-- The times that a clock shows at its readings from the next one on, in microseconds. -/
structure Readings where
  shown : Nat → Nat

/-- A numeral stands for the readings of a clock that has stopped. -/
instance (microseconds : Nat) : OfNat Readings microseconds :=
  ⟨⟨fun _ => microseconds⟩⟩

/-- A clock; nothing is known of it but what it will show. -/
structure Clock where
  readings : Readings

/-- The seconds that a clock shows. -/
def Clock.seconds (clock : Clock) : Number :=
  Number.ofRatio (clock.readings.shown 0) 1000000

/-- The clock after a reading. -/
def Clock.next (clock : Clock) : Clock :=
  ⟨⟨fun reading => clock.readings.shown (reading + 1)⟩⟩

/-- The state of a run. -/
structure State where
  heap : Heap
  globals : ScopeId
  scope : ScopeId
  distances : Distances
  transcript : Transcript
  clock : Clock

/-- A computation on the state of a run that may stop early. -/
abbrev Eval := EStateM Exit State

namespace State

/-- The state before anything has run: only the native functions are defined. -/
def initial (clock : Clock) : State where
  heap :=
    Heap.empty.addScope
      ⟨Bindings.ofList [(NativeFunction.clock.name, .native .clock)], none⟩
  globals := 0
  scope := 0
  distances := Distances.empty
  transcript := Transcript.empty
  clock := clock

/-- The same for a run that prints on standard output. -/
def initialOnStdout (clock : Clock) : State :=
  { initial clock with transcript := Transcript.onStdout }

/-- Bind a name in a scope. -/
def define (state : State) (scope : ScopeId) (name : String) (value : Value) : State :=
  { state with heap := state.heap.define scope name value }

/-- The value of a global name. -/
def global? (state : State) (name : String) : Option Value :=
  state.heap.getLocal? state.globals name

/-- Bind a global name. -/
def defineGlobal (state : State) (name : String) (value : Value) : State :=
  state.define state.globals name value

end State

/-- Stop with a runtime error. -/
def raise (error : RuntimeError) : Eval α :=
  throw (.error error)

/-- Add a scope with some bindings under a scope, and return its position. -/
def newScope (bindings : Bindings Value) (enclosing : ScopeId) : Eval ScopeId :=
  modifyGet fun state =>
    (state.heap.scopes.size,
      { state with heap := state.heap.addScope ⟨bindings, some enclosing⟩ })

/-- Add a function, and return it as a value. -/
def newFunction (function : Function) : Eval Value :=
  modifyGet fun state =>
    (.functionObject state.heap.functions.size,
      { state with heap := state.heap.addFunction function })

/-- Add a class, and return it as a value. -/
def newClass (declared : Class) : Eval Value :=
  modifyGet fun state =>
    (.classObject state.heap.classes.size,
      { state with heap := state.heap.addClass declared })

/-- Add an instance without fields, and return its position. -/
def newInstance (classId : ClassId) : Eval InstanceId :=
  modifyGet fun state =>
    (state.heap.instances.size,
      { state with heap := state.heap.addInstance ⟨classId, Bindings.empty⟩ })

/-- Bind a name in the current scope. -/
def defineHere (name : String) (value : Value) : Eval Unit :=
  modify fun state => state.define state.scope name value

/-- Print the text of a value. -/
def printValue (value : Value) : Eval Unit :=
  modify fun state =>
    { state with transcript := state.transcript.print (state.heap.display value) }

/-- Read the clock. -/
def readClock : Eval Value :=
  modifyGet fun state =>
    (.number state.clock.seconds, { state with clock := state.clock.next })

/-- Make another scope the current one. -/
def moveTo (scope : ScopeId) : Eval Unit :=
  modify fun state => { state with scope := scope }

/-- Move to a new scope under the current one, and return the scope that was left. -/
def enterNewScope (bindings : Bindings Value) : Eval ScopeId := do
  let left := (← get).scope
  moveTo (← newScope bindings left)
  return left

/-- Run with another scope as the current one, which is restored whatever happens. -/
def within (scope : ScopeId) (action : Eval α) : Eval α := fun state =>
  let entry := state.scope
  match action { state with scope := scope } with
  | .ok value final => .ok value { final with scope := entry }
  | .error exit final => .error exit { final with scope := entry }

/-- Run in a new scope under a given one. -/
def inNewScope (enclosing : ScopeId) (action : Eval α) : Eval α := do
  let scope ← newScope Bindings.empty enclosing
  within scope action

/-- Run a body to the return that leaves it, and give the returned value or nil. -/
def returning (body : Eval Unit) : Eval Value := fun state =>
  match body state with
  | .ok _ final => .ok .nil final
  | .error (.returned _ value) final => .ok value final
  | .error exit final => .error exit final

end Lox.Execution
