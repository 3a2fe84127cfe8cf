import Lox.Diagnostic
import Lox.Grammar.Program
import Lox.Syntax.Occurrences
import Lox.Scoping.Resolution
import Lox.Execution.Evaluation

namespace Lox

/-!
# Sessions

A session runs one program after another in one state.  Each program is scanned,
parsed and resolved before any of it runs.  A program that is rejected on the way
uses up identities of occurrences, and the distances that were settled before a
scope error stay recorded under identities that no other occurrence gets.
-/

/-- The state of the programs run so far, and the next identity of an occurrence. -/
structure Session where
  state : Execution.State
  nextId : NodeId

/-- Why a step of a session stops before its end. -/
inductive Stop where
  | diagnostic (diagnostic : Diagnostic)
  | returned (line : Nat) (value : Execution.Value)
  | mismatch (mismatch : Execution.ScopeMismatch)
  | exhausted
  deriving Repr, DecidableEq

/-- A step of a session. -/
abbrev Step := EStateM Stop Session

/-- The stop of a session whose run stops. -/
def Stop.ofExit : Execution.Exit → Stop
  | .error error => .diagnostic (.runtime error)
  | .returned line value => .returned line value
  | .mismatch found => .mismatch found
  | .exhausted => .exhausted

namespace Session

/-- A session in which nothing has run, with a clock. -/
def start (clock : Execution.Clock) : Session :=
  ⟨Execution.State.initial clock, 0⟩

/-- A computation on the state of the run as a step. -/
def onState (action : Execution.Eval α) : Step α := fun session =>
  let nextId := session.nextId
  match action session.state with
  | .ok value state => .ok value ⟨state, nextId⟩
  | .error exit state => .error (Stop.ofExit exit) ⟨state, nextId⟩

/-- The tokens of a source. -/
def scan (source : List UInt8) : Step (List Token) :=
  match Source.scan source with
  | .error error => throw (.diagnostic (.lexical error))
  | .ok tokens => pure tokens

/-- Parse tokens. -/
def parseTokens (parser : Grammar.Parser α) (tokens : List Token) : Step α :=
  fun session =>
    match parser (Grammar.Reader.start tokens session.nextId) with
    | .ok value reader => .ok value { session with nextId := reader.nextId }
    | .error error reader =>
        .error (.diagnostic (.syntactic error))
          { session with nextId := reader.nextId }

/-- Scan a source and parse its tokens. -/
def parse (parser : Grammar.Parser α) (source : List UInt8) : Step α := do
  parseTokens parser (← scan source)

/-- Scan and parse a program. -/
def parseProgram : List UInt8 → Step (List Stmt) :=
  parse Grammar.program

/-- Scan and parse an expression that takes the whole source. -/
def parseExpression : List UInt8 → Step Expr :=
  parse Grammar.wholeExpression

/-- Record scope distances. -/
def record (settled : List Scoping.Settlement) : Step Unit :=
  modify fun session =>
    { session with
      state :=
        { session.state with distances := session.state.distances.record settled } }

/--
Resolve a program by itself, and record its distances; of a program that breaks
the scope rules those before the error.
-/
def resolve (program : List Stmt) : Step Unit := do
  let resolution := Scoping.resolve program
  record resolution.settled
  match resolution.verdict with
  | .error error => throw (.diagnostic (.scoping error))
  | .ok () => pure ()

/-- Run a program that has been parsed. -/
def interpret (fuel : Nat) (program : List Stmt) : Step Unit :=
  onState (Execution.interpret fuel program)

/-- Resolve a program that has been parsed, and run it if it is accepted. -/
def runProgram (fuel : Nat) (program : List Stmt) : Step Unit := do
  resolve program
  interpret fuel program

/-- Run the program that some tokens are. -/
def runTokens (fuel : Nat) (tokens : List Token) : Step Unit := do
  runProgram fuel (← parseTokens Grammar.program tokens)

/-- Run a source. -/
def run (fuel : Nat) (source : List UInt8) : Step Unit := do
  runTokens fuel (← scan source)

/-- Run a source without resolving it, so that all of its names are global. -/
def runUnresolved (fuel : Nat) (source : List UInt8) : Step Unit := do
  interpret fuel (← parseProgram source)

/-- The value of a source that is one expression, which is not resolved. -/
def evaluate (fuel : Nat) (source : List UInt8) : Step Execution.Value := do
  let expression ← parseExpression source
  onState (Execution.evaluate fuel expression)

/-- Run the statements of a source without resolving them; a return stops the step. -/
def execute (fuel : Nat) (source : List UInt8) : Step Unit := do
  let program ← parseProgram source
  onState (Execution.executeAll fuel program)

/-- As `execute`, in a new scope under the global one. -/
def executeBlock (fuel : Nat) (source : List UInt8) : Step Unit := do
  let program ← parseProgram source
  onState do
    Execution.inNewScope (← get).globals (Execution.executeAll fuel program)

/--
Run a source whose occurrences get given distances, in the order in which
resolution would settle them; occurrences beyond the list get none.
-/
def runWithDistances
    (fuel : Nat)
    (source : List UInt8)
    (distances : List (Option Nat)) :
    Step Unit := do
  let program ← parseProgram source
  record (((Stmt.occurrencesOfAll program).zip distances).map
    fun (occurrence, depth) => ⟨occurrence.1, occurrence.2, depth⟩)
  interpret fuel program

end Session

/-- Run a source in a new session: how it ends, and what it has printed. -/
def runSource
    (fuel : Nat)
    (clock : Execution.Clock)
    (source : List UInt8) :
    Except Stop Unit × Transcript :=
  match Session.run fuel source (Session.start clock) with
  | .ok () session => (.ok (), session.state.transcript)
  | .error stop session => (.error stop, session.state.transcript)

/-- The syntax errors of a source, or else its lexical errors. -/
def diagnose (source : List UInt8) : List Diagnostic :=
  match Source.errors source with
  | [] =>
      let reader := Grammar.Reader.start (Source.tokens source) 0
      (Grammar.readProgram reader).errors.map .syntactic
  | errors => errors.map .lexical

/-- The text of a stop, in the heap of the run that it stopped. -/
def Stop.message (heap : Execution.Heap) : Stop → String
  | .diagnostic error => error.message
  | .returned _ value => "Return signal with value: " ++ heap.display value
  | .mismatch found => found.message heap
  | .exhausted => "Out of fuel."

/-- The exit status of a process that ends with a stop. -/
def Stop.exitCode : Stop → Nat
  | .diagnostic error => error.exitCode
  | .returned _ _ => 70
  | .mismatch _ => 101
  | .exhausted => 70

end Lox
