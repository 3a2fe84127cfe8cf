import Lox.Session
import Lox.Source.Listing
import Lox.Syntax.Display

namespace Lox.CommandLine

/-!
# The command line

Four commands that work on one file: list its tokens, show the tree of an
expression, print the value of an expression, and run a program.  A command is
carried out as a pure function of the file's contents, and reports what it
writes and its exit status.
-/

/-- What a command does with the file. -/
inductive Command where
  | tokenize (asJson : Bool)
  | parse
  | evaluate
  | run
  deriving Repr, DecidableEq

/-- A command, its file if one is named, and whether a log is asked for. -/
structure Invocation where
  command : Command
  file : Option String
  withLog : Bool
  deriving Repr, DecidableEq

/-- What a command writes, and its exit status. -/
structure Report where
  stdout : String
  stderr : String
  exitCode : Nat
  deriving Repr, DecidableEq

/-- Why a file could not be read. -/
inductive ReadFailure where
  | missing
  | notText
  | other (reason : String)
  deriving Repr, DecidableEq

/-- The text of a reason. -/
def ReadFailure.message : ReadFailure → String
  | .missing => "No such file or directory (os error 2)"
  | .notText => "stream did not contain valid UTF-8"
  | .other reason => reason

/-- The command with a given name. -/
def commandNamed? : String → Option Command
  | "tokenize" => some (.tokenize false)
  | "parse" => some .parse
  | "evaluate" => some .evaluate
  | "run" => some .run
  | _ => none

/-- What the arguments read so far have said. -/
structure Arguments where
  command : Option Command
  file : Option String
  withLog : Bool
  deriving Repr, DecidableEq

/-- Whether an argument is written like an option. -/
def isOption (argument : String) : Bool :=
  match argument.toList with
  | '-' :: _ :: _ => true
  | _ => false

/-- Read one more argument: an option, the command, or after it the file. -/
def Arguments.read? (arguments : Arguments) (next : String) : Option Arguments :=
  if next = "--log" then some { arguments with withLog := true }
  else
    match arguments.command, arguments.file with
    | none, _ =>
        (commandNamed? next).map fun command =>
          { arguments with command := some command }
    | some (.tokenize false), file =>
        if next = "--json" then
          some { arguments with command := some (.tokenize true) }
        else if file.isSome || isOption next then none
        else some { arguments with file := some next }
    | some _, some _ => none
    | some _, none =>
        if isOption next then none else some { arguments with file := some next }

/-- The invocation that a list of arguments spells. -/
def Invocation.ofArguments? (arguments : List String) : Option Invocation := do
  let read ← arguments.foldlM Arguments.read? ⟨none, none, false⟩
  return ⟨← read.command, read.file, read.withLog⟩

/-- A report of success. -/
def Report.success (stdout : String) : Report :=
  ⟨stdout, "", 0⟩

/-- A report of a diagnostic, after some output. -/
def Report.failed (stdout : String) (diagnostic : Diagnostic) : Report :=
  ⟨stdout, diagnostic.message ++ "\n", diagnostic.exitCode⟩

/-- A report of a stop, after some output. -/
def Report.stopped (stdout : String) (stop : Stop) (heap : Execution.Heap) : Report :=
  ⟨stdout, stop.message heap ++ "\n", stop.exitCode⟩

/-- The report for a command without a file. -/
def Report.noFile : Report :=
  .success "No input filepath was provided. Exiting...\n"

/-- The report for a file that could not be read. -/
def Report.unreadable (file : String) (failure : ReadFailure) : Report where
  stdout := ""
  stderr :=
    "Error: Failed to read file " ++ Text.quoted file ++ "\n\nCaused by:\n    "
      ++ failure.message ++ "\n"
  exitCode := 1

/-- List the tokens of a source after reporting its lexical errors. -/
def tokenReport (asJson : Bool) (source : List UInt8) : Report where
  stdout :=
    let tokens := Source.tokens source
    if asJson then Token.listingJson tokens ++ "\n" else Token.listing tokens
  stderr :=
    String.join ((Source.errors source).map fun error =>
      (Diagnostic.lexical error).message ++ "\n")
  exitCode :=
    match (Source.errors source).head? with
    | some error => (Diagnostic.lexical error).exitCode
    | none => 0

/-- The tree that a parser makes of a source, or why there is none. -/
def treeOf (parser : Grammar.Parser α) (source : List UInt8) : Except Diagnostic α :=
  match Source.scan source with
  | .error error => .error (.lexical error)
  | .ok tokens =>
      match parser (Grammar.Reader.start tokens 0) with
      | .ok tree _ => .ok tree
      | .error error _ => .error (.syntactic error)

/-- Show the tree of an expression. -/
def treeReport (source : List UInt8) : Report :=
  match treeOf Grammar.wholeExpression source with
  | .error diagnostic => .failed "" diagnostic
  | .ok expression => .success (expression.display ++ "\n")

/-- Print the value of an expression, or else the value of a return. -/
def valueReport (fuel : Nat) (clock : Execution.Clock) (source : List UInt8) : Report :=
  match treeOf Grammar.wholeExpression source with
  | .error diagnostic => .failed "" diagnostic
  | .ok expression =>
      match Execution.evaluate fuel expression (.initialOnStdout clock) with
      | .ok value final | .error (.returned _ value) final =>
          .success (final.transcript.stdoutText ++ final.heap.display value ++ "\n")
      | .error exit final =>
          .stopped final.transcript.stdoutText (.ofExit exit) final.heap

/-- Run a program that has been parsed, printing on standard output. -/
def programReport (fuel : Nat) (clock : Execution.Clock) (program : List Stmt) : Report :=
  let fresh := Execution.State.initialOnStdout clock
  let resolution := Scoping.resolve program
  let resolved := { fresh with distances := fresh.distances.record resolution.settled }
  match resolution.verdict with
  | .error error => .failed resolved.transcript.stdoutText (.scoping error)
  | .ok () =>
      match Execution.interpret fuel program resolved with
      | .ok () final => .success final.transcript.stdoutText
      | .error exit final =>
          .stopped final.transcript.stdoutText (.ofExit exit) final.heap

/-- Run a source, printing on standard output. -/
def runReport (fuel : Nat) (clock : Execution.Clock) (source : List UInt8) : Report :=
  match treeOf Grammar.program source with
  | .error diagnostic => .failed "" diagnostic
  | .ok program => programReport fuel clock program

/-- Carry out a command on the contents of its file. -/
def Command.perform
    (fuel : Nat)
    (clock : Execution.Clock)
    (source : List UInt8) :
    Command → Report
  | .tokenize asJson => tokenReport asJson source
  | .parse => treeReport source
  | .evaluate => valueReport fuel clock source
  | .run => runReport fuel clock source

/-- Carry out a command, given the contents of its file or why it could not be read. -/
def perform
    (fuel : Nat)
    (clock : Execution.Clock)
    (command : Command)
    (file : String)
    (contents : Except ReadFailure (List UInt8)) :
    Report :=
  match contents with
  | .error failure => .unreadable file failure
  | .ok source =>
      match Text.Utf8.decode? source with
      | none => .unreadable file .notText
      | some _ => command.perform fuel clock source

end Lox.CommandLine
