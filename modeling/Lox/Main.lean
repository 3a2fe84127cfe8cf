import Std.Time.DateTime.Timestamp
import Lox.CommandLine

/-!
# The program

Reads the file that the command line names, carries out the command, and writes
its report.
-/

open Lox Lox.CommandLine

/-- The nesting and the rounds of loops that one run may use. -/
def fuelOfRun : Nat :=
  1000000000000000

/-- The clock of a run: it is read once before the run, and counts the readings from there. -/
def clockNow : IO Execution.Clock := do
  let now ← Std.Time.Timestamp.now
  let started := (now.toNanosecondsSinceUnixEpoch.val / 1000).toNat
  return ⟨⟨fun reading => started + reading⟩⟩

/-- The contents of a file, or why it could not be read. -/
def contentsOf (file : String) : IO (Except ReadFailure (List UInt8)) := do
  match ← (IO.FS.readBinFile file).toBaseIO with
  | .ok bytes => return .ok bytes.toList
  | .error (.noFileOrDirectory ..) => return .error .missing
  | .error error => return .error (.other (toString error))

/-- Write a report, and give its exit status. -/
def writeReport (report : Report) : IO UInt32 := do
  IO.print report.stdout
  IO.eprint report.stderr
  return report.exitCode.toUInt32

/-- Carry out the command that the arguments spell. -/
def main (arguments : List String) : IO UInt32 := do
  match Invocation.ofArguments? arguments with
  | none =>
      IO.eprintln "usage: lox [--log] tokenize [--json] | parse | evaluate | run [FILE]"
      return 2
  | some invocation =>
      match invocation.file with
      | none => writeReport .noFile
      | some file =>
          let contents ← contentsOf file
          writeReport (perform fuelOfRun (← clockNow) invocation.command file contents)
