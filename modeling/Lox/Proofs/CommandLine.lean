import Lox.CommandLine
import Lox.Proofs.Execution.Destinations
import Lox.Proofs.Session.Outcomes

namespace Lox.CommandLine

open Session Execution

/-!
# The command that runs a program

The command goes through the stages of a run by itself, and its program prints on
standard output.  What it writes is what a run of the same source in a session of its own
captures, and its exit status tells how that run ends.
-/

/-- The program of a source is the tree that the command runs. -/
theorem treeOf_program
    {source : List UInt8}
    {tokens : List Token}
    {program : List Stmt}
    (spells : Spells source tokens program) :
    treeOf Grammar.program source = .ok program := by
  obtain ⟨reader, parsed⟩ := spells.parsed
  unfold treeOf
  rw [spells.scanned]
  dsimp only
  rw [parsed]

/--
A program that prints on standard output ends as with a buffer, and standard output
gets what the buffer captures.
-/
theorem interpret_onStdout (fuel : Nat) (clock : Clock) (program : List Stmt) :
    let buffered := interpret fuel program (firstState clock program)
    ∃ written : Transcript,
      written.stdoutText = (endState buffered).transcript.text ∧
      interpret fuel program ((firstState clock program).printingTo .onStdout) =
        mapState (·.printingTo written) buffered := by
  intro buffered
  obtain ⟨texts, alike⟩ := interpret_oblivious fuel program (firstState clock program)
  refine ⟨Transcript.onStdout.printAll texts, ?_, alike .onStdout⟩
  -- The first state prints to an empty buffer already.
  have captured : buffered = mapState (·.printingTo (Transcript.empty.printAll texts)) buffered :=
    alike .empty
  rw [captured, ← Transcript.text_printAll]
  cases buffered <;> rfl

/-- The report on a program that resolution accepts, from how the program ends. -/
theorem programReport_of_accepted
    {program : List Stmt}
    (accepted : (Scoping.resolve program).verdict = .ok ())
    (fuel : Nat)
    (clock : Clock) :
    programReport fuel clock program =
      match interpret fuel program (firstState clock program) with
      | .ok () final => .success final.transcript.text
      | .error exit final =>
          .stopped final.transcript.text (.ofExit exit) final.heap := by
  obtain ⟨written, same, alike⟩ := interpret_onStdout fuel clock program
  have begun : interpret fuel program
      { State.initialOnStdout clock with
        distances :=
          (State.initialOnStdout clock).distances.record (Scoping.resolve program).settled } =
      mapState (·.printingTo written)
        (interpret fuel program (firstState clock program)) :=
    alike
  unfold programReport
  dsimp only
  rw [accepted]
  dsimp only
  rw [begun]
  cases ran : interpret fuel program (firstState clock program) with
  | ok _ final =>
      rw [ran] at same
      exact congrArg Report.success same
  | error exit final =>
      rw [ran] at same
      exact congrArg (Report.stopped · (.ofExit exit) final.heap) same

/-- The report on the source of a program that resolution accepts. -/
theorem runReport_of_accepted
    {source : List UInt8}
    {tokens : List Token}
    {program : List Stmt}
    (spells : Spells source tokens program)
    (accepted : (Scoping.resolve program).verdict = .ok ())
    (fuel : Nat)
    (clock : Clock) :
    runReport fuel clock source =
      match interpret fuel program (firstState clock program) with
      | .ok () final => .success final.transcript.text
      | .error exit final =>
          .stopped final.transcript.text (.ofExit exit) final.heap := by
  unfold runReport
  rw [treeOf_program spells]
  exact programReport_of_accepted accepted fuel clock

/--
The command that runs a program and the run of its source in a new session agree.  If the
run succeeds, the command writes what the run captures and nothing else, and ends with
status 0.  If it fails, the command writes the error and a line end to standard error.  On
standard output it then writes what the run has captured before a runtime error, and
nothing for any other error; its status is 70 or 65.  There is no other way to end, and
while a run goes on standard output holds what has been captured.
-/
theorem run_command_reports
    {source : List UInt8}
    {text : String}
    (readable : Text.Utf8.decode? source = some text)
    (fuel : Nat)
    (clock : Clock)
    (file : String) :
    let report := perform fuel clock .run file (.ok source)
    match runSource fuel clock source with
    | (.ok (), transcript) => report = ⟨transcript.text, "", 0⟩
    | (.error (.diagnostic (.runtime error)), transcript) =>
        report = ⟨transcript.text, error.message ++ "\n", 70⟩
    | (.error (.diagnostic diagnostic), _) => report = ⟨"", diagnostic.message ++ "\n", 65⟩
    | (.error .exhausted, transcript) => report.stdout = transcript.text
    | (.error _, _) => False := by
  intro report
  have performed : report = runReport fuel clock source := by
    unfold report perform
    dsimp only
    rw [readable]
    rfl
  rw [performed]
  have ends := runSource_ends fuel clock source
  cases outcome : runSource fuel clock source with
  | mk ending transcript =>
      rw [outcome] at ends
      cases ends with
      | misread scanned =>
          unfold runReport treeOf
          rw [scanned]
          rfl
      | misparsed scanned parsed =>
          unfold runReport treeOf
          rw [scanned]
          dsimp only
          rw [parsed]
          rfl
      | rejected spells rejected =>
          unfold runReport
          rw [treeOf_program spells]
          dsimp only [programReport]
          rw [rejected]
          rfl
      | finished spells accepted ran =>
          rw [runReport_of_accepted spells accepted, ran]
          rfl
      | failed spells accepted ran =>
          rw [runReport_of_accepted spells accepted, ran]
          rfl
      | exhausted spells accepted ran =>
          rw [runReport_of_accepted spells accepted, ran]
          rfl

/-- A program that prints a text before it fails. -/
def halfway : List UInt8 :=
  Text.Utf8.encode "print \"one\"; print -\"two\";"

/-- What the program prints before it fails is on standard output. -/
theorem run_command_reports_failure :
    Text.Utf8.decode? halfway = some "print \"one\"; print -\"two\";" ∧
      runSource 9 ⟨0⟩ halfway =
        (.error (.diagnostic (.runtime (.typeFault (.operandNotNumber 1)))),
          ⟨#[], .buffer #["one"]⟩) ∧
      perform 9 ⟨0⟩ .run "halfway.lox" (.ok halfway) =
        ⟨"one\n", "Operand must be a number.\n[line 1]\n", 70⟩ := by
  have readable : Text.Utf8.decode? halfway = some "print \"one\"; print -\"two\";" := by
    decide +kernel
  have ran : runSource 9 ⟨0⟩ halfway =
      (.error (.diagnostic (.runtime (.typeFault (.operandNotNumber 1)))),
        ⟨#[], .buffer #["one"]⟩) :=
    Prod.ext (by decide +kernel) (by decide +kernel)
  -- The source is kept a variable here, so that it is not run while terms are compared.
  have reports : ∀ source error transcript,
      Text.Utf8.decode? source = some "print \"one\"; print -\"two\";" →
      runSource 9 ⟨0⟩ source = (.error (.diagnostic (.runtime error)), transcript) →
      perform 9 ⟨0⟩ .run "halfway.lox" (.ok source) =
        ⟨transcript.text, error.message ++ "\n", 70⟩ := by
    intro source error transcript readable ran
    have reports := run_command_reports readable 9 ⟨0⟩ "halfway.lox"
    rw [ran] at reports
    exact reports
  refine ⟨readable, ran, (reports halfway _ _ readable ran).trans ?_⟩
  decide +kernel

end Lox.CommandLine
