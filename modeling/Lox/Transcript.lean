namespace Lox

/-!
# Transcripts

What a program has printed, one text per `print`.  The texts go to standard output
or into a buffer that keeps them.  A printed text may itself contain line ends, so the
lines of a transcript are cut from its whole text.
-/

/-- Where printed texts go: to standard output, or into a buffer with those so far. -/
inductive Output where
  | stdout
  | buffer (captured : Array String)
  deriving Repr, DecidableEq

/-- The texts that have reached standard output, and where printed texts go. -/
structure Transcript where
  stdout : Array String
  output : Output
  deriving Repr, DecidableEq

namespace Transcript

/-- Nothing printed yet, with an empty buffer for what is printed. -/
def empty : Transcript :=
  ⟨#[], .buffer #[]⟩

/-- Nothing printed yet, with standard output for what is printed. -/
def onStdout : Transcript :=
  ⟨#[], .stdout⟩

/-- Print one text. -/
def print (transcript : Transcript) (text : String) : Transcript :=
  match transcript.output with
  | .stdout => { transcript with stdout := transcript.stdout.push text }
  | .buffer captured => { transcript with output := .buffer (captured.push text) }

/-- The texts printed so far, wherever they went. -/
def printed (transcript : Transcript) : Array String :=
  match transcript.output with
  | .stdout => transcript.stdout
  | .buffer captured => captured

/-- The text of printed texts, each with a line end after it. -/
def textOf (printed : List String) : String :=
  String.join (printed.map (· ++ "\n"))

/-- Everything that was captured, each text with a line end after it. -/
def text (transcript : Transcript) : String :=
  match transcript.output with
  | .stdout => ""
  | .buffer captured => textOf captured.toList

/-- Everything on standard output, each text with a line end after it. -/
def stdoutText (transcript : Transcript) : String :=
  textOf transcript.stdout.toList

/-- What was printed after the first texts. -/
def textAfter (transcript : Transcript) (count : Nat) : String :=
  textOf (transcript.printed.toList.drop count)

/-- A line without the carriage return before its line end. -/
def withoutReturn (line : List Char) : List Char :=
  if line.getLast? = some '\r' then line.dropLast else line

/--
The lines of a text whose first characters have been read already, the last one
first.  A line end closes a line, and what follows the last line end is a line
only if it is not empty.
-/
def linesFrom : List Char → List Char → List String
  | [], [] => []
  | read, [] => [String.ofList read.reverse]
  | read, character :: rest =>
      if character = '\n' then
        String.ofList (withoutReturn read.reverse) :: linesFrom [] rest
      else
        linesFrom (character :: read) rest

/-- The lines of everything that was captured. -/
def lines (transcript : Transcript) : List String :=
  linesFrom [] transcript.text.toList

end Transcript

end Lox
