import Lox.Source.Segment

namespace Lox.Source

/-!
# Scanning

The items of a source in order: tokens, and lexical errors in place of what
cannot be a token.  Scanning never stops at an error.  The line of an item is
the line on which its segment ends, and the last item is the end of the input.
-/

/-- Why a part of a source is no token. -/
inductive LexicalFault where
  | unexpectedCharacter (byte : UInt8)
  | unterminatedString
  deriving Repr, DecidableEq

/-- A part of a source that is no token, and the line on which it ends. -/
structure LexicalError where
  fault : LexicalFault
  line : Nat
  deriving Repr, DecidableEq

/-- A token or a lexical error. -/
inductive Item where
  | token (token : Token)
  | error (error : LexicalError)
  deriving Repr, DecidableEq

/-- The text of a lexical fault; a byte is shown as the character of that number. -/
def LexicalFault.message : LexicalFault → String
  | .unexpectedCharacter byte =>
      "Unexpected character: " ++ String.singleton (Char.ofNat byte.toNat)
  | .unterminatedString => "Unterminated string."

/-- The number of line ends in a run of bytes. -/
def lineEnds (bytes : List UInt8) : Nat :=
  bytes.count (byteOf '\n')

/-- The item of a segment that ends on a given line; blanks and comments have none. -/
def Segment.item? (segment : Segment) (line : Nat) : Option Item :=
  match segment.kind with
  | .blank => none
  | .comment => none
  | .token kind => some (.token ⟨kind, Text.Utf8.decodeLossy segment.bytes, line⟩)
  | .unexpected byte => some (.error ⟨.unexpectedCharacter byte, line⟩)
  | .unterminated => some (.error ⟨.unterminatedString, line⟩)

/--
A scanner on its way through a source: what it has not read yet, the line it has
come to, and whether it has given the end of the input.
-/
structure Scanner where
  rest : List UInt8
  line : Nat
  done : Bool
  deriving Repr, DecidableEq

namespace Scanner

/-- A scanner that has read nothing yet. -/
def start (source : List UInt8) : Scanner :=
  ⟨source, 1, false⟩

/--
The first item of what has not been read, and the scanner behind it.  Blanks and
comments are passed over, at most as many as the fuel says; where nothing is left,
the item is the end of the input.
-/
def nextWithin : Nat → List UInt8 → Nat → Item × Scanner
  | fuel + 1, byte :: rest, line =>
      let (segment, after) := firstSegment byte rest
      let endLine := line + lineEnds segment.bytes
      match segment.item? endLine with
      | some item => (item, ⟨after, endLine, false⟩)
      | none => nextWithin fuel after endLine
  | _, _, line => (.token ⟨.endOfInput, "", line⟩, ⟨[], line, true⟩)

/-- The next item, unless the end of the input has been given, and the scanner behind it. -/
def next? (scanner : Scanner) : Option Item × Scanner :=
  if scanner.done then (none, scanner)
  else
    let (item, after) := nextWithin scanner.rest.length scanner.rest scanner.line
    (some item, after)

/-- The items that a scanner still gives, at most as many as the fuel says. -/
def itemsWithin : Nat → Scanner → List Item
  | 0, _ => []
  | fuel + 1, scanner =>
      match scanner.next? with
      | (some item, after) => item :: itemsWithin fuel after
      | (none, _) => []

end Scanner

/-- The items of a source: one for each byte at most, and the end of the input. -/
def items (source : List UInt8) : List Item :=
  (Scanner.start source).itemsWithin (source.length + 1)

/-- The token of an item that is one. -/
def Item.token? : Item → Option Token
  | .token word => some word
  | .error _ => none

/-- The error of an item that is one. -/
def Item.error? : Item → Option LexicalError
  | .token _ => none
  | .error fault => some fault

/-- The tokens of a source, errors left out. -/
def tokens (source : List UInt8) : List Token :=
  (items source).filterMap Item.token?

/-- The lexical errors of a source. -/
def errors (source : List UInt8) : List LexicalError :=
  (items source).filterMap Item.error?

/-- The tokens of a source without errors, or else its first error. -/
def scan (source : List UInt8) : Except LexicalError (List Token) :=
  match (errors source).head? with
  | some error => .error error
  | none => .ok (tokens source)

end Lox.Source
