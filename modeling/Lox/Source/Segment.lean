import Lox.Token
import Lox.Text.Utf8

namespace Lox.Source

/-!
# Segments of a source

A source is a byte string.  It is cut from left to right, without gap or
overlap, into segments: single blanks, comments, tokens, bytes that no token
starts with, and a string that is never closed.  Every token takes as many bytes
as its grammar allows.  Here is the cut of the first segment.
-/

/-- What a segment of a source is. -/
inductive SegmentKind where
  | blank
  | comment
  | token (kind : TokenKind)
  | unexpected (byte : UInt8)
  | unterminated
  deriving Repr, DecidableEq

/-- A run of bytes of a source, none of them belonging to another segment. -/
structure Segment where
  kind : SegmentKind
  bytes : List UInt8
  deriving Repr, DecidableEq

/-- The byte of an ASCII character. -/
def byteOf (character : Char) : UInt8 :=
  character.toNat.toUInt8

/-- Whether a byte is a decimal digit. -/
def isDigit (byte : UInt8) : Bool :=
  byteOf '0' ≤ byte && byte ≤ byteOf '9'

/-- Whether a byte may start an identifier. -/
def isLetter (byte : UInt8) : Bool :=
  (byteOf 'a' ≤ byte && byte ≤ byteOf 'z')
    || (byteOf 'A' ≤ byte && byte ≤ byteOf 'Z')
    || byte = byteOf '_'

/-- Whether a byte may continue an identifier. -/
def isWordByte (byte : UInt8) : Bool :=
  isLetter byte || isDigit byte

/-- Whether a byte separates tokens and is nothing else. -/
def isBlank (byte : UInt8) : Bool :=
  byte = byteOf ' ' || byte = byteOf '\r' || byte = byteOf '\t'
    || byte = byteOf '\n'

/-- The symbol that a single byte spells. -/
def symbol? (byte : UInt8) : Option Symbol :=
  if byte = byteOf '(' then some .leftParen
  else if byte = byteOf ')' then some .rightParen
  else if byte = byteOf '\x7b' then some .leftBrace
  else if byte = byteOf '\x7d' then some .rightBrace
  else if byte = byteOf ',' then some .comma
  else if byte = byteOf '.' then some .dot
  else if byte = byteOf '-' then some .minus
  else if byte = byteOf '+' then some .plus
  else if byte = byteOf ';' then some .semicolon
  else if byte = byteOf '*' then some .star
  else if byte = byteOf '/' then some .slash
  else if byte = byteOf '!' then some .bang
  else if byte = byteOf '=' then some .equal
  else if byte = byteOf '<' then some .less
  else if byte = byteOf '>' then some .greater
  else none

/-- The symbol that a one-byte symbol becomes when an equals sign follows. -/
def withEqual? : Symbol → Option Symbol
  | .bang => some .bangEqual
  | .equal => some .equalEqual
  | .less => some .lessEqual
  | .greater => some .greaterEqual
  | _ => none

/-- The segment that starts with a symbol, and what follows it. -/
def symbolSegment
    (symbol : Symbol)
    (byte : UInt8)
    (rest : List UInt8) :
    Segment × List UInt8 :=
  match rest, withEqual? symbol with
  | next :: after, some longer =>
      if next = byteOf '=' then (⟨.token (.symbol longer), [byte, next]⟩, after)
      else (⟨.token (.symbol symbol), [byte]⟩, rest)
  | _, _ => (⟨.token (.symbol symbol), [byte]⟩, rest)

/-- The comment that starts with a slash, its rest beginning with a second one. -/
def commentSegment (slash : UInt8) (rest : List UInt8) : Segment × List UInt8 :=
  let (body, after) := rest.span (· != byteOf '\n')
  (⟨.comment, slash :: body⟩, after)

/-- The string that starts with a quote, closed or not, and what follows it. -/
def stringSegment (quote : UInt8) (rest : List UInt8) : Segment × List UInt8 :=
  match rest.span (· != byteOf '"') with
  | (body, closing :: after) =>
      (⟨.token (.string (Text.Utf8.decodeLossy body)), quote :: (body ++ [closing])⟩,
        after)
  | (body, []) => (⟨.unterminated, quote :: body⟩, [])

/-- The digits of a number after the first one, and what follows the number. -/
def numberTail (rest : List UInt8) : List UInt8 × List UInt8 :=
  let (whole, after) := rest.span isDigit
  match after with
  | point :: digit :: beyond =>
      if point = byteOf '.' && isDigit digit then
        let (fraction, remaining) := beyond.span isDigit
        (whole ++ point :: digit :: fraction, remaining)
      else (whole, after)
  | _ => (whole, after)

/-- The number that starts with a digit, and what follows it. -/
def numberSegment (first : UInt8) (rest : List UInt8) : Segment × List UInt8 :=
  let (tail, after) := numberTail rest
  let bytes := first :: tail
  (⟨.token (.number (Number.read (Text.Utf8.decodeLossy bytes))), bytes⟩, after)

/-- The kind of a word: a keyword if it is spelled like one. -/
def wordKind (bytes : List UInt8) : TokenKind :=
  match Keyword.ofSpelling? (Text.Utf8.decodeLossy bytes) with
  | some keyword => .keyword keyword
  | none => .identifier

/-- The word that starts with a letter, and what follows it. -/
def wordSegment (first : UInt8) (rest : List UInt8) : Segment × List UInt8 :=
  let (tail, after) := rest.span isWordByte
  (⟨.token (wordKind (first :: tail)), first :: tail⟩, after)

/-- Whether a comment starts with this byte. -/
def startsComment (byte : UInt8) (rest : List UInt8) : Bool :=
  byte = byteOf '/' && rest.head? = some (byteOf '/')

/-- The first segment of a nonempty source, and what follows it. -/
def firstSegment (byte : UInt8) (rest : List UInt8) : Segment × List UInt8 :=
  if isBlank byte then (⟨.blank, [byte]⟩, rest)
  else if startsComment byte rest then commentSegment byte rest
  else if byte = byteOf '"' then stringSegment byte rest
  else if isDigit byte then numberSegment byte rest
  else if isLetter byte then wordSegment byte rest
  else
    match symbol? byte with
    | some symbol => symbolSegment symbol byte rest
    | none => (⟨.unexpected byte, [byte]⟩, rest)

end Lox.Source
