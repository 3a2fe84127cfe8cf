import Lox.Syntax.Error

namespace Lox.Grammar

/-!
# Reading tokens

A parser reads a token list from the left.  It keeps what is still unread also
when it fails, so that reading can go on after an error.  The steps here take at
most one token; two ways of repeating a step take as many as fit.
-/

/--
What is left to read, the line of the end of the input, and the next identity
for an occurrence.
-/
structure Reader where
  rest : List Token
  endLine : Nat
  nextId : NodeId
  deriving Repr, DecidableEq

/-- A computation that reads tokens, and stops at a syntax error. -/
abbrev Parser := EStateM SyntaxError Reader

namespace Reader

/-- Whether a token ends the input. -/
def isEnd (token : Token) : Bool :=
  token.kind = .endOfInput

/--
A reader at the start of a token list.  The input ends at the first end marker;
a list without one ends on the line of its last token.
-/
def start (tokens : List Token) (nextId : NodeId) : Reader where
  rest := tokens.takeWhile (!isEnd ·)
  endLine :=
    match tokens.find? isEnd with
    | some marker => marker.line
    | none => (tokens.getLast?.map (·.line)).getD 1
  nextId := nextId

/-- A fault reported at the next token. -/
def report (reader : Reader) (fault : SyntaxFault) : SyntaxError where
  fault := fault
  lexeme := reader.rest.head?.map (·.lexeme)
  line := (reader.rest.head?.map (·.line)).getD reader.endLine
  remaining := reader.rest.length

end Reader

/-- Fail with a fault at the next token. -/
def reject (fault : SyntaxFault) : Parser α := fun reader =>
  .error (reader.report fault) reader

/-- Take the next token if it can be read in the given way. -/
def next? (read : Token → Option α) : Parser (Option α) := fun reader =>
  match reader.rest with
  | [] => .ok none reader
  | token :: rest =>
      match read token with
      | some value => .ok (some value) { reader with rest := rest }
      | none => .ok none reader

/-- Take the next token if it can be read in the given way, or else fail. -/
def require (read : Token → Option α) (fault : SyntaxFault) : Parser α := do
  match ← next? read with
  | some value => pure value
  | none => reject fault

/-- The line of a token of a given kind. -/
def lineOf? (kind : TokenKind) (token : Token) : Option Nat :=
  if token.kind = kind then some token.line else none

/-- The name that an identifier is. -/
def identifier? (token : Token) : Option Identifier :=
  if token.kind = .identifier then some ⟨token.lexeme, token.line⟩ else none

/-- Take the next token if it is a given symbol, and say whether it was. -/
def acceptSymbol (symbol : Symbol) : Parser Bool := do
  return (← next? (lineOf? (.symbol symbol))).isSome

/-- Take a given symbol, and return its line. -/
def expectSymbol (symbol : Symbol) (fault : SyntaxFault) : Parser Nat :=
  require (lineOf? (.symbol symbol)) fault

/-- Take a name. -/
def expectName (fault : SyntaxFault) : Parser Identifier :=
  require identifier? fault

/-- Whether the next token is a given symbol. -/
def upcoming (symbol : Symbol) : Parser Bool := fun reader =>
  .ok (reader.rest.head?.any (·.kind = .symbol symbol)) reader

/-- Whether no token is left. -/
def atEnd : Parser Bool := fun reader =>
  .ok reader.rest.isEmpty reader

/-- An identity that no other occurrence has. -/
def freshId : Parser NodeId := fun reader =>
  .ok reader.nextId { reader with nextId := reader.nextId + 1 }

/--
Extend a value by a step until the step declines, at most as many times as the
fuel says.
-/
def extend (step : α → Parser (Option α)) : Nat → α → Parser α
  | 0, value => pure value
  | fuel + 1, value => do
      match ← step value with
      | some longer => extend step fuel longer
      | none => pure value

/--
One or more elements with commas between them.  An element beyond the room that
is left is a fault, reported before it is read.
-/
def separated (element : Parser α) (overflow : SyntaxFault) : Nat → Parser (List α)
  | 0 => reject overflow
  | room + 1 => do
      let first ← element
      if ← acceptSymbol .comma then
        return first :: (← separated element overflow room)
      else
        return [first]

/-- The greatest number of arguments of a call and of parameters of a function. -/
def argumentLimit : Nat :=
  255

/-- Elements with commas between them up to a closing parenthesis, perhaps none. -/
def listed (element : Parser α) (overflow : SyntaxFault) : Parser (List α) := do
  if ← upcoming .rightParen then
    return []
  else
    separated element overflow argumentLimit

/--
Elements up to a closing brace or the end of the input, at most as many as the
fuel says.
-/
def untilBrace (element : Parser α) : Nat → Parser (List α)
  | 0 => pure []
  | fuel + 1 => do
      if (← upcoming .rightBrace) || (← atEnd) then
        return []
      else
        let first ← element
        return first :: (← untilBrace element fuel)

end Lox.Grammar
