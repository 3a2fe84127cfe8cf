import Lox.Grammar.Parser

namespace Lox.Grammar

/-!
# Expressions

The levels of the expression grammar, from the loosest to the tightest: an
assignment, `or`, `and`, equality, comparison, sums, products, operators with one
operand, calls and properties, and primary expressions.  Each level is written
in terms of the next one and of `inner`, which reads a whole expression nested
in this one.  The last definition ties the knot: a nested expression always
stands behind a token that has been taken, so the number of tokens left bounds
the nesting.
-/

/-- How an operator of a level joins its two operands. -/
abbrev Join := Expr → Expr → Expr

/-- The join of two operands by a binary operator on the line of its token. -/
def binaryJoin (operator : BinaryOperator) (token : Token) : Option Join :=
  some (.binary operator token.line)

/-- The operators between disjuncts. -/
def disjunction? (token : Token) : Option Join :=
  match token.kind with
  | .keyword .orWord => some (.logical .or)
  | _ => none

/-- The operators between conjuncts. -/
def conjunction? (token : Token) : Option Join :=
  match token.kind with
  | .keyword .andWord => some (.logical .and)
  | _ => none

/-- The operators that test for equality. -/
def equality? (token : Token) : Option Join :=
  match token.kind with
  | .symbol .bangEqual => binaryJoin .notEqual token
  | .symbol .equalEqual => binaryJoin .equal token
  | _ => none

/-- The operators that compare numbers. -/
def comparison? (token : Token) : Option Join :=
  match token.kind with
  | .symbol .greater => binaryJoin .greater token
  | .symbol .greaterEqual => binaryJoin .greaterEqual token
  | .symbol .less => binaryJoin .less token
  | .symbol .lessEqual => binaryJoin .lessEqual token
  | _ => none

/-- The operators between the terms of a sum. -/
def sum? (token : Token) : Option Join :=
  match token.kind with
  | .symbol .minus => binaryJoin .subtract token
  | .symbol .plus => binaryJoin .add token
  | _ => none

/-- The operators between the factors of a product. -/
def product? (token : Token) : Option Join :=
  match token.kind with
  | .symbol .slash => binaryJoin .divide token
  | .symbol .star => binaryJoin .multiply token
  | _ => none

/-- The operators with one operand, and how they take it. -/
def unary? (token : Token) : Option (Expr → Expr) :=
  match token.kind with
  | .symbol .bang => some (.unary .not token.line)
  | .symbol .minus => some (.unary .negate token.line)
  | _ => none

/-- What the first token of a primary expression begins. -/
inductive PrimaryStart where
  | literal (value : Literal)
  | name (name : Identifier)
  | this (line : Nat)
  | super (line : Nat)
  | group
  deriving Repr, DecidableEq

/-- The primary expression that a token begins. -/
def primaryStart? (token : Token) : Option PrimaryStart :=
  match token.kind with
  | .keyword .falseWord => some (.literal (.bool false))
  | .keyword .trueWord => some (.literal (.bool true))
  | .keyword .nilWord => some (.literal .nil)
  | .number value => some (.literal (.number value))
  | .string contents => some (.literal (.string contents))
  | .keyword .thisWord => some (.this token.line)
  | .keyword .superWord => some (.super token.line)
  | .identifier => some (.name ⟨token.lexeme, token.line⟩)
  | .symbol .leftParen => some .group
  | _ => none

/-- The rest of a primary expression whose first token has been taken. -/
def primaryAfter (inner : Parser Expr) : PrimaryStart → Parser Expr
  | .literal value => pure (.literal value)
  | .name name => do
      return .reference ⟨← freshId, name⟩
  | .this line => do
      return .this (← freshId) line
  | .super line => do
      discard (expectSymbol .dot .superDotExpected)
      let method ← expectName .superMethodExpected
      return .super (← freshId) line method
  | .group => do
      let expression ← inner
      discard (expectSymbol .rightParen .closingGroupExpected)
      return .grouping expression

/-- A literal, a name, `this`, `super` with its method, or a parenthesized expression. -/
def primary (inner : Parser Expr) : Parser Expr := do
  match ← next? primaryStart? with
  | some start => primaryAfter inner start
  | none => reject .expressionExpected

/-- The call or property that follows an expression, if one does. -/
def callOrProperty (inner : Parser Expr) (subject : Expr) : Parser (Option Expr) := do
  if ← acceptSymbol .leftParen then
    let arguments ← listed inner .tooManyArguments
    let line ← expectSymbol .rightParen .closingArgumentsExpected
    return some (.call subject arguments line)
  else if ← acceptSymbol .dot then
    let name ← expectName .propertyNameExpected
    return some (.property subject name)
  else
    return none

/-- A primary expression with its calls and properties. -/
def callChain (inner : Parser Expr) (size : Nat) : Parser Expr := do
  let subject ← primary inner
  extend (callOrProperty inner) size subject

/-- An operand with the operators in front of it. -/
def unaryChain (operand : Parser Expr) : Nat → Parser Expr
  | 0 => operand
  | size + 1 => do
      match ← next? unary? with
      | some apply => return apply (← unaryChain operand size)
      | none => operand

/-- The operator and operand that follow a left operand, if they do. -/
def joinedNext
    (join? : Token → Option Join)
    (operand : Parser Expr)
    (left : Expr) :
    Parser (Option Expr) := do
  match ← next? join? with
  | some join => return some (join left (← operand))
  | none => return none

/-- Operands with the operators of one level between them, grouped to the left. -/
def joinedChain
    (join? : Token → Option Join)
    (operand : Parser Expr)
    (size : Nat) :
    Parser Expr := do
  let first ← operand
  extend (joinedNext join? operand) size first

/-- Factors with the operators of a product between them. -/
def product (inner : Parser Expr) (size : Nat) : Parser Expr :=
  joinedChain product? (unaryChain (callChain inner size) size) size

/-- Products with the operators of a sum between them. -/
def sum (inner : Parser Expr) (size : Nat) : Parser Expr :=
  joinedChain sum? (product inner size) size

/-- Sums with the operators of a comparison between them. -/
def comparison (inner : Parser Expr) (size : Nat) : Parser Expr :=
  joinedChain comparison? (sum inner size) size

/-- Comparisons with the operators of equality between them. -/
def equality (inner : Parser Expr) (size : Nat) : Parser Expr :=
  joinedChain equality? (comparison inner size) size

/-- Equalities with `and` between them. -/
def conjunction (inner : Parser Expr) (size : Nat) : Parser Expr :=
  joinedChain conjunction? (equality inner size) size

/-- Every expression that is no assignment: conjunctions with `or` between them. -/
def operation (inner : Parser Expr) (size : Nat) : Parser Expr :=
  joinedChain disjunction? (conjunction inner size) size

/--
An operation, or an assignment to what reads as an operation: a variable or a
property.  Any other target is a fault, reported at the equals sign once the
value has been read.
-/
def assignment (inner : Parser Expr) (size : Nat) : Parser Expr := do
  let target ← operation inner size
  let atEqual ← get
  if ← acceptSymbol .equal then
    let value ← inner
    match target with
    | .reference occurrence =>
        return .assign ⟨← freshId, occurrence.name⟩ value
    | .property object name => return .setProperty object name value
    | _ => throw (atEqual.report .invalidAssignmentTarget)
  else
    return target

/-- An expression, where at most as many tokens are left as the size says. -/
def expressionWithin : Nat → Parser Expr
  | 0 => reject .expressionExpected
  | size + 1 => assignment (expressionWithin size) (size + 1)

/-- An expression. -/
def expression : Parser Expr := do
  expressionWithin (← get).rest.length

/-- An expression that takes all tokens left. -/
def wholeExpression : Parser Expr := do
  let result ← expression
  if ← atEnd then
    return result
  else
    reject .endOfExpressionExpected

end Lox.Grammar
