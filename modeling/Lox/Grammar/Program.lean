import Lox.Grammar.Expression

namespace Lox.Grammar

/-!
# Statements, declarations and programs

Each rule is written in terms of `statement` and `declaration`, which read a
statement nested in this one; as with expressions, the number of tokens left
bounds the nesting.  A program is read to its end: after a syntax error reading
goes on at the next likely start of a statement, so that every error is found.
-/

/-- What a statement is, as its first token says. -/
inductive StatementStart where
  | forLoop
  | branch
  | print
  | returnValue (line : Nat)
  | loop
  | block
  deriving Repr, DecidableEq

/-- The statement that a token begins, unless it begins an expression. -/
def statementStart? (token : Token) : Option StatementStart :=
  match token.kind with
  | .keyword .forWord => some .forLoop
  | .keyword .ifWord => some .branch
  | .keyword .printWord => some .print
  | .keyword .returnWord => some (.returnValue token.line)
  | .keyword .whileWord => some .loop
  | .symbol .leftBrace => some .block
  | _ => none

/-- What a declaration declares, as its first token says. -/
inductive DeclarationStart where
  | classDeclaration
  | functionDeclaration
  | varDeclaration
  deriving Repr, DecidableEq

/-- The declaration that a token begins, unless it begins a statement. -/
def declarationStart? (token : Token) : Option DeclarationStart :=
  match token.kind with
  | .keyword .classWord => some .classDeclaration
  | .keyword .funWord => some .functionDeclaration
  | .keyword .varWord => some .varDeclaration
  | _ => none

/-- The declarations of a block whose opening brace has been taken. -/
def blockBody (declaration : Parser Stmt) (size : Nat) : Parser (List Stmt) := do
  let body ← untilBrace declaration size
  discard (expectSymbol .rightBrace .closingBlockExpected)
  return body

/-- A function or method from its name on. -/
def functionAfter
    (role : FunctionRole)
    (declaration : Parser Stmt)
    (size : Nat) :
    Parser FunctionDeclaration := do
  let name ← expectName (.functionNameExpected role)
  discard (expectSymbol .leftParen (.parametersExpected role))
  let parameters ← listed (expectName .parameterNameExpected) .tooManyParameters
  discard (expectSymbol .rightParen .closingParametersExpected)
  discard (expectSymbol .leftBrace (.functionBodyExpected role))
  let body ← blockBody declaration size
  return .intro name parameters body

/-- The superclass that a class names, if it does. -/
def superclassClause : Parser (Option Reference) := do
  if ← acceptSymbol .less then
    let name ← expectName .superclassNameExpected
    return some ⟨← freshId, name⟩
  else
    return none

/-- A class declaration from the name of the class on. -/
def classAfter (declaration : Parser Stmt) (size : Nat) : Parser Stmt := do
  let name ← expectName .classNameExpected
  let superclass ← superclassClause
  discard (expectSymbol .leftBrace .classBodyExpected)
  let methods ← untilBrace (functionAfter .method declaration size) size
  discard (expectSymbol .rightBrace .closingClassBodyExpected)
  return .classDeclaration name superclass methods

/-- A variable declaration from the name of the variable on. -/
def varAfter (size : Nat) : Parser Stmt := do
  let name ← expectName .variableNameExpected
  let initializer ←
    if ← acceptSymbol .equal then some <$> expressionWithin size else pure none
  discard (expectSymbol .semicolon .declarationEndExpected)
  return .varDeclaration name initializer

/-- An expression used as a statement. -/
def expressionStatement (size : Nat) : Parser Stmt := do
  let value ← expressionWithin size
  discard (expectSymbol .semicolon .expressionEndExpected)
  return .expression value

/-- An expression, unless the symbol that would follow it comes at once. -/
def optionalExpression (size : Nat) (following : Symbol) : Parser (Option Expr) := do
  if ← upcoming following then
    return none
  else
    some <$> expressionWithin size

/-- The first clause of a `for` loop with the semicolon that ends it. -/
def forInitializer (size : Nat) : Parser (Option Stmt) := do
  if ← acceptSymbol .semicolon then
    return none
  else if (← next? (lineOf? (.keyword .varWord))).isSome then
    some <$> varAfter size
  else
    some <$> expressionStatement size

/-- A `for` loop after its keyword. -/
def forAfter (statement : Parser Stmt) (size : Nat) : Parser Stmt := do
  discard (expectSymbol .leftParen .forClausesExpected)
  let initializer ← forInitializer size
  let condition ← optionalExpression size .semicolon
  discard (expectSymbol .semicolon .loopConditionEndExpected)
  let increment ← optionalExpression size .rightParen
  discard (expectSymbol .rightParen .closingForClausesExpected)
  let body ← statement
  return .forLoop initializer condition increment body

/-- A condition in parentheses. -/
def parenthesized
    (size : Nat)
    (opening closing : SyntaxFault) :
    Parser Expr := do
  discard (expectSymbol .leftParen opening)
  let condition ← expressionWithin size
  discard (expectSymbol .rightParen closing)
  return condition

/-- A branch after its keyword; `else` belongs to the nearest branch without one. -/
def branchAfter (statement : Parser Stmt) (size : Nat) : Parser Stmt := do
  let condition ←
    parenthesized size .ifConditionExpected .closingIfConditionExpected
  let consequent ← statement
  let alternative ←
    if (← next? (lineOf? (.keyword .elseWord))).isSome then
      some <$> statement
    else
      pure none
  return .branch condition consequent alternative

/-- A `while` loop after its keyword. -/
def loopAfter (statement : Parser Stmt) (size : Nat) : Parser Stmt := do
  let condition ←
    parenthesized size .whileConditionExpected .closingWhileConditionExpected
  let body ← statement
  return .loop condition body

/-- The rest of a statement whose first token has been taken. -/
def statementAfter
    (statement declaration : Parser Stmt)
    (size : Nat) :
    StatementStart → Parser Stmt
  | .forLoop => forAfter statement size
  | .branch => branchAfter statement size
  | .print => do
      let value ← expressionWithin size
      discard (expectSymbol .semicolon .printEndExpected)
      return .print value
  | .returnValue line => do
      let value ← optionalExpression size .semicolon
      discard (expectSymbol .semicolon .returnEndExpected)
      return .returnValue line value
  | .loop => loopAfter statement size
  | .block => .block <$> blockBody declaration size

/-- A statement. -/
def anyStatement (statement declaration : Parser Stmt) (size : Nat) : Parser Stmt := do
  match ← next? statementStart? with
  | some start => statementAfter statement declaration size start
  | none => expressionStatement size

/-- The rest of a declaration whose first token has been taken. -/
def declarationAfter
    (declaration : Parser Stmt)
    (size : Nat) :
    DeclarationStart → Parser Stmt
  | .classDeclaration => classAfter declaration size
  | .functionDeclaration =>
      .functionDeclaration <$> functionAfter .function declaration size
  | .varDeclaration => varAfter size

/-- A declaration or a statement. -/
def anyDeclaration (statement declaration : Parser Stmt) (size : Nat) : Parser Stmt := do
  match ← next? declarationStart? with
  | some start => declarationAfter declaration size start
  | none => anyStatement statement declaration size

mutual

/-- A statement, where at most as many tokens are left as the size says. -/
def statementWithin : Nat → Parser Stmt
  | 0 => reject .expressionExpected
  | size + 1 =>
      anyStatement (statementWithin size) (declarationWithin size) (size + 1)

/-- A declaration, where at most as many tokens are left as the size says. -/
def declarationWithin : Nat → Parser Stmt
  | 0 => reject .expressionExpected
  | size + 1 =>
      anyDeclaration (statementWithin size) (declarationWithin size) (size + 1)

end

/-- Whether a token is likely to start a statement. -/
def startsStatement (token : Token) : Bool :=
  match token.kind with
  | .keyword .classWord => true
  | .keyword .funWord => true
  | .keyword .varWord => true
  | .keyword .forWord => true
  | .keyword .ifWord => true
  | .keyword .whileWord => true
  | .keyword .printWord => true
  | .keyword .returnWord => true
  | _ => false

/-- What is left from the next likely start of a statement on, after a dropped token. -/
def resumeAfter (dropped : Token) : List Token → List Token
  | [] => []
  | token :: rest =>
      if dropped.kind = .symbol .semicolon || startsStatement token then
        token :: rest
      else
        resumeAfter token rest

/-- Drop one token, and then all up to the next likely start of a statement. -/
def resynchronize : List Token → List Token
  | [] => []
  | token :: rest => resumeAfter token rest

/-- The declarations that were read, the errors between them, and what is left. -/
structure ProgramReading where
  statements : List Stmt
  errors : List SyntaxError
  reader : Reader

/-- Read declarations to the end of the input, at most as many as the fuel says. -/
def readProgramWithin : Nat → Reader → ProgramReading
  | 0, reader => ⟨[], [], reader⟩
  | fuel + 1, reader =>
      if reader.rest.isEmpty then ⟨[], [], reader⟩
      else
        match declarationWithin (fuel + 1) reader with
        | .ok statement reader =>
            let reading := readProgramWithin fuel reader
            { reading with statements := statement :: reading.statements }
        | .error error reader =>
            let reading :=
              readProgramWithin fuel
                { reader with rest := resynchronize reader.rest }
            { reading with errors := error :: reading.errors }

/-- Read declarations to the end of the input. -/
def readProgram (reader : Reader) : ProgramReading :=
  readProgramWithin reader.rest.length reader

/-- The statements of a reading without errors, or else its first error. -/
def ProgramReading.verdict (reading : ProgramReading) : Except SyntaxError (List Stmt) :=
  match reading.errors.head? with
  | some error => .error error
  | none => .ok reading.statements

/-- A whole program as a parser. -/
def program : Parser (List Stmt) := fun reader =>
  let reading := readProgram reader
  match reading.verdict with
  | .ok statements => .ok statements reading.reader
  | .error error => .error error reading.reader

end Lox.Grammar
