import Lox.Syntax.Tree

namespace Lox

/-!
# Syntax errors

What the grammar requires at a token that does not fit.  An error names the
token at which it is reported, or the end of the input, and how many tokens were
left there.
-/

/-- The two places where a function is declared. -/
inductive FunctionRole where
  | function
  | method
  deriving Repr, DecidableEq

/-- What a token list lacks or has too much of. -/
inductive SyntaxFault where
  | expressionExpected
  | endOfExpressionExpected
  | invalidAssignmentTarget
  | propertyNameExpected
  | superDotExpected
  | superMethodExpected
  | closingGroupExpected
  | closingArgumentsExpected
  | tooManyArguments
  | classNameExpected
  | superclassNameExpected
  | classBodyExpected
  | closingClassBodyExpected
  | functionNameExpected (role : FunctionRole)
  | parametersExpected (role : FunctionRole)
  | parameterNameExpected
  | tooManyParameters
  | closingParametersExpected
  | functionBodyExpected (role : FunctionRole)
  | closingBlockExpected
  | variableNameExpected
  | declarationEndExpected
  | expressionEndExpected
  | printEndExpected
  | returnEndExpected
  | ifConditionExpected
  | closingIfConditionExpected
  | whileConditionExpected
  | closingWhileConditionExpected
  | forClausesExpected
  | loopConditionEndExpected
  | closingForClausesExpected
  deriving Repr, DecidableEq

/-- The word for a function in a message. -/
def FunctionRole.text : FunctionRole → String
  | .function => "function"
  | .method => "method"

/-- The text of a syntax fault. -/
def SyntaxFault.message : SyntaxFault → String
  | .expressionExpected => "Expect expression."
  | .endOfExpressionExpected => "Expected end of expression."
  | .invalidAssignmentTarget => "Invalid assignment target."
  | .propertyNameExpected => "Expect property name after '.'."
  | .superDotExpected => "Expect '.' after 'super'."
  | .superMethodExpected => "Expect superclass method name."
  | .closingGroupExpected => "Expect ')' after expression."
  | .closingArgumentsExpected => "Expect ')' after arguments."
  | .tooManyArguments => "Can't have more than 255 arguments."
  | .classNameExpected => "Expect class name."
  | .superclassNameExpected => "Expect superclass name."
  | .classBodyExpected => "Expect '\x7b' before class body."
  | .closingClassBodyExpected => "Expect '\x7d' after class body."
  | .functionNameExpected role => "Expect " ++ role.text ++ " name."
  | .parametersExpected role => "Expect '(' after " ++ role.text ++ " name."
  | .parameterNameExpected => "Expect parameter name."
  | .tooManyParameters => "Can't have more than 255 parameters."
  | .closingParametersExpected => "Expect ')' after parameters."
  | .functionBodyExpected role => "Expect '\x7b' before " ++ role.text ++ " body."
  | .closingBlockExpected => "Expect '\x7d' after block."
  | .variableNameExpected => "Expect variable name."
  | .declarationEndExpected => "Expect ';' after variable declaration."
  | .expressionEndExpected => "Expect ';' after expression."
  | .printEndExpected => "Expect ';' after value."
  | .returnEndExpected => "Expect ';' after return value."
  | .ifConditionExpected => "Expect '(' after 'if'."
  | .closingIfConditionExpected => "Expect ')' after if condition."
  | .whileConditionExpected => "Expect '(' after 'while'."
  | .closingWhileConditionExpected => "Expect ')' after condition."
  | .forClausesExpected => "Expect '(' after 'for'."
  | .loopConditionEndExpected => "Expect ';' after loop condition."
  | .closingForClausesExpected => "Expect ')' after for clauses."

/--
A fault of a token list, the text of the token at which it is reported (none at
the end of the input), its line, and the number of tokens from it on.
-/
structure SyntaxError where
  fault : SyntaxFault
  lexeme : Option String
  line : Nat
  remaining : Nat
  deriving Repr, DecidableEq

/-- Where a syntax error is reported, as its message says it. -/
def SyntaxError.location (error : SyntaxError) : String :=
  match error.lexeme with
  | some lexeme => " at '" ++ lexeme ++ "'"
  | none => " at end"

end Lox
