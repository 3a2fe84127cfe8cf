import Lox.Number.Layout

namespace Lox

/-!
# Tokens

The words of a program: punctuation and operators, keywords, identifiers, and
string and number literals, which carry their value.  Every token keeps the text
it was read from and the line on which it ends.
-/

/-- Punctuation and operators. -/
inductive Symbol where
  | leftParen
  | rightParen
  | leftBrace
  | rightBrace
  | comma
  | dot
  | minus
  | plus
  | semicolon
  | slash
  | star
  | bang
  | bangEqual
  | equal
  | equalEqual
  | greater
  | greaterEqual
  | less
  | lessEqual
  deriving Repr, DecidableEq

/-- The reserved words. -/
inductive Keyword where
  | andWord
  | classWord
  | elseWord
  | falseWord
  | funWord
  | forWord
  | ifWord
  | nilWord
  | orWord
  | printWord
  | returnWord
  | superWord
  | thisWord
  | trueWord
  | varWord
  | whileWord
  deriving Repr, DecidableEq

/-- The kind of a token, with the value of a literal. -/
inductive TokenKind where
  | symbol (sign : Symbol)
  | keyword (word : Keyword)
  | identifier
  | string (contents : String)
  | number (value : Number)
  | endOfInput
  deriving Repr, DecidableEq

/-- One word of a program, its text, and the line on which it ends. -/
structure Token where
  kind : TokenKind
  lexeme : String
  line : Nat
  deriving Repr, DecidableEq

namespace Symbol

/-- The text of a symbol in a program. -/
def spelling : Symbol → String
  | .leftParen => "("
  | .rightParen => ")"
  | .leftBrace => "\x7b"
  | .rightBrace => "\x7d"
  | .comma => ","
  | .dot => "."
  | .minus => "-"
  | .plus => "+"
  | .semicolon => ";"
  | .slash => "/"
  | .star => "*"
  | .bang => "!"
  | .bangEqual => "!="
  | .equal => "="
  | .equalEqual => "=="
  | .greater => ">"
  | .greaterEqual => ">="
  | .less => "<"
  | .lessEqual => "<="

/-- The name of a symbol in a token listing. -/
def label : Symbol → String
  | .leftParen => "LEFT_PAREN"
  | .rightParen => "RIGHT_PAREN"
  | .leftBrace => "LEFT_BRACE"
  | .rightBrace => "RIGHT_BRACE"
  | .comma => "COMMA"
  | .dot => "DOT"
  | .minus => "MINUS"
  | .plus => "PLUS"
  | .semicolon => "SEMICOLON"
  | .slash => "SLASH"
  | .star => "STAR"
  | .bang => "BANG"
  | .bangEqual => "BANG_EQUAL"
  | .equal => "EQUAL"
  | .equalEqual => "EQUAL_EQUAL"
  | .greater => "GREATER"
  | .greaterEqual => "GREATER_EQUAL"
  | .less => "LESS"
  | .lessEqual => "LESS_EQUAL"

end Symbol

namespace Keyword

/-- The reserved words in alphabetical order. -/
def all : List Keyword :=
  [ .andWord, .classWord, .elseWord, .falseWord, .forWord, .funWord, .ifWord,
    .nilWord, .orWord, .printWord, .returnWord, .superWord, .thisWord,
    .trueWord, .varWord, .whileWord ]

/-- The text of a keyword in a program. -/
def spelling : Keyword → String
  | .andWord => "and"
  | .classWord => "class"
  | .elseWord => "else"
  | .falseWord => "false"
  | .forWord => "for"
  | .funWord => "fun"
  | .ifWord => "if"
  | .nilWord => "nil"
  | .orWord => "or"
  | .printWord => "print"
  | .returnWord => "return"
  | .superWord => "super"
  | .thisWord => "this"
  | .trueWord => "true"
  | .varWord => "var"
  | .whileWord => "while"

/-- The name of a keyword in a token listing. -/
def label : Keyword → String
  | .andWord => "AND"
  | .classWord => "CLASS"
  | .elseWord => "ELSE"
  | .falseWord => "FALSE"
  | .forWord => "FOR"
  | .funWord => "FUN"
  | .ifWord => "IF"
  | .nilWord => "NIL"
  | .orWord => "OR"
  | .printWord => "PRINT"
  | .returnWord => "RETURN"
  | .superWord => "SUPER"
  | .thisWord => "THIS"
  | .trueWord => "TRUE"
  | .varWord => "VAR"
  | .whileWord => "WHILE"

/-- The keyword with a given spelling. -/
def ofSpelling? (text : String) : Option Keyword :=
  all.find? fun keyword => keyword.spelling = text

end Keyword

namespace TokenKind

/-- The name of a kind in a token listing. -/
def label : TokenKind → String
  | .symbol sign => sign.label
  | .keyword word => word.label
  | .identifier => "IDENTIFIER"
  | .string _ => "STRING"
  | .number _ => "NUMBER"
  | .endOfInput => "EOF"

/-- The value of a literal as a token listing shows it. -/
def literalText : TokenKind → String
  | .string contents => contents
  | .number value => value.literalText
  | _ => "null"

/-- Whether two kinds agree, whatever the values of the literals. -/
def sameSort : TokenKind → TokenKind → Bool
  | .string _, .string _ => true
  | .number _, .number _ => true
  | left, right => left = right

end TokenKind

namespace Token

/-- One line of a token listing: kind, text and literal value. -/
def display (token : Token) : String :=
  token.kind.label ++ " " ++ token.lexeme ++ " " ++ token.kind.literalText

/--
Whether two tokens are the same word on the same line.  The value of a literal
is left out, since the text determines it.
-/
def sameWord (left right : Token) : Bool :=
  left.kind.sameSort right.kind
    && left.lexeme = right.lexeme
    && left.line = right.line

end Token

end Lox
