import Lox.Source.Scan
import Lox.Text.Json

namespace Lox

/-!
# Token listings

The tokens of a source as lines of text or as a JSON document.
-/

/-- A kind in a document: its name, and for a literal also its value. -/
def TokenKind.document : TokenKind → Text.Document
  | .string contents => .record [("STRING", .text contents)]
  | .number value => .record [("NUMBER", .bare value.documentText)]
  | kind => .text kind.label

/-- A token in a document. -/
def Token.document (token : Token) : Text.Document :=
  .record
    [ ("token_type", token.kind.document),
      ("lexeme", .text token.lexeme),
      ("line", .bare (toString token.line)) ]

/-- A list of tokens as JSON text. -/
def Token.listingJson (tokens : List Token) : String :=
  Text.Document.pretty (.list (tokens.map Token.document))

/-- A list of tokens as text with one line for each. -/
def Token.listing (tokens : List Token) : String :=
  String.join (tokens.map (·.display ++ "\n"))

end Lox
