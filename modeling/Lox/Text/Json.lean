import Lox.Text.Quoted

namespace Lox.Text

/-!
# Structured documents

Documents of texts, bare words, lists and records, written in JSON over several
lines with two spaces of indentation for every level.
-/

/-- A document; a bare word is written as it stands. -/
inductive Document where
  | bare (word : String)
  | text (contents : String)
  | list (elements : List Document)
  | record (fields : List (String × Document))

namespace Document

/-- One character inside a JSON text. -/
def escapedCharacter (character : Char) : String :=
  match character with
  | '"' => "\\\""
  | '\\' => "\\\\"
  | '\n' => "\\n"
  | '\r' => "\\r"
  | '\t' => "\\t"
  | '\x08' => "\\b"
  | '\x0c' => "\\f"
  | _ =>
      if character.toNat < 0x20 then
        let digits := Nat.toDigits 16 character.toNat
        "\\u" ++ String.ofList (List.replicate (4 - digits.length) '0' ++ digits)
      else
        String.singleton character

/-- A JSON text. -/
def escaped (contents : String) : String :=
  "\"" ++ String.join (contents.toList.map escapedCharacter) ++ "\""

/-- A line end and the indentation of a level. -/
def lineStart (level : Nat) : String :=
  "\n" ++ String.ofList (List.replicate (2 * level) ' ')

/-- Parts on lines of their own between two brackets; no parts leave none between. -/
def enclosed (level : Nat) (opening closing : String) (parts : List String) : String :=
  if parts.isEmpty then opening ++ closing
  else
    opening ++ lineStart (level + 1)
      ++ String.intercalate ("," ++ lineStart (level + 1)) parts
      ++ lineStart level ++ closing

mutual

/-- The text of a document that starts on a line of some level. -/
def render (level : Nat) : Document → String
  | .bare word => word
  | .text contents => escaped contents
  | .list elements => enclosed level "[" "]" (renderElements (level + 1) elements)
  | .record fields =>
      enclosed level "\x7b" "\x7d" (renderFields (level + 1) fields)

/-- The texts of the elements of a list. -/
def renderElements (level : Nat) : List Document → List String
  | [] => []
  | first :: rest => render level first :: renderElements level rest

/-- The texts of the fields of a record. -/
def renderFields (level : Nat) : List (String × Document) → List String
  | [] => []
  | (name, value) :: rest =>
      (escaped name ++ ": " ++ render level value) :: renderFields level rest

end

/-- The text of a document that stands alone. -/
def pretty (document : Document) : String :=
  render 0 document

end Document

end Lox.Text
