import Lox.Text.Invisible

namespace Lox.Text

/-!
# Quoted text

Text between double quotes in which quotes and backslashes are escaped and every
character that cannot be seen is written by its number.
-/

/-- A natural number in lower-case hexadecimal digits. -/
def hexadecimal (value : Nat) : String :=
  String.ofList (Nat.toDigits 16 value)

/-- One character inside quotes. -/
def quotedCharacter (character : Char) : String :=
  match character with
  | '"' => "\\\""
  | '\\' => "\\\\"
  | '\n' => "\\n"
  | '\r' => "\\r"
  | '\t' => "\\t"
  | '\x00' => "\\0"
  | _ =>
      if isInvisible character then
        "\\u\x7b" ++ hexadecimal character.toNat ++ "\x7d"
      else
        String.singleton character

/-- A text in quotes. -/
def quoted (text : String) : String :=
  "\"" ++ String.join (text.toList.map quotedCharacter) ++ "\""

end Lox.Text
