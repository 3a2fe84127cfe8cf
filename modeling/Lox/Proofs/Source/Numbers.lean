import Lox.Proofs.Number.Signs
import Lox.Proofs.Source.Printed
import Lox.Proofs.Source.Rescanned

namespace Lox.Source

open Text.Utf8 (encode decodeLossy)
open Number (IsRow Pointed)

/-!
# Scanning printed numbers

Digits with a point between two of them are one number token, and nothing of them is left
over.  A minus sign is a token of its own, whatever follows it.  So the text that a program
prints for a finite number is scanned as one token, with a second one in front of it if the
number has the sign bit.
-/

/-! ## Digits as bytes -/

/-- A digit is encoded as one byte, which is a digit. -/
theorem encodeChar_digit {digit : Char} (given : digit.isDigit) :
    String.utf8EncodeChar digit = [byteOf digit] ∧ isDigit (byteOf digit) := by
  have each : ∀ number : Fin 58, 48 ≤ number.val →
      String.utf8EncodeChar (Char.ofNat number.val) = [byteOf (Char.ofNat number.val)] ∧
        isDigit (byteOf (Char.ofNat number.val)) := by
    decide
  simp only [Char.isDigit, Bool.and_eq_true, decide_eq_true_eq, ge_iff_le,
    UInt32.le_iff_toNat_le] at given
  obtain ⟨least, greatest⟩ := given
  have shown := each ⟨digit.toNat, Nat.lt_succ_of_le greatest⟩ least
  rwa [Char.ofNat_toNat] at shown

section

variable {digits : List Char} (row : IsRow digits)

include row

theorem encode_row : digits.flatMap String.utf8EncodeChar = digits.map byteOf := by
  induction digits with
  | nil => rfl
  | cons digit later inductionHypothesis =>
      obtain ⟨isDigit, rowLater⟩ := List.forall_mem_cons.mp row
      rw [List.flatMap_cons, (encodeChar_digit isDigit).1, inductionHypothesis rowLater]
      rfl

theorem isDigit_of_row : ∀ byte ∈ digits.map byteOf, isDigit byte := by
  intro byte member
  obtain ⟨digit, inside, rfl⟩ := List.mem_map.mp member
  exact (encodeChar_digit (row digit inside)).2

end

/-- Digits with a point or without are a number, the one that they are read as. -/
theorem Lexeme.of_pointed {text : String} (pointed : Pointed text.toList) :
    Lexeme (encode text) (.number (Number.read text)) := by
  have value : Number.read text = Number.read (decodeLossy (encode text)) := by
    rw [decodeLossy_encode]
  rw [value]
  unfold encode
  generalize text.toList = characters at pointed
  cases pointed with
  | whole nonempty row =>
      rw [encode_row row]
      exact .whole (mt List.map_eq_nil_iff.mp nonempty) (isDigit_of_row row)
  | decimal nonempty row behind rowBehind =>
      have point : String.utf8EncodeChar '.' = [byteOf '.'] := by decide
      rw [List.flatMap_append, List.flatMap_cons, encode_row row, encode_row rowBehind, point]
      exact .decimal (mt List.map_eq_nil_iff.mp nonempty) (isDigit_of_row row)
        (mt List.map_eq_nil_iff.mp behind) (isDigit_of_row rowBehind)

/-! ## Numbers and minus signs among segments -/

/-- A number ends on the line on which it begins. -/
theorem Lexeme.newline_notMem_number
    {bytes : List UInt8}
    {value : Number}
    (given : Lexeme bytes (.number value)) :
    newline ∉ bytes := by
  intro ended
  obtain ⟨body, rfl, inside⟩ := given.string_of_newline ended
  cases (Lexeme.string inside).kind_unique given

/-- The byte of a minus sign. -/
def minus : UInt8 :=
  byteOf '-'

/-- A minus sign in front of a source is a segment of its own. -/
theorem Segmented.behind_minus
    {source : List UInt8}
    {found : List Segment}
    (given : Segmented source found) :
    Segmented (minus :: source) (⟨.token (.symbol .minus), [minus]⟩ :: found) := by
  have alone :
      symbolSegment .minus minus source = (⟨.token (.symbol .minus), [minus]⟩, source) := by
    cases source <;> rfl
  have noComment : ¬[slash, slash] <+: minus :: source := by
    rw [List.cons_prefix_cons]
    exact fun starts => absurd starts.1 (by decide)
  have isMinus : symbol? minus = some .minus := rfl
  have cut := symbolSegment_cut isMinus noComment
  rw [alone] at cut
  exact .cons cut given

/-! ## Printed numbers -/

section

variable {text : String} (pointed : Pointed text.toList)

include pointed

/-- Digits with a point or without are scanned as one number. -/
theorem scan_pointed :
    scan (encode text) =
      .ok [⟨.number (Number.read text), text, 1⟩, ⟨.endOfInput, "", 1⟩] := by
  have lexeme := Lexeme.of_pointed pointed
  have line : lineAfter (encode text) = 1 := by
    rw [lineAfter, List.count_eq_zero.mpr lexeme.newline_notMem_number]
  refine scan_of_reported lexeme.segmented ?_
  simp [report, line, decodeLossy_encode]

/-- With a minus sign in front of them they are scanned as the sign and the same number. -/
theorem scan_minus_pointed :
    scan (encode ("-" ++ text)) =
      .ok [⟨.symbol .minus, "-", 1⟩, ⟨.number (Number.read text), text, 1⟩,
        ⟨.endOfInput, "", 1⟩] := by
  have lexeme := Lexeme.of_pointed pointed
  have line : lineAfter (minus :: encode text) = 1 := by
    have noLine := List.not_mem_cons_of_ne_of_not_mem (by decide : newline ≠ minus)
      lexeme.newline_notMem_number
    rw [lineAfter, List.count_eq_zero.mpr noLine]
  have front : encode ("-" ++ text) = minus :: encode text := by
    unfold encode
    rw [String.toList_append, List.flatMap_append]
    rfl
  rw [front]
  refine scan_of_reported lexeme.segmented.behind_minus ?_
  have sign : decodeLossy [minus] = "-" := by decide
  have signLine : lineAfter [minus] = 1 := by decide
  simp [report, line, sign, signLine, decodeLossy_encode]

end

section

variable {number : Number} (finite : number.magnitude < Number.infinityBits)

include finite

/-- What is printed for a number without the sign bit is one token, its whole text. -/
theorem scan_display_of_positive (positive : number.isNegative = false) :
    scan (encode number.display) =
      .ok [⟨.number number, number.display, 1⟩, ⟨.endOfInput, "", 1⟩] := by
  rw [scan_pointed (Number.pointed_display finite positive), Number.read_display finite positive]

/-- What is printed for a number with the sign bit is a minus sign and the other number. -/
theorem scan_display_of_negative (negative : number.isNegative) :
    scan (encode number.display) =
      .ok [⟨.symbol .minus, "-", 1⟩, ⟨.number number.negate, number.negate.display, 1⟩,
        ⟨.endOfInput, "", 1⟩] := by
  have finite' : number.negate.magnitude < Number.infinityBits := by
    rwa [Number.magnitude_negate]
  have positive : number.negate.isNegative = false := by
    rw [Number.isNegative_negate, negative]
    rfl
  rw [Number.display, Number.text_of_negative finite negative, ← Number.display,
    scan_minus_pointed (Number.pointed_display finite' positive),
    Number.read_display finite' positive]

end

end Lox.Source
