import Lox.Proofs.Computation
import Lox.Proofs.Source.Numbers
import Lox.Session

namespace Lox.Session

open Text.Utf8 (encode)

/-!
# Printed numbers read back

What a program prints for a finite number is an expression, and its value is that number
again, bit by bit.  The sign bit is printed as a minus sign, which is read as an operator:
it flips the sign bit of the number behind it, so that also negative zero comes back.
-/

/-- The expression that the text of a number is read as. -/
def numeral (number : Number) : Expr :=
  if number.isNegative then .unary .negate 1 (.literal (.number number.negate))
  else .literal (.number number)

section

variable (session : Session)

/-! ## Parsing -/

/-- A number on its own is a literal. -/
theorem parseTokens_number (value : Number) (text : String) :
    parseTokens Grammar.wholeExpression [⟨.number value, text, 1⟩, ⟨.endOfInput, "", 1⟩] session =
      .ok (.literal (.number value)) session :=
  rfl

/-- A minus sign and a number are a negation. -/
theorem parseTokens_minus_number (value : Number) (text : String) :
    parseTokens Grammar.wholeExpression
        [⟨.symbol .minus, "-", 1⟩, ⟨.number value, text, 1⟩, ⟨.endOfInput, "", 1⟩] session =
      .ok (.unary .negate 1 (.literal (.number value))) session :=
  rfl

/-! ## Evaluation -/

/-- The expression of a number has it as its value, in any state. -/
theorem evaluate_numeral (number : Number) (fuel : Nat) (state : Execution.State) :
    Execution.evaluate (fuel + 2) (numeral number) state = .ok (.number number) state := by
  unfold numeral
  split
  · have negated : Execution.evaluate (fuel + 2)
        (.unary .negate 1 (.literal (.number number.negate))) state =
          .ok (.number number.negate.negate) state := rfl
    rw [negated, Number.negate_negate]
  · rfl

variable {number : Number} (finite : number.magnitude < Number.infinityBits)

include finite

/-- The text of a number is read as its expression, and no identities are used up. -/
theorem parseExpression_display :
    parseExpression (encode number.display) session = .ok (numeral number) session := by
  unfold parseExpression parse scan numeral
  cases sign : number.isNegative with
  | true =>
      rw [Source.scan_display_of_negative finite sign, bind_of_ok (pure_apply _ _)]
      exact parseTokens_minus_number session _ _
  | false =>
      rw [Source.scan_display_of_positive finite sign, bind_of_ok (pure_apply _ _)]
      exact parseTokens_number session _ _

/-- The value of the text of a number is this number. -/
theorem evaluate_display (fuel : Nat) :
    evaluate (fuel + 2) (encode number.display) session = .ok (.number number) session := by
  rw [evaluate, bind_of_ok (parseExpression_display session finite), onState, evaluate_numeral]

end

/--
The text that is printed for a finite number is scanned as one number with the whole text
as its lexeme, if the sign bit is not set, and otherwise as a minus sign and one number.
In any session, also in a new one, it is read as an expression, which changes nothing in
the session and has the number as its value, with the same bits.
-/
theorem display_readable
    {number : Number}
    (finite : number.magnitude < Number.infinityBits) :
    let source := encode number.display
    (number.isNegative = false →
      Source.scan source =
        .ok [⟨.number number, number.display, 1⟩, ⟨.endOfInput, "", 1⟩]) ∧
    (number.isNegative = true →
      Source.scan source =
        .ok [⟨.symbol .minus, "-", 1⟩, ⟨.number number.negate, number.negate.display, 1⟩,
          ⟨.endOfInput, "", 1⟩]) ∧
    ∀ session,
      parseExpression source session = .ok (numeral number) session ∧
        ∀ fuel, evaluate (fuel + 2) source session = .ok (.number number) session :=
  ⟨Source.scan_display_of_positive finite,
    Source.scan_display_of_negative finite,
    fun session => ⟨parseExpression_display session finite, evaluate_display session finite⟩⟩

/-- Negative zero is printed with a minus sign, and the value of that text is negative zero. -/
theorem display_readable_negativeZero :
    let negativeZero : Number := ⟨0x8000000000000000⟩
    negativeZero.magnitude < Number.infinityBits ∧
      negativeZero.display = "-0" ∧
      Source.scan (encode "-0") =
        .ok [⟨.symbol .minus, "-", 1⟩, ⟨.number .zero, "0", 1⟩, ⟨.endOfInput, "", 1⟩] ∧
      evaluate 2 (encode "-0") (start ⟨0⟩) = .ok (.number negativeZero) (start ⟨0⟩) := by
  intro negativeZero
  have finite : negativeZero.magnitude < Number.infinityBits := by decide
  have text : negativeZero.display = "-0" := by decide
  have unsigned : negativeZero.negate = .zero := by decide
  have zeroText : Number.zero.display = "0" := by decide
  obtain ⟨-, scanned, read⟩ := display_readable finite
  have evaluated := (read (start ⟨0⟩)).2 0
  rw [text] at scanned evaluated
  rw [unsigned, zeroText] at scanned
  exact ⟨finite, text, scanned (by decide), evaluated⟩

end Lox.Session
