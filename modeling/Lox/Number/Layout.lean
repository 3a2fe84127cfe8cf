import Lox.Number.Shortest

namespace Lox.Number

/-!
# Number text

Three layouts write the shortest digits of a number.  The plain one is always
positional and is what programs print.  The other two mark every number as
fractional and change to exponent notation for very large and very small
magnitudes: the explicit one is what tokens and syntax trees show, and the
document one, which changes a little later, is what JSON documents hold.
-/

/--
How digits become text: what follows an integral value, and the least and the
first too large power of ten that are written positionally.
-/
structure Layout where
  integralSuffix : String
  leastOrder : Option Int
  orderBound : Option Int
  deriving Repr, DecidableEq

/-- Positional at every magnitude, and an integral value has no point. -/
def Layout.plain : Layout :=
  ⟨"", none, none⟩

/-- An integral value ends in `.0`; exponents begin below `1e-4` and at `1e16`. -/
def Layout.explicit : Layout :=
  ⟨".0", some (-4), some 16⟩

/-- As the explicit layout, but exponents begin below `1e-5`. -/
def Layout.document : Layout :=
  ⟨".0", some (-5), some 16⟩

/-- Whether a value between `10 ^ order` and ten times that is positional. -/
def Layout.isPositional (layout : Layout) (order : Int) : Bool :=
  layout.leastOrder.all (· ≤ order) && layout.orderBound.all (order < ·)

/-- Digits with the point at a position counted from the first digit. -/
def positional (suffix : String) (digits : List Char) (position : Int) : String :=
  if position ≤ 0 then
    "0." ++ String.ofList (List.replicate (-position).toNat '0' ++ digits)
  else if digits.length ≤ position.toNat then
    String.ofList (digits ++ List.replicate (position.toNat - digits.length) '0')
      ++ suffix
  else
    String.ofList (digits.take position.toNat) ++ "."
      ++ String.ofList (digits.drop position.toNat)

/-- Digits with a point after the first one and a power of ten. -/
def exponential (digits : List Char) (order : Int) : String :=
  let fraction := digits.drop 1
  String.ofList (digits.take 1)
    ++ (if fraction.isEmpty then "" else "." ++ String.ofList fraction)
    ++ "e" ++ (if order < 0 then "-" else "") ++ toString order.natAbs

/-- The text of a nonzero decimal. -/
def Layout.decimalText (layout : Layout) (decimal : Decimal) : String :=
  let digits := Nat.toDigits 10 decimal.digits
  let position := digits.length + decimal.exponent
  if layout.isPositional (position - 1) then
    positional layout.integralSuffix digits position
  else
    exponential digits (position - 1)

/-- The text of a number without its sign. -/
def Layout.magnitudeText (layout : Layout) (number : Number) : String :=
  if number.isInfinite then "inf"
  else if number.isZero then "0" ++ layout.integralSuffix
  else layout.decimalText number.shortest

/-- The text of a number. -/
def Layout.text (layout : Layout) (number : Number) : String :=
  if number.isNaN then "NaN"
  else if number.isNegative then "-" ++ layout.magnitudeText number
  else layout.magnitudeText number

/-- The text that a program prints for a number. -/
def display (number : Number) : String :=
  Layout.plain.text number

/-- The text that a token or syntax tree shows for a number. -/
def literalText (number : Number) : String :=
  Layout.explicit.text number

/-- The text of a number in a JSON document, which has no words for the others. -/
def documentText (number : Number) : String :=
  if number.isNaN || number.isInfinite then "null"
  else Layout.document.text number

end Lox.Number
