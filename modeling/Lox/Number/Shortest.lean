import Lox.Number.Rounding

namespace Lox.Number

/-!
# Shortest decimals

The decimal with the fewest digits that reads back as a given finite number.
On the grid of decimals with `count` leading digits only the two neighbours of
the number can be nearest to it, so these two are tried for one digit, two
digits and so on; of two neighbours that both read back the nearer one is
taken, and the upper one when they are equally near.  The exact decimal
expansion closes the search.
-/

/-- The binary digits of a finite magnitude, as an integer. -/
def significand (number : Number) : Nat :=
  let fraction := number.magnitude % Nat.pow 2 52
  if number.magnitude / Nat.pow 2 52 = 0 then fraction else fraction + Nat.pow 2 52

/-- The power of two, counted from `2 ^ (-1074)`, that scales the significand. -/
def scale (number : Number) : Nat :=
  number.magnitude / Nat.pow 2 52 - 1

/-- The number of decimal digits of a natural number, zero having none. -/
def digitCount (value : Nat) : Nat :=
  if value = 0 then 0 else (Nat.toDigits 10 value).length

/--
The least `p` such that a positive ratio is below `10 ^ p`: the number of digits
before its point, or minus the number of zeros that follow it.
-/
def pointPosition (dividend divisor : Nat) : Int :=
  if divisor ≤ dividend then
    digitCount (dividend / divisor)
  else
    1 - (digitCount ((divisor - 1) / dividend) : Int)

/-- The magnitude of a finite number as a ratio. -/
def ratio (number : Number) : Nat × Nat :=
  (number.significand <<< (number.scale - 1074), 1 <<< (1074 - number.scale))

/-- Whether a decimal reads back as the magnitude of a number. -/
def readsBack (number : Number) (decimal : Decimal) : Bool :=
  (ofDecimal decimal).bits.toNat = number.magnitude

/--
The neighbour of a number among the multiples of `10 ^ exponent` that reads back
as it, the nearer one if both do.
-/
def neighbour? (number : Number) (exponent : Int) : Option Decimal :=
  let dividend := number.ratio.1 * Nat.pow 10 (-exponent).toNat
  let divisor := number.ratio.2 * Nat.pow 10 exponent.toNat
  let lower : Decimal := ⟨dividend / divisor, exponent⟩
  let upper : Decimal := ⟨dividend / divisor + 1, exponent⟩
  let nearerFirst :=
    if divisor ≤ 2 * (dividend % divisor) then [upper, lower] else [lower, upper]
  nearerFirst.find? number.readsBack

/-- The exact decimal expansion of a finite number. -/
def expansion (number : Number) : Decimal :=
  ⟨number.significand * Nat.pow 2 number.scale * Nat.pow 5 1074, -1074⟩

/-- Strip trailing zeros, at most as many as the fuel says. -/
def Decimal.stripped : Nat → Decimal → Decimal
  | 0, decimal => decimal
  | fuel + 1, decimal =>
      if decimal.digits % 10 = 0 then
        Decimal.stripped fuel ⟨decimal.digits / 10, decimal.exponent + 1⟩
      else decimal

/-- The shortest decimal that reads back as a finite nonzero magnitude. -/
def shortest (number : Number) : Decimal :=
  let position := pointPosition number.ratio.1 number.ratio.2
  let found :=
    (List.range 17).findSome? fun count =>
      number.neighbour? (position - (count + 1 : Nat))
  let decimal := found.getD number.expansion
  decimal.stripped (digitCount decimal.digits)

end Lox.Number
