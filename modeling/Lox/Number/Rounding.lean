import Lox.Number.Basic

namespace Lox.Number

/-!
# Rounding to the nearest number

The number nearest to a nonnegative ratio, computed in exact integer
arithmetic.  Of two numbers equally near the one with the even last bit is
taken, and a ratio beyond the largest finite number gives infinity.  Decimal
notation is read by rounding the ratio it denotes.
-/

/-- The quotient rounded to the nearest integer, a half to the even one. -/
def roundHalfEven (dividend divisor : Nat) : Nat :=
  let quotient := dividend / divisor
  let remainder := dividend % divisor
  if 2 * remainder < divisor then quotient
  else if 2 * remainder = divisor && quotient % 2 = 0 then quotient
  else quotient + 1

/-- The greatest `e` with `2 ^ e ≤ dividend / divisor`, for positive arguments. -/
def binaryOrder (dividend divisor : Nat) : Int :=
  if divisor ≤ dividend then
    (dividend / divisor).log2
  else
    -(((divisor - 1) / dividend).log2 + 1 : Nat)

/--
The number nearest to a ratio.  Finite numbers are the multiples of
`2 ^ (grain - 1074)` that need no more than 53 binary digits, where the grain is
zero near zero and grows by one with every doubling from `2 ^ (-1022)` on;
consecutive numbers have consecutive bits.
-/
def ofRatio (dividend divisor : Nat) : Number :=
  if dividend = 0 then zero
  else
    let grain := (binaryOrder dividend divisor + 1022).toNat
    let multiple :=
      roundHalfEven
        (dividend <<< (1074 - grain))
        (divisor <<< (grain - 1074))
    ⟨UInt64.ofNat (min (grain * Nat.pow 2 52 + multiple) infinityBits)⟩

/-- A nonnegative decimal: an integer and the power of ten that scales it. -/
structure Decimal where
  digits : Nat
  exponent : Int
  deriving Repr, DecidableEq

/-- The number nearest to a decimal. -/
def ofDecimal (decimal : Decimal) : Number :=
  ofRatio
    (decimal.digits * Nat.pow 10 decimal.exponent.toNat)
    (Nat.pow 10 (-decimal.exponent).toNat)

/-- The natural number that a row of decimal digits denotes. -/
def digitsValue (digits : List Char) : Nat :=
  digits.foldl (fun value digit => value * 10 + (digit.toNat - '0'.toNat)) 0

/-- The decimal written as digits with at most one point among them. -/
def decimalOfText (text : List Char) : Decimal :=
  let whole := text.takeWhile (· != '.')
  let fraction := (text.dropWhile (· != '.')).drop 1
  ⟨digitsValue (whole ++ fraction), -(fraction.length : Int)⟩

/-- The number that a text of digits with at most one point denotes. -/
def read (text : String) : Number :=
  ofDecimal (decimalOfText text.toList)

end Lox.Number
