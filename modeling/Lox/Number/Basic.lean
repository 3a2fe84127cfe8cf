namespace Lox

/-!
# Numbers

A number is a 64-bit binary floating-point value and is kept as its bit
pattern, so that equality of numbers is equality of bits: zero differs from
negative zero, and a value that is not a number equals itself.  Arithmetic and
order go through the machine's floating-point operations.
-/

/-- A double-precision number, identified with its bit pattern. -/
structure Number where
  bits : UInt64
  deriving Repr, DecidableEq

namespace Number

/-- The bits of positive infinity, just above the largest finite magnitude. -/
def infinityBits : Nat :=
  0x7FF0000000000000

/-- The bit that holds the sign. -/
def signBit : UInt64 :=
  0x8000000000000000

/-- The bits without the sign, which order magnitudes. -/
def magnitude (number : Number) : Nat :=
  number.bits.toNat % Nat.pow 2 63

/-- Whether the sign bit is set. -/
def isNegative (number : Number) : Bool :=
  Nat.pow 2 63 ≤ number.bits.toNat

/-- Whether the bits encode no number at all. -/
def isNaN (number : Number) : Bool :=
  infinityBits < number.magnitude

/-- Whether the bits encode one of the two infinities. -/
def isInfinite (number : Number) : Bool :=
  number.magnitude = infinityBits

/-- Whether the bits encode zero or negative zero. -/
def isZero (number : Number) : Bool :=
  number.magnitude = 0

/-- Zero. -/
def zero : Number :=
  ⟨0⟩

/-- The result of an operation that has no numeric answer. -/
def undefinedResult : Number :=
  ⟨0xFFF8000000000000⟩

/-- The quiet form of a value that is not a number. -/
def quieted (number : Number) : Number :=
  ⟨number.bits ||| 0x0008000000000000⟩

/-- The number as the machine computes with it. -/
def toFloat (number : Number) : Float :=
  Float.ofBits number.bits

/-- The number with its sign bit flipped. -/
def negate (number : Number) : Number :=
  ⟨number.bits ^^^ signBit⟩

/--
Combine two numbers.  An operand that is not a number is passed on, the left one
first; otherwise the machine's answer counts.
-/
def combine
    (operation : Float → Float → Float)
    (left right : Number) :
    Number :=
  if left.isNaN then left.quieted
  else if right.isNaN then right.quieted
  else
    let result := operation left.toFloat right.toFloat
    if result.isNaN then undefinedResult else ⟨result.toBits⟩

/-- The sum of two numbers. -/
def add : Number → Number → Number :=
  combine (· + ·)

/-- The difference of two numbers. -/
def subtract : Number → Number → Number :=
  combine (· - ·)

/-- The product of two numbers. -/
def multiply : Number → Number → Number :=
  combine (· * ·)

/-- The quotient of two numbers. -/
def divide : Number → Number → Number :=
  combine (· / ·)

/-- Whether the first number is smaller; never so for a value that is not a number. -/
def less (left right : Number) : Bool :=
  left.toFloat < right.toFloat

/-- Whether the first number is smaller or equal in value. -/
def lessOrEqual (left right : Number) : Bool :=
  left.toFloat ≤ right.toFloat

end Number

end Lox
