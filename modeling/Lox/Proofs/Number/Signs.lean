import Lox.Proofs.Number.Texts

namespace Lox.Number

/-!
# Signs

A change of the sign leaves the magnitude as it is, and with it the digits of a number.
So what a program prints for a number with the sign bit is a minus sign and what it prints
for the number without it, also for negative zero.  Without the sign there are only digits,
with a point between two of them or without, and no exponent, however large or small the
number is; and they denote the number.
-/

variable {number : Number}

/-! ## A change of the sign -/

/-- The sign is the last of the 64 bits. -/
theorem isNegative_eq_testBit (number : Number) :
    number.isNegative = number.bits.toNat.testBit 63 := by
  have bounded := number.bits.toNat_lt
  rw [Nat.testBit_eq_decide_div_mod_eq, isNegative, decide_eq_decide, Nat.pow_eq]
  omega

@[simp]
theorem negate_negate (number : Number) : number.negate.negate = number := by
  rw [negate, negate, UInt64.xor_assoc, UInt64.xor_self, UInt64.xor_zero]

@[simp]
theorem isNegative_negate (number : Number) : number.negate.isNegative = !number.isNegative := by
  have last : signBit.toNat.testBit 63 = true := by decide
  rw [isNegative_eq_testBit, isNegative_eq_testBit, negate, UInt64.toNat_xor, Nat.testBit_xor,
    last, Bool.xor_true]

@[simp]
theorem magnitude_negate (number : Number) : number.negate.magnitude = number.magnitude := by
  have others : signBit.toNat % 2 ^ 63 = 0 := by decide
  rw [magnitude, magnitude, negate, UInt64.toNat_xor, Nat.pow_eq, Nat.xor_mod_two_pow, others,
    Nat.xor_zero]

/-! ## Texts without a sign -/

/-- Numbers of one magnitude are written with the same digits. -/
theorem magnitudeText_congr
    {left right : Number}
    (same : left.magnitude = right.magnitude)
    (layout : Layout) :
    layout.magnitudeText left = layout.magnitudeText right := by
  have significand : left.significand = right.significand := by
    rw [Number.significand, Number.significand, same]
  have scale : left.scale = right.scale := by
    rw [Number.scale, Number.scale, same]
  have ratio : left.ratio = right.ratio := by
    unfold Number.ratio
    rw [significand, scale]
  have expansion : left.expansion = right.expansion := by
    unfold Number.expansion
    rw [significand, scale]
  have readsBack : left.readsBack = right.readsBack := by
    funext decimal
    rw [Number.readsBack, Number.readsBack, same]
  have neighbour : left.neighbour? = right.neighbour? := by
    funext exponent
    rw [neighbour?, neighbour?, ratio, readsBack]
  have shortest : left.shortest = right.shortest := by
    rw [Number.shortest, Number.shortest, ratio, expansion, neighbour]
  unfold Layout.magnitudeText
  rw [isInfinite, isInfinite, isZero, isZero, same, shortest]

section

variable (finite : number.magnitude < infinityBits)

include finite

/-- A negative number is written as the number without the sign, behind a minus sign. -/
theorem text_of_negative (negative : number.isNegative) (layout : Layout) :
    layout.text number = "-" ++ layout.text number.negate := by
  have isNumber : number.isNaN = false := decide_eq_false (Nat.not_lt_of_gt finite)
  have isNumber' : number.negate.isNaN = false := by rwa [isNaN, magnitude_negate]
  simp [Layout.text, isNumber, isNumber', negative,
    magnitudeText_congr (magnitude_negate number) layout]

variable (positive : number.isNegative = false)

include positive

/-- What is printed for a number without a sign is digits, with a point or without. -/
theorem pointed_display : Pointed number.display.toList := by
  have isSuffix : IsSuffix Layout.plain.integralSuffix := .inl rfl
  rw [display, text_of_positive finite positive]
  split
  · exact pointed_positional isSuffix (isRow_zeros 1) (List.cons_ne_nil _ _) 1
  · exact pointed_positional isSuffix (isRow_toDigits _) Nat.toDigits_ne_nil _

/-- What is printed for a number without a sign is read as this number. -/
theorem read_display : read number.display = number := by
  have noExponent := (pointed_display finite positive).notMem_exponent
  rw [read, ← scientific_of_notMem noExponent]
  exact ofDecimal_text (.inl rfl) finite positive

end

end Lox.Number
