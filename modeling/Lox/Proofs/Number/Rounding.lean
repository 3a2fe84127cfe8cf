import Lox.Number.Shortest
import Mathlib.Algebra.Order.Ring.Nat

namespace Lox.Number

/-!
# Rounding depends on the ratio alone

The number nearest to a ratio is the same for all dividends and divisors of this ratio.  So
the number that a decimal denotes does not change with zeros at its end.
-/

section

variable {factor dividend divisor : Nat}

theorem roundHalfEven_mul (positive : 0 < factor) (dividend divisor : Nat) :
    roundHalfEven (factor * dividend) (factor * divisor) = roundHalfEven dividend divisor := by
  have smaller : 2 * (factor * (dividend % divisor)) < factor * divisor ↔
      2 * (dividend % divisor) < divisor := by
    rw [Nat.mul_left_comm, Nat.mul_lt_mul_left positive]
  have middle : 2 * (factor * (dividend % divisor)) = factor * divisor ↔
      2 * (dividend % divisor) = divisor := by
    rw [Nat.mul_left_comm, Nat.mul_right_inj (Nat.ne_of_gt positive)]
  unfold roundHalfEven
  simp only [Nat.mul_div_mul_left _ _ positive, Nat.mul_mod_mul_left, smaller, middle]

theorem binaryOrder_mul (positive : 0 < factor) (isRatio : 0 < divisor) :
    binaryOrder (factor * dividend) (factor * divisor) = binaryOrder dividend divisor := by
  have below : (factor * divisor - 1) / (factor * dividend) = (divisor - 1) / dividend := by
    have less := Nat.mul_sub_div 0 factor divisor (Nat.mul_pos positive isRatio)
    rw [Nat.zero_add, Nat.zero_div] at less
    rw [← Nat.div_div_eq_div_mul, less]
  unfold binaryOrder
  simp only [Nat.mul_div_mul_left _ _ positive, Nat.mul_le_mul_left_iff positive, below]

theorem ofRatio_mul (positive : 0 < factor) (isRatio : 0 < divisor) :
    ofRatio (factor * dividend) (factor * divisor) = ofRatio dividend divisor := by
  have zero : factor * dividend = 0 ↔ dividend = 0 := by
    rw [Nat.mul_eq_zero, or_iff_right (Nat.ne_of_gt positive)]
  unfold ofRatio
  simp only [zero, binaryOrder_mul positive isRatio, Nat.shiftLeft_eq, Nat.mul_assoc,
    roundHalfEven_mul positive]

/-- Equal ratios are rounded to the same number. -/
theorem ofRatio_eq_of_mul_eq
    {dividend' divisor' : Nat}
    (isRatio : 0 < divisor)
    (isRatio' : 0 < divisor')
    (same : dividend * divisor' = dividend' * divisor) :
    ofRatio dividend divisor = ofRatio dividend' divisor' := by
  calc ofRatio dividend divisor
      = ofRatio (divisor' * dividend) (divisor' * divisor) := (ofRatio_mul isRatio' isRatio).symm
    _ = ofRatio (divisor * dividend') (divisor * divisor') := by
        rw [Nat.mul_comm divisor' dividend, same, Nat.mul_comm dividend', Nat.mul_comm divisor']
    _ = ofRatio dividend' divisor' := ofRatio_mul isRatio isRatio'

end

/-- No ratio is rounded to more than infinity, nor to a negative number. -/
theorem toNat_ofRatio_le (dividend divisor : Nat) :
    (ofRatio dividend divisor).bits.toNat ≤ infinityBits := by
  unfold ofRatio
  split
  · exact Nat.zero_le infinityBits
  · simp only [UInt64.toNat_ofNat']
    exact (Nat.mod_le _ _).trans (Nat.min_le_right _ _)

/-! ## Decimals of the same value -/

/-- Zeros at the end of the digits may as well be counted in the exponent. -/
theorem ofDecimal_zeros (digits zeros : Nat) (exponent : Int) :
    ofDecimal ⟨digits * 10 ^ zeros, exponent⟩ = ofDecimal ⟨digits, exponent + zeros⟩ := by
  have balance :
      zeros + exponent.toNat + (-(exponent + zeros)).toNat =
        (exponent + zeros).toNat + (-exponent).toNat := by
    omega
  refine ofRatio_eq_of_mul_eq (Nat.pow_pos (by decide)) (Nat.pow_pos (by decide)) ?_
  simp only [Nat.pow_eq, Nat.mul_assoc, ← Nat.pow_add, balance]

/-- Stripping zeros from a decimal does not change its value. -/
theorem ofDecimal_stripped (fuel : Nat) (decimal : Decimal) :
    ofDecimal (decimal.stripped fuel) = ofDecimal decimal := by
  induction fuel generalizing decimal with
  | zero => rfl
  | succ fuel inductionHypothesis =>
      rw [Decimal.stripped]
      split
      next last =>
        have whole : decimal.digits / 10 * 10 ^ 1 = decimal.digits := by omega
        have same := ofDecimal_zeros (decimal.digits / 10) 1 decimal.exponent
        rw [whole] at same
        exact (inductionHypothesis _).trans same.symm
      next => rfl

/-! ## Binary orders -/

section

variable {dividend divisor : Nat} (isRatio : 0 < divisor)

include isRatio

/-- The order of a ratio of one or more. -/
theorem binaryOrder_of_large
    {order : Nat}
    (reached : 2 ^ order * divisor ≤ dividend)
    (bounded : dividend < 2 ^ (order + 1) * divisor) :
    binaryOrder dividend divisor = order := by
  have large : divisor ≤ dividend :=
    (Nat.le_mul_of_pos_left divisor (Nat.two_pow_pos order)).trans reached
  have isOrder : (dividend / divisor).log2 = order := by
    rw [Nat.log2_eq_iff (Nat.ne_of_gt (Nat.div_pos large isRatio)),
      Nat.le_div_iff_mul_le isRatio, Nat.div_lt_iff_lt_mul isRatio]
    exact ⟨reached, bounded⟩
  rw [binaryOrder, if_pos large, isOrder]

variable (positive : 0 < dividend)

include positive

/-- The order of a ratio below one. -/
theorem binaryOrder_of_small
    {order : Nat}
    (bounded : 2 ^ order * dividend < divisor)
    (reached : divisor ≤ 2 ^ (order + 1) * dividend) :
    binaryOrder dividend divisor = -(order + 1 : Nat) := by
  have least : dividend ≤ 2 ^ order * dividend :=
    Nat.le_mul_of_pos_left dividend (Nat.two_pow_pos order)
  have inside : 2 ^ order * dividend ≤ divisor - 1 := by omega
  have isOrder : ((divisor - 1) / dividend).log2 = order := by
    rw [Nat.log2_eq_iff (Nat.ne_of_gt (Nat.div_pos (least.trans inside) positive)),
      Nat.le_div_iff_mul_le positive, Nat.div_lt_iff_lt_mul positive]
    exact ⟨inside, Nat.lt_of_lt_of_le (Nat.sub_lt isRatio Nat.one_pos) reached⟩
  rw [binaryOrder, if_neg (Nat.not_le.mpr (Nat.lt_of_le_of_lt least bounded)), isOrder]

/-- The order of any ratio, told by the powers of two around it. -/
theorem binaryOrder_eq
    {up down : Nat}
    (reached : 2 ^ up * divisor ≤ 2 ^ down * dividend)
    (bounded : 2 ^ down * dividend < 2 ^ (up + 1) * divisor) :
    binaryOrder dividend divisor = up - down := by
  rcases Nat.lt_or_ge up down with downwards | upwards
  · obtain ⟨order, rfl⟩ : ∃ order, down = up + (order + 1) := ⟨down - up - 1, by omega⟩
    have wide : up + (order + 1) = up + 1 + order := by omega
    rw [wide, Nat.pow_add, Nat.mul_assoc, Nat.mul_lt_mul_left (Nat.two_pow_pos _)] at bounded
    rw [Nat.pow_add, Nat.mul_assoc, Nat.mul_le_mul_left_iff (Nat.two_pow_pos up)] at reached
    rw [binaryOrder_of_small isRatio positive bounded reached]
    omega
  · obtain ⟨order, rfl⟩ := Nat.exists_eq_add_of_le upwards
    rw [Nat.pow_add, Nat.mul_assoc, Nat.mul_le_mul_left_iff (Nat.two_pow_pos down)] at reached
    rw [Nat.add_assoc, Nat.pow_add, Nat.mul_assoc,
      Nat.mul_lt_mul_left (Nat.two_pow_pos down)] at bounded
    rw [binaryOrder_of_large isRatio reached bounded]
    omega

end

end Lox.Number
