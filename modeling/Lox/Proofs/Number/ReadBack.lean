import Lox.Proofs.Number.Rounding

namespace Lox.Number

/-!
# Shortest decimals read back

The exact expansion of a finite number is rounded to that number, since a number is a
multiple of the grain at its own order.  Any other decimal is taken for a number only if it
reads back as it.  So the shortest decimal reads back, whichever of them is found.
-/

/-! ## Binary fractions are rounded to themselves -/

theorem roundHalfEven_exact {divisor : Nat} (positive : 0 < divisor) (multiple : Nat) :
    roundHalfEven (multiple * divisor) divisor = multiple := by
  simp [roundHalfEven, Nat.mul_div_cancel _ positive, positive]

section

-- The finest grain is this power of two; the equation keeps the power from being computed.
variable (finest : Nat)

/-- The order of a number of grains, told by that of its significand. -/
theorem binaryOrder_scaled
    {significand order : Nat}
    (least : 2 ^ order ≤ significand)
    (bound : significand < 2 ^ (order + 1))
    (scale : Nat) :
    binaryOrder (significand * 2 ^ scale) (2 ^ finest) = (order + scale : Nat) - finest := by
  have positive : 0 < significand := Nat.lt_of_lt_of_le (Nat.two_pow_pos order) least
  refine binaryOrder_eq
    (Nat.two_pow_pos finest) (Nat.mul_pos positive (Nat.two_pow_pos scale)) ?_ ?_
  · rw [Nat.mul_comm, Nat.pow_add]
    exact Nat.mul_le_mul_left _ (Nat.mul_le_mul_right _ least)
  · rw [Nat.mul_comm _ (2 ^ finest), Nat.add_right_comm, Nat.pow_add]
    exact Nat.mul_lt_mul_of_pos_left
      (Nat.mul_lt_mul_of_pos_right bound (Nat.two_pow_pos scale)) (Nat.two_pow_pos finest)

variable {finest} (isFinest : finest = 1074)

include isFinest

/-- A number of the finest grain. -/
theorem ofRatio_subnormal {multiple : Nat} (small : multiple < 2 ^ 52) :
    ofRatio multiple (2 ^ finest) = ⟨UInt64.ofNat multiple⟩ := by
  unfold ofRatio
  split
  next isZero => rw [isZero]; rfl
  next notZero =>
    have order := binaryOrder_scaled finest (Nat.log2_self_le notZero) Nat.lt_log2_self 0
    rw [Nat.pow_zero, Nat.mul_one] at order
    have few : multiple.log2 < 52 := (Nat.log2_lt notZero).mpr small
    have grain : (binaryOrder multiple (2 ^ finest) + 1022).toNat = 0 := by omega
    have bounded : multiple ≤ infinityBits := by
      unfold infinityBits
      omega
    simp only [grain, Nat.shiftLeft_eq, Nat.sub_zero, Nat.zero_sub, Nat.pow_zero, Nat.mul_one,
      ← isFinest, roundHalfEven_exact (Nat.two_pow_pos finest), Nat.zero_mul, Nat.zero_add,
      Nat.min_eq_left bounded]

/-- A number with 53 binary digits. -/
theorem ofRatio_normal
    {significand : Nat}
    (least : 2 ^ 52 ≤ significand)
    (bound : significand < 2 ^ 53)
    (scale : Nat) :
    ofRatio (significand * 2 ^ scale) (2 ^ finest) =
      ⟨UInt64.ofNat (min (scale * 2 ^ 52 + significand) infinityBits)⟩ := by
  have positive : 0 < significand := Nat.lt_of_lt_of_le (Nat.two_pow_pos 52) least
  have notZero : significand * 2 ^ scale ≠ 0 :=
    Nat.ne_of_gt (Nat.mul_pos positive (Nat.two_pow_pos scale))
  have order := binaryOrder_scaled finest least bound scale
  have grain : (binaryOrder (significand * 2 ^ scale) (2 ^ finest) + 1022).toNat = scale := by
    omega
  have exact : roundHalfEven
      (significand * 2 ^ scale * 2 ^ (1074 - scale)) (2 ^ finest * 2 ^ (scale - 1074)) =
        significand := by
    have sameScale : scale + (1074 - scale) = finest + (scale - 1074) := by omega
    rw [Nat.mul_assoc, ← Nat.pow_add, ← Nat.pow_add, sameScale]
    exact roundHalfEven_exact (Nat.two_pow_pos _) significand
  unfold ofRatio
  simp only [if_neg notZero, grain, Nat.shiftLeft_eq, exact, Nat.pow_eq]

/-- A finite number is its significand, scaled. -/
theorem ofRatio_significand
    {number : Number}
    (finite : number.magnitude < infinityBits) :
    (ofRatio (number.significand * 2 ^ number.scale) (2 ^ finest)).bits.toNat =
      number.magnitude := by
  have small : number.magnitude < UInt64.size := finite.trans (by decide)
  have parts := Nat.div_add_mod number.magnitude (2 ^ 52)
  have fraction := Nat.mod_lt number.magnitude (Nat.two_pow_pos 52)
  unfold significand scale
  simp only [Nat.pow_eq]
  split
  next subnormal =>
    have whole : number.magnitude % 2 ^ 52 = number.magnitude := by omega
    rw [subnormal, Nat.zero_sub, Nat.pow_zero, Nat.mul_one,
      ofRatio_subnormal isFinest fraction, whole]
    exact UInt64.toNat_ofNat_of_lt small
  next normal =>
    have whole : (number.magnitude / 2 ^ 52 - 1) * 2 ^ 52 +
        (number.magnitude % 2 ^ 52 + 2 ^ 52) = number.magnitude := by
      omega
    rw [ofRatio_normal isFinest (by omega) (by omega), whole,
      Nat.min_eq_left (Nat.le_of_lt finite)]
    exact UInt64.toNat_ofNat_of_lt small

end

/-! ## Decimals that read back -/

section

variable {number : Number} (finite : number.magnitude < infinityBits)

include finite

theorem readsBack_expansion : number.readsBack number.expansion := by
  obtain ⟨finest, isFinest⟩ : ∃ finest, finest = 1074 := ⟨1074, rfl⟩
  have exponent : (-1074 : Int) = -(finest : Int) := by rw [isFinest]; rfl
  have whole : (-(finest : Int)).toNat = 0 := by omega
  have same : ofDecimal number.expansion =
      ofRatio (number.significand * 2 ^ number.scale) (2 ^ finest) := by
    refine ofRatio_eq_of_mul_eq (Nat.pow_pos (by decide)) (Nat.two_pow_pos finest) ?_
    have tens : (10 : Nat) ^ finest = 5 ^ finest * 2 ^ finest := by rw [← Nat.mul_pow]
    unfold expansion
    rw [← isFinest, exponent]
    simp only [Int.neg_neg, Int.toNat_natCast, whole, Nat.pow_eq, tens, Nat.pow_zero, Nat.mul_one,
      Nat.mul_assoc]
  rw [readsBack, same, ofRatio_significand isFinest finite, decide_eq_true_eq]

theorem readsBack_shortest : number.readsBack number.shortest := by
  let place (count : Nat) : Int :=
    pointPosition number.ratio.1 number.ratio.2 - (count + 1 : Nat)
  have reads : number.readsBack
      (((List.range 17).findSome? fun count => number.neighbour? (place count)).getD
        number.expansion) := by
    cases found : (List.range 17).findSome? fun count => number.neighbour? (place count) with
    | none => exact readsBack_expansion finite
    | some decimal =>
        obtain ⟨count, -, tried⟩ := List.exists_of_findSome?_eq_some found
        exact List.find?_some tried
  rw [readsBack, decide_eq_true_eq] at reads ⊢
  unfold shortest
  rw [ofDecimal_stripped]
  exact reads

end

/-- Numbers are told apart by their bits. -/
theorem eq_of_toNat_bits
    {left right : Number}
    (same : left.bits.toNat = right.bits.toNat) :
    left = right := by
  cases left
  cases right
  exact congrArg Number.mk (UInt64.toNat_inj.mp same)

theorem magnitude_of_positive {number : Number} (positive : number.isNegative = false) :
    number.magnitude = number.bits.toNat :=
  Nat.mod_eq_of_lt (Nat.lt_of_not_le (of_decide_eq_false positive))

/-- A finite number that is not negative is what its shortest decimal denotes. -/
theorem ofDecimal_shortest
    {number : Number}
    (finite : number.magnitude < infinityBits)
    (positive : number.isNegative = false) :
    ofDecimal number.shortest = number := by
  have reads := readsBack_shortest finite
  rw [readsBack, decide_eq_true_eq, magnitude_of_positive positive] at reads
  exact eq_of_toNat_bits reads

/-- A number that was read is not negative. -/
theorem isNegative_read (text : String) : (read text).isNegative = false := by
  have small : infinityBits < Nat.pow 2 63 := by decide
  exact decide_eq_false (Nat.not_le_of_lt (Nat.lt_of_le_of_lt (toNat_ofRatio_le _ _) small))

/-- A number that was read is finite or infinity. -/
theorem magnitude_read_lt {text : String} (finite : (read text).isInfinite = false) :
    (read text).magnitude < infinityBits := by
  refine Nat.lt_of_le_of_ne ?_ (of_decide_eq_false finite)
  rw [magnitude_of_positive (isNegative_read text)]
  exact toNat_ofRatio_le _ _

end Lox.Number
