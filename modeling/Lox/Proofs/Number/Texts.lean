import Lox.Number.Layout
import Lox.Proofs.Number.ReadBack
import Mathlib.Data.List.TakeWhile

namespace Lox.Number

/-!
# Number text reads back

Whatever layout is chosen for it, the text of a decimal denotes a decimal of the same value.
As the shortest decimal of a number reads back, so does its text.  In particular numbers
that are written in the same way are the same.
-/

/-! ## Rows of digits -/

/-- The value of decimal digits is their usual one. -/
theorem digitsValue_eq (digits : List Char) :
    digitsValue digits = Nat.ofDigitChars 10 digits 0 := by
  unfold digitsValue Nat.ofDigitChars
  simp only [Nat.mul_comm]

/-- The digits of a number have this number as their value. -/
@[simp]
theorem digitsValue_toDigits (value : Nat) : digitsValue (Nat.toDigits 10 value) = value := by
  rw [digitsValue_eq, Nat.ofDigitChars_toDigits (by decide) (by decide)]

/-- Zeros in front of digits leave their value as it is. -/
@[simp]
theorem digitsValue_zeros_append (count : Nat) (digits : List Char) :
    digitsValue (List.replicate count '0' ++ digits) = digitsValue digits := by
  rw [digitsValue_eq, digitsValue_eq, Nat.ofDigitChars_append, Nat.ofDigitChars_replicate_zero,
    Nat.mul_zero]

/-- Zeros behind digits multiply their value by powers of ten. -/
@[simp]
theorem digitsValue_append_zeros (digits : List Char) (count : Nat) :
    digitsValue (digits ++ List.replicate count '0') = digitsValue digits * 10 ^ count := by
  rw [digitsValue_eq, digitsValue_eq, Nat.ofDigitChars_append, Nat.ofDigitChars_replicate_zero,
    Nat.mul_comm]

/-- Characters that are all digits. -/
def IsRow (digits : List Char) : Prop :=
  ∀ digit ∈ digits, digit.isDigit

/-- The decimal digits of a number are a row of digits. -/
theorem isRow_toDigits (value : Nat) : IsRow (Nat.toDigits 10 value) :=
  fun _ member => Nat.isDigit_of_mem_toDigits (by decide) (by decide) member

theorem isRow_zeros (count : Nat) : IsRow (List.replicate count '0') := by
  intro digit member
  rw [List.eq_of_mem_replicate member]
  rfl

namespace IsRow

variable {digits others : List Char}

/-- Rows of digits may be put together. -/
theorem append (row : IsRow digits) (further : IsRow others) : IsRow (digits ++ others) :=
  List.forall_mem_append.mpr ⟨row, further⟩

theorem take (row : IsRow digits) (count : Nat) : IsRow (digits.take count) :=
  fun digit member => row digit (List.mem_of_mem_take member)

theorem drop (row : IsRow digits) (count : Nat) : IsRow (digits.drop count) :=
  fun digit member => row digit (List.mem_of_mem_drop member)

/-- Nothing but a digit is in a row of digits. -/
theorem notMem (row : IsRow digits) {mark : Char} (noDigit : mark.isDigit = false) :
    mark ∉ digits := by
  intro member
  rw [row mark member] at noDigit
  cases noDigit

end IsRow

/-! ## Texts up to a mark -/

section

variable {before : List Char} {mark : Char}

theorem takeWhile_of_notMem (absent : mark ∉ before) : before.takeWhile (· != mark) = before :=
  List.takeWhile_eq_self_iff.mpr fun _ member => bne_iff_ne.mpr (ne_of_mem_of_not_mem member absent)

theorem dropWhile_of_notMem (absent : mark ∉ before) : before.dropWhile (· != mark) = [] :=
  List.dropWhile_eq_nil_iff.mpr fun _ member => bne_iff_ne.mpr (ne_of_mem_of_not_mem member absent)

theorem takeWhile_mark (absent : mark ∉ before) (behind : List Char) :
    (before ++ mark :: behind).takeWhile (· != mark) = before := by
  simp [List.takeWhile_append, takeWhile_of_notMem absent]

theorem dropWhile_mark (absent : mark ∉ before) (behind : List Char) :
    (before ++ mark :: behind).dropWhile (· != mark) = mark :: behind := by
  simp [List.dropWhile_append, dropWhile_of_notMem absent]

end

/-- A text of digits alone has no exponent. -/
theorem decimalOfText_whole {digits : List Char} (row : IsRow digits) :
    decimalOfText digits = ⟨digitsValue digits, 0⟩ := by
  have noPoint : '.' ∉ digits := row.notMem rfl
  simp [decimalOfText, takeWhile_of_notMem noPoint, dropWhile_of_notMem noPoint]

/-- Each digit behind the point lowers the exponent by one. -/
theorem decimalOfText_point {digits : List Char} (row : IsRow digits) (fraction : List Char) :
    decimalOfText (digits ++ '.' :: fraction) =
      ⟨digitsValue (digits ++ fraction), -fraction.length⟩ := by
  have noPoint : '.' ∉ digits := row.notMem rfl
  simp [decimalOfText, takeWhile_mark noPoint, dropWhile_mark noPoint]

/-! ## Positional text -/

/-- What may stand behind an integral value. -/
def IsSuffix (suffix : String) : Prop :=
  suffix = "" ∨ suffix = ".0"

/-- Digits, with a point between two of them or without. -/
inductive Pointed : List Char → Prop where
  | whole
      {digits : List Char}
      (nonempty : digits ≠ [])
      (row : IsRow digits) :
      Pointed digits
  | decimal
      {digits fraction : List Char}
      (nonempty : digits ≠ [])
      (row : IsRow digits)
      (behind : fraction ≠ [])
      (rowBehind : IsRow fraction) :
      Pointed (digits ++ '.' :: fraction)

namespace Pointed

variable {text : List Char}

/-- A text with at most one point starts with a digit. -/
theorem starts (pointed : Pointed text) : ∃ first rest, text = first :: rest ∧ first.isDigit := by
  cases pointed with
  | whole nonempty row =>
      obtain ⟨first, rest, rfl⟩ := List.exists_cons_of_ne_nil nonempty
      exact ⟨first, rest, rfl, row first List.mem_cons_self⟩
  | decimal nonempty row =>
      obtain ⟨first, rest, rfl⟩ := List.exists_cons_of_ne_nil nonempty
      exact ⟨first, _, rfl, row first List.mem_cons_self⟩

/-- A text with at most one point has nothing else than digits and this point. -/
theorem inside (pointed : Pointed text) : ∀ mark ∈ text, mark.isDigit ∨ mark = '.' := by
  intro mark member
  cases pointed with
  | whole _ row => exact .inl (row mark member)
  | decimal _ row _ rowBehind =>
      rcases List.mem_append.mp member with front | later
      · exact .inl (row mark front)
      rcases List.mem_cons.mp later with isPoint | back
      · exact .inr isPoint
      · exact .inl (rowBehind mark back)

/-- A text with at most one point has no exponent mark. -/
theorem notMem_exponent (pointed : Pointed text) : 'e' ∉ text := by
  intro member
  have given := pointed.inside 'e' member
  contradiction

end Pointed

section

variable {suffix : String} {digits : List Char} {position : Int}

/-- A number below one is written with zeros behind its point. -/
theorem toList_positional_small (small : position ≤ 0) :
    (positional suffix digits position).toList =
      ['0'] ++ '.' :: (List.replicate (-position).toNat '0' ++ digits) := by
  simp [positional, small]

/-- A point among the digits stands where the position tells. -/
theorem toList_positional_mixed
    (large : ¬position ≤ 0)
    (short : ¬digits.length ≤ position.toNat) :
    (positional suffix digits position).toList =
      digits.take position.toNat ++ '.' :: digits.drop position.toNat := by
  simp [positional, large, short]

/-- An integral number is written with zeros behind its digits and no point but the suffix. -/
theorem toList_positional_integral
    (large : ¬position ≤ 0)
    (enough : digits.length ≤ position.toNat) :
    (positional suffix digits position).toList =
      digits ++ List.replicate (position.toNat - digits.length) '0' ++ suffix.toList := by
  simp [positional, large, enough]

variable (isSuffix : IsSuffix suffix) (row : IsRow digits)

include isSuffix row

/-- Digits with a position are written with at most one point. -/
theorem pointed_positional (nonempty : digits ≠ []) (position : Int) :
    Pointed (positional suffix digits position).toList := by
  by_cases small : position ≤ 0
  · rw [toList_positional_small small]
    exact .decimal (List.cons_ne_nil _ _) (isRow_zeros 1)
      (List.append_ne_nil_of_right_ne_nil _ nonempty) ((isRow_zeros _).append row)
  by_cases enough : digits.length ≤ position.toNat
  · have whole := row.append (isRow_zeros (position.toNat - digits.length))
    have wholeNonempty := List.append_ne_nil_of_left_ne_nil nonempty
      (List.replicate (position.toNat - digits.length) '0')
    rw [toList_positional_integral small enough]
    rcases isSuffix with rfl | rfl
    · rw [String.toList_empty, List.append_nil]
      exact .whole wholeNonempty whole
    · exact .decimal wholeNonempty whole (List.cons_ne_nil '0' []) (isRow_zeros 1)
  · rw [toList_positional_mixed small enough]
    refine .decimal ?_ (row.take _) ?_ (row.drop _)
    · simp only [ne_eq, List.take_eq_nil_iff, nonempty, or_false]
      omega
    · simp only [ne_eq, List.drop_eq_nil_iff]
      exact enough

/-- Digits with a point somewhere denote what the digits do, scaled. -/
theorem ofDecimal_positional (position : Int) :
    ofDecimal (decimalOfText (positional suffix digits position).toList) =
      ofDecimal ⟨digitsValue digits, position - digits.length⟩ := by
  by_cases small : position ≤ 0
  · -- Zeros in front of the digits add nothing to their value.
    have zero : IsRow ['0'] := isRow_zeros 1
    have zeros : ['0'] ++ (List.replicate (-position).toNat '0' ++ digits) =
        List.replicate ((-position).toNat + 1) '0' ++ digits := rfl
    rw [toList_positional_small small, decimalOfText_point zero, zeros,
      digitsValue_zeros_append, List.length_append, List.length_replicate]
    congr 2
    omega
  by_cases enough : digits.length ≤ position.toNat
  · -- Zeros behind the digits stand for powers of ten, also those behind the point.
    have whole := row.append (isRow_zeros (position.toNat - digits.length))
    have order : position - digits.length = (position.toNat - digits.length : Nat) := by omega
    rw [toList_positional_integral small enough]
    rcases isSuffix with rfl | rfl
    · rw [String.toList_empty, List.append_nil, decimalOfText_whole whole,
        digitsValue_append_zeros, ofDecimal_zeros, order, Int.zero_add]
    · have point : ".0".toList = '.' :: List.replicate 1 '0' := rfl
      rw [point, decimalOfText_point whole, digitsValue_append_zeros,
        digitsValue_append_zeros, ofDecimal_zeros, ofDecimal_zeros, order]
      congr 2
      simp
  · rw [toList_positional_mixed small enough, decimalOfText_point (row.take _),
      List.take_append_drop, List.length_drop]
    congr 2
    omega

end

/-! ## Text with an exponent -/

/-- The integer that digits denote, with a minus sign in front of them or without. -/
def integerOfText : List Char → Int
  | '-' :: digits => -(digitsValue digits : Int)
  | digits => digitsValue digits

/-- The decimal written as digits with a point and a power of ten behind them. -/
def scientific (text : List Char) : Decimal :=
  let mantissa := decimalOfText (text.takeWhile (· != 'e'))
  let order := integerOfText ((text.dropWhile (· != 'e')).drop 1)
  ⟨mantissa.digits, mantissa.exponent + order⟩

/-- Digits without a sign are read as their value. -/
theorem integerOfText_digits {digits : List Char} (row : IsRow digits) :
    integerOfText digits = digitsValue digits := by
  cases digits with
  | nil => rfl
  | cons first rest =>
      have noSign : first ≠ '-' := by
        rintro rfl
        exact row.notMem rfl List.mem_cons_self
      simp [integerOfText, noSign]

/-- The text of an exponent. -/
def orderText (order : Int) : List Char :=
  (if order < 0 then ['-'] else []) ++ Nat.toDigits 10 order.natAbs

/-- The exponent that is written is the one that is read. -/
theorem integerOfText_orderText (order : Int) : integerOfText (orderText order) = order := by
  unfold orderText
  split
  next negative =>
    rw [List.singleton_append, integerOfText, digitsValue_toDigits]
    omega
  next =>
    rw [List.nil_append, integerOfText_digits (isRow_toDigits _), digitsValue_toDigits]
    omega

/-- The digits of a text with an exponent, with a point behind the first one of several. -/
def mantissa (digits : List Char) : List Char :=
  digits.take 1 ++ if (digits.drop 1).isEmpty then [] else '.' :: digits.drop 1

/-- A number with an exponent is written as its mantissa, the mark and the exponent. -/
theorem toList_exponential (digits : List Char) (order : Int) :
    (exponential digits order).toList = mantissa digits ++ 'e' :: orderText order := by
  have shown : (toString order.natAbs).toList = Nat.toDigits 10 order.natAbs := by
    rw [Nat.toString_eq_repr, Nat.toList_repr]
  have sign : (if order < 0 then "-" else "").toList = if order < 0 then ['-'] else [] := by
    split <;> rfl
  have point :
      (if (digits.drop 1).isEmpty then "" else "." ++ String.ofList (digits.drop 1)).toList =
        if (digits.drop 1).isEmpty then [] else '.' :: digits.drop 1 := by
    split <;> simp
  unfold exponential mantissa orderText
  simp only [String.toList_append, shown, sign, point]
  simp

section

variable {digits : List Char} (row : IsRow digits)

include row

/-- The mantissa has its point behind the first digit. -/
theorem decimalOfText_mantissa :
    decimalOfText (mantissa digits) = ⟨digitsValue digits, -(digits.drop 1).length⟩ := by
  have parts := List.take_append_drop 1 digits
  unfold mantissa
  split
  next single =>
    rw [List.isEmpty_iff] at single
    rw [single, List.append_nil] at parts
    rw [List.append_nil, parts, single, decimalOfText_whole row]
    rfl
  next => rw [decimalOfText_point (row.take 1), parts]

/-- A mantissa has at most one point. -/
theorem pointed_mantissa (nonempty : digits ≠ []) : Pointed (mantissa digits) := by
  have first : digits.take 1 ≠ [] := by simpa using nonempty
  unfold mantissa
  split
  next =>
    rw [List.append_nil]
    exact .whole first (row.take 1)
  next several =>
    exact .decimal first (row.take 1) (mt List.isEmpty_iff.mpr several) (row.drop 1)

/-- The text of digits and an exponent denotes the digits, scaled. -/
theorem scientific_exponential (nonempty : digits ≠ []) (order : Int) :
    scientific (exponential digits order).toList =
      ⟨digitsValue digits, order + 1 - digits.length⟩ := by
  have length := List.length_pos_iff.mpr nonempty
  have absent := (pointed_mantissa row nonempty).notMem_exponent
  rw [toList_exponential, scientific, takeWhile_mark absent, dropWhile_mark absent,
    List.drop_one, List.tail_cons, integerOfText_orderText, decimalOfText_mantissa row,
    List.length_drop]
  congr 1
  dsimp only
  omega

end

/-- Without an exponent, the text of a decimal is read as it is. -/
theorem scientific_of_notMem {text : List Char} (absent : 'e' ∉ text) :
    scientific text = decimalOfText text := by
  simp [scientific, takeWhile_of_notMem absent, dropWhile_of_notMem absent, integerOfText,
    digitsValue]

/-! ## The text of a number -/

/-- The text of a number that begins with a digit, as a row of digits with a point or not. -/
inductive Written : List Char → Prop where
  | positional
      {text : List Char}
      (pointed : Pointed text) :
      Written text
  | exponential
      {text : List Char}
      (pointed : Pointed text)
      (order : Int) :
      Written (text ++ 'e' :: orderText order)

namespace Written

variable {text : List Char}

/-- What is written starts with a digit. -/
theorem starts (written : Written text) : ∃ first rest, text = first :: rest ∧ first.isDigit := by
  cases written with
  | positional pointed => exact pointed.starts
  | exponential pointed _ =>
      obtain ⟨first, rest, rfl, digit⟩ := pointed.starts
      exact ⟨first, _, rfl, digit⟩

/-- What is written has only digits, a point, the exponent mark and its sign. -/
theorem inside (written : Written text) :
    ∀ mark ∈ text, mark.isDigit ∨ mark ∈ ['.', 'e', '-'] := by
  intro mark member
  cases written with
  | positional pointed => exact (pointed.inside mark member).imp_right (by rintro rfl; decide)
  | exponential pointed order =>
      rcases List.mem_append.mp member with front | behind
      · exact (pointed.inside mark front).imp_right (by rintro rfl; decide)
      rcases List.mem_cons.mp behind with rfl | inOrder
      · exact .inr (by decide)
      rcases List.mem_append.mp inOrder with sign | digits
      · split at sign
        · exact .inr (by rw [List.mem_singleton.mp sign]; decide)
        · cases sign
      · exact .inl (isRow_toDigits _ mark digits)

end Written

/-- The text of zero has the form of every positional text. -/
theorem positional_zero (suffix : String) : "0" ++ suffix = positional suffix ['0'] 1 := by
  simp [positional]

section

variable {layout : Layout} (isSuffix : IsSuffix layout.integralSuffix)

include isSuffix

/-- Every decimal is written in one of the two forms. -/
theorem written_decimalText (decimal : Decimal) : Written (layout.decimalText decimal).toList := by
  have row := isRow_toDigits decimal.digits
  have nonempty : Nat.toDigits 10 decimal.digits ≠ [] := Nat.toDigits_ne_nil
  unfold Layout.decimalText
  dsimp only
  split
  · exact .positional (pointed_positional isSuffix row nonempty _)
  · rw [toList_exponential]
    exact .exponential (pointed_mantissa row nonempty) _

/-- The text of a decimal denotes a decimal of the same value. -/
theorem ofDecimal_decimalText (decimal : Decimal) :
    ofDecimal (scientific (layout.decimalText decimal).toList) = ofDecimal decimal := by
  have row := isRow_toDigits decimal.digits
  have nonempty : Nat.toDigits 10 decimal.digits ≠ [] := Nat.toDigits_ne_nil
  unfold Layout.decimalText
  dsimp only
  split
  · have absent := (pointed_positional isSuffix row nonempty
      ((Nat.toDigits 10 decimal.digits).length + decimal.exponent)).notMem_exponent
    rw [scientific_of_notMem absent, ofDecimal_positional isSuffix row, digitsValue_toDigits,
      add_sub_cancel_left]
  · rw [scientific_exponential row nonempty, digitsValue_toDigits]
    congr 2
    omega

variable {number : Number}
  (finite : number.magnitude < infinityBits)
  (positive : number.isNegative = false)

include finite positive

omit isSuffix in
/-- A number that is not negative is written by its shortest decimal. -/
theorem text_of_positive :
    layout.text number =
      if number.isZero then positional layout.integralSuffix ['0'] 1
      else layout.decimalText number.shortest := by
  have isNumber : number.isNaN = false := decide_eq_false (Nat.not_lt_of_gt finite)
  have inBounds : number.isInfinite = false := decide_eq_false (Nat.ne_of_lt finite)
  simp [Layout.text, Layout.magnitudeText, isNumber, inBounds, positive, positional_zero]

/-- Every number that is not negative is written in one of the two forms. -/
theorem written_text : Written (layout.text number).toList := by
  rw [text_of_positive finite positive]
  split
  · exact .positional (pointed_positional isSuffix (isRow_zeros 1) (List.cons_ne_nil _ _) 1)
  · exact written_decimalText isSuffix _

/-- The text of a number that is finite and not negative is read as this number. -/
theorem ofDecimal_text : ofDecimal (scientific (layout.text number).toList) = number := by
  rw [text_of_positive finite positive]
  split
  next isZero =>
    have row : IsRow ['0'] := isRow_zeros 1
    have absent := (pointed_positional isSuffix row (List.cons_ne_nil _ _) 1).notMem_exponent
    rw [scientific_of_notMem absent, ofDecimal_positional isSuffix row]
    refine eq_of_toNat_bits ?_
    rw [← magnitude_of_positive positive, of_decide_eq_true isZero]
    rfl
  next => rw [ofDecimal_decimalText isSuffix, ofDecimal_shortest finite positive]

end

theorem isSuffix_explicit : IsSuffix Layout.explicit.integralSuffix :=
  .inr rfl

end Lox.Number
