import Lox.Proofs.Source.Texts

namespace Lox.Source

open Text.Utf8 (Unfinished decode decodeFrom decodeLossy encode lead)

/-!
# Encoded text is decoded to itself

The encoding of a character is one well-formed sequence of bytes, whatever stands behind
it.  So a text is what its encoding is decoded to.  A quote, on the other hand, is never
part of a longer sequence: a text has a quote only where the bytes it was decoded from
have one, and its encoding has one only where the text has.
-/

/-! ## Bytes behind the first one -/

section

variable {value missing bits : Nat} {lowest highest : UInt8}

/-- The byte that carries six bits of a character. -/
def continuation (bits : Nat) : UInt8 :=
  UInt8.ofNat (bits + 0x80)

/-- A number that fits into a byte is the value of this byte. -/
theorem toNat_ofNat_of_lt {number : Nat} (small : number < 256) :
    (UInt8.ofNat number).toNat = number := by
  simp [Nat.mod_eq_of_lt small]

theorem toNat_continuation (small : bits < 64) : (continuation bits).toNat = bits + 0x80 :=
  toNat_ofNat_of_lt (by omega)

/-- A continuation byte is accepted if it is in the range that the first byte leaves. -/
theorem accepts_continuation_iff (small : bits < 64) :
    (⟨value, missing, lowest, highest⟩ : Unfinished).accepts (continuation bits) ↔
      lowest.toNat ≤ bits + 0x80 ∧ bits + 0x80 ≤ highest.toNat := by
  simp [Unfinished.accepts, UInt8.le_iff_toNat_le, toNat_continuation small]

/-- Where nothing else is asked of the next byte, any six bits may come. -/
theorem accepts_continuation (small : bits < 64) :
    (⟨value, missing, 0x80, 0xBF⟩ : Unfinished).accepts (continuation bits) := by
  rw [accepts_continuation_iff small]
  exact ⟨Nat.le_add_left _ _, Nat.add_le_add_right (Nat.le_of_lt_succ small) 0x80⟩

/-- A continuation byte adds six bits to the value. -/
theorem extended_continuation (small : bits < 64) :
    (⟨value, missing, lowest, highest⟩ : Unfinished).extended (continuation bits) =
      value * 64 + bits := by
  have own : (continuation bits).toNat - 0x80 = bits :=
    Nat.sub_eq_of_eq_add (toNat_continuation small)
  unfold Unfinished.extended
  rw [own]

/-- The last byte completes the character. -/
theorem decodeFrom_last
    (small : bits < 64)
    (accepted : (⟨value, 1, lowest, highest⟩ : Unfinished).accepts (continuation bits))
    (rest : List UInt8) :
    decodeFrom (some ⟨value, 1, lowest, highest⟩) (continuation bits :: rest) =
      some (Char.ofNat (value * 64 + bits)) :: decodeFrom none rest := by
  simp [decodeFrom, accepted, extended_continuation small]

/-- Any byte before the last one extends the sequence by its bits. -/
theorem decodeFrom_further
    (small : bits < 64)
    (accepted : (⟨value, missing + 2, lowest, highest⟩ : Unfinished).accepts (continuation bits))
    (rest : List UInt8) :
    decodeFrom (some ⟨value, missing + 2, lowest, highest⟩) (continuation bits :: rest) =
      decodeFrom (some ⟨value * 64 + bits, missing + 1, 0x80, 0xBF⟩) rest := by
  simp [decodeFrom, accepted, extended_continuation small]

end

/-! ## The first byte -/

/-- A byte that opens a sequence of two carries five bits. -/
theorem lead_of_two :
    ∀ bits : Fin 32, 2 ≤ bits.val →
      lead (UInt8.ofNat (bits.val + 0xC0)) = .opening ⟨bits.val, 1, 0x80, 0xBF⟩ := by
  decide

/-- A byte that opens a sequence of three carries four bits, and excludes surrogates. -/
theorem lead_of_three :
    ∀ bits : Fin 16,
      lead (UInt8.ofNat (bits.val + 0xE0)) =
        .opening
          ⟨bits.val, 2, if bits.val = 0 then 0xA0 else 0x80,
            if bits.val = 13 then 0x9F else 0xBF⟩ := by
  decide

/-- A byte that opens a sequence of four carries three bits. -/
theorem lead_of_four :
    ∀ bits : Fin 5,
      lead (UInt8.ofNat (bits.val + 0xF0)) =
        .opening
          ⟨bits.val, 3, if bits.val = 0 then 0x90 else 0x80,
            if bits.val = 4 then 0x8F else 0xBF⟩ := by
  decide

section

variable {number : Nat} (rest : List UInt8)

/-! ## Characters, by the number of their bytes -/

/-- A character of one byte is decoded. -/
theorem decodeFrom_one (one : number ≤ 0x7F) :
    decodeFrom none (UInt8.ofNat number :: rest) =
      some (Char.ofNat number) :: decodeFrom none rest := by
  have value : (UInt8.ofNat number).toNat = number := toNat_ofNat_of_lt (by omega)
  have ascii : UInt8.ofNat number < 0x80 := by
    rw [UInt8.lt_iff_toNat_lt, value]
    exact Nat.lt_succ_of_le one
  simp [decodeFrom, lead_of_ascii ascii, value]

/-- A character of two bytes is decoded. -/
theorem decodeFrom_two (many : 0x7F < number) (two : number ≤ 0x7FF) :
    decodeFrom none
        (UInt8.ofNat (number / 64 % 32 + 0xC0) :: continuation (number % 64) :: rest) =
      some (Char.ofNat number) :: decodeFrom none rest := by
  have opens := lead_of_two ⟨number / 64 % 32, by omega⟩ (by dsimp only; omega)
  have last : number % 64 < 64 := by omega
  have together : number / 64 % 32 * 64 + number % 64 = number := by omega
  rw [decodeFrom, opens]
  dsimp only
  rw [decodeFrom_last last (accepts_continuation last), together]

/-- A character of three bytes is decoded. -/
theorem decodeFrom_three
    (many : 0x7FF < number)
    (three : number ≤ 0xFFFF)
    (valid : number.isValidChar) :
    decodeFrom none
        (UInt8.ofNat (number / 4096 % 16 + 0xE0) ::
          continuation (number / 64 % 64) :: continuation (number % 64) :: rest) =
      some (Char.ofNat number) :: decodeFrom none rest := by
  have opens := lead_of_three ⟨number / 4096 % 16, by omega⟩
  have second : number / 64 % 64 < 64 := by omega
  have last : number % 64 < 64 := by omega
  have together : (number / 4096 % 16 * 64 + number / 64 % 64) * 64 + number % 64 = number := by
    omega
  rw [decodeFrom, opens]
  dsimp only
  rw [decodeFrom_further second, decodeFrom_last last (accepts_continuation last), together]
  -- The bounds on the second byte leave out short values and surrogates.
  rw [accepts_continuation_iff second]
  constructor
  · split <;> simp
    omega
  · split <;> simp <;> omega

/-- A character of four bytes is decoded. -/
theorem decodeFrom_four (many : 0xFFFF < number) (valid : number.isValidChar) :
    decodeFrom none
        (UInt8.ofNat (number / 262144 % 8 + 0xF0) ::
          continuation (number / 4096 % 64) ::
            continuation (number / 64 % 64) :: continuation (number % 64) :: rest) =
      some (Char.ofNat number) :: decodeFrom none rest := by
  have opens := lead_of_four ⟨number / 262144 % 8, by omega⟩
  have second : number / 4096 % 64 < 64 := by omega
  have third : number / 64 % 64 < 64 := by omega
  have last : number % 64 < 64 := by omega
  have together :
      ((number / 262144 % 8 * 64 + number / 4096 % 64) * 64 + number / 64 % 64) * 64 +
          number % 64 =
        number := by
    omega
  rw [decodeFrom, opens]
  dsimp only
  rw [decodeFrom_further second, decodeFrom_further third (accepts_continuation third),
    decodeFrom_last last (accepts_continuation last), together]
  -- The bounds on the second byte leave out short values and those that are too large.
  rw [accepts_continuation_iff second]
  constructor
  · split <;> simp
    omega
  · split <;> simp <;> omega

/-- The encoding of a character is decoded to it, and decoding goes on behind it. -/
theorem decodeFrom_encodeChar (scalar : Char) :
    decodeFrom none (String.utf8EncodeChar scalar ++ rest) =
      some scalar :: decodeFrom none rest := by
  have isScalar : Char.ofNat scalar.val.toNat = scalar := Char.ofNat_toNat scalar
  have valid : scalar.val.toNat.isValidChar := scalar.valid
  unfold String.utf8EncodeChar
  dsimp only
  generalize scalar.val.toNat = number at isScalar valid
  subst isScalar
  split
  next one => exact decodeFrom_one rest one
  next many =>
    split
    next two => exact decodeFrom_two rest (Nat.lt_of_not_le many) two
    next many =>
      split
      next three => exact decodeFrom_three rest (Nat.lt_of_not_le many) three valid
      next many => exact decodeFrom_four rest (Nat.lt_of_not_le many) valid

end

/-- Text is decoded from its encoding. -/
theorem decodeLossy_encode (text : String) : decodeLossy (encode text) = text := by
  have decoded (scalars : List Char) :
      decode (scalars.flatMap String.utf8EncodeChar) = scalars.map some := by
    induction scalars with
    | nil => rfl
    | cons scalar later inductionHypothesis =>
        rw [List.flatMap_cons, decode, decodeFrom_encodeChar]
        exact congrArg (some scalar :: ·) inductionHypothesis
  rw [decodeLossy, encode, decoded, List.map_map]
  simp [Function.comp_def]

/-! ## Quotes -/

/-- Only the number of a quote is the one of its character. -/
theorem eq_of_ofNat_eq_quote {number : Nat} (isQuote : Char.ofNat number = '"') :
    number = quote.toNat := by
  by_cases valid : number.isValidChar
  · rw [Char.ofNat, dif_pos valid] at isQuote
    exact congrArg Char.toNat isQuote
  · rw [Char.ofNat, dif_neg valid] at isQuote
    cases isQuote

/-- A byte that is not a quote stands for no quote. -/
theorem ne_quote_of_lead
    {byte : UInt8}
    (notQuote : byte ≠ quote)
    {scalar : Char}
    (alone : lead byte = .single scalar) :
    scalar ≠ '"' := by
  rintro rfl
  unfold lead at alone
  dsimp only at alone
  repeat' split at alone
  all_goals simp only [reduceCtorEq, Text.Utf8.Lead.single.injEq] at alone
  exact notQuote (UInt8.toNat_inj.mp (eq_of_ofNat_eq_quote alone))

/-- An unfinished sequence that is completed to no ASCII character. -/
structure Unfinished.Wide (sequence : Unfinished) : Prop where
  further : 2 ≤ sequence.value * 64 + (sequence.lowest.toNat - 0x80)
  last : sequence.missing ≤ 1 → 2 ≤ sequence.value

/-- A sequence that a byte opens is completed to no ASCII character. -/
theorem wide_of_lead
    {byte : UInt8}
    {sequence : Unfinished}
    (opens : lead byte = .opening sequence) :
    Unfinished.Wide sequence := by
  unfold lead at opens
  simp only [UInt8.lt_iff_toNat_lt, ← UInt8.toNat_inj] at opens
  repeat' split at opens
  all_goals simp only [reduceCtorEq, Text.Utf8.Lead.opening.injEq] at opens
  all_goals
    subst opens
    constructor <;> simp at *
    all_goals omega

namespace Unfinished.Wide

variable {sequence : Unfinished} (wide : Unfinished.Wide sequence)

include wide

/-- A wide sequence is not completed to a quote. -/
theorem completed (last : sequence.missing ≤ 1) (byte : UInt8) :
    Char.ofNat (sequence.extended byte) ≠ '"' := by
  intro isQuote
  have number := eq_of_ofNat_eq_quote isQuote
  have value := wide.last last
  unfold Unfinished.extended at number
  have small : quote.toNat < 128 := by decide
  omega

variable {byte : UInt8} (accepted : sequence.accepts byte)

include accepted

/-- An accepted byte makes the value of a wide sequence at least two. -/
theorem two_le_extended : 2 ≤ sequence.extended byte := by
  have above : sequence.lowest.toNat ≤ byte.toNat := by
    simp only [Unfinished.accepts, Bool.and_eq_true, decide_eq_true_eq] at accepted
    exact UInt8.le_iff_toNat_le.mp accepted.1
  have further := wide.further
  unfold Unfinished.extended
  omega

/-- A sequence stays wide while it is extended. -/
theorem extended : Unfinished.Wide ⟨sequence.extended byte, sequence.missing - 1, 0x80, 0xBF⟩ where
  further := by
    have least := wide.two_le_extended accepted
    dsimp only
    omega
  last _ := wide.two_le_extended accepted

end Unfinished.Wide

/-- Where no byte is a quote, no character is. -/
theorem quote_notMem_decodeFrom
    {bytes : List UInt8}
    (inside : ∀ byte ∈ bytes, byte ≠ quote)
    {unfinished : Option Unfinished}
    (wide : ∀ sequence ∈ unfinished, Unfinished.Wide sequence) :
    some '"' ∉ decodeFrom unfinished bytes := by
  induction bytes generalizing unfinished with
  | nil => cases unfinished <;> simp [decodeFrom]
  | cons byte rest inductionHypothesis =>
      obtain ⟨notQuote, later⟩ := List.forall_mem_cons.mp inside
      have fresh : some '"' ∉ decodeFrom none rest :=
        inductionHypothesis later (by simp)
      have single (scalar : Char) (alone : lead byte = .single scalar) :
          some '"' ∉ some scalar :: decodeFrom none rest :=
        List.not_mem_cons_of_ne_of_not_mem
          (fun same => ne_quote_of_lead notQuote alone (Option.some.inj same).symm) fresh
      have opened (sequence : Unfinished) (opens : lead byte = .opening sequence) :
          some '"' ∉ decodeFrom (some sequence) rest :=
        inductionHypothesis later (by simpa using wide_of_lead opens)
      cases unfinished with
      | none =>
          rw [decodeFrom]
          split
          next scalar alone => exact single scalar alone
          next sequence opens => exact opened sequence opens
          next => simpa using fresh
      | some sequence =>
          have isWide := wide sequence rfl
          rw [decodeFrom]
          split
          next accepted =>
            split
            next last =>
              have other := isWide.completed last byte
              exact List.not_mem_cons_of_ne_of_not_mem
                (fun same => other (Option.some.inj same).symm) fresh
            next further =>
              exact inductionHypothesis later (by simpa using isWide.extended accepted)
          next refused =>
            split
            next scalar alone => simpa using single scalar alone
            next next opens => simpa using opened next opens
            next => simpa using fresh

/-- Only the encoding of a quote has the byte of a quote. -/
theorem eq_quote_of_mem_encodeChar
    {scalar : Char}
    (member : quote ∈ String.utf8EncodeChar scalar) :
    scalar = '"' := by
  have isQuote : quote.toNat = 34 := by decide
  have one : scalar.val.toNat = 34 := by
    unfold String.utf8EncodeChar at member
    dsimp only at member
    repeat' split at member
    all_goals
      simp only [List.mem_cons, List.not_mem_nil, or_false, ← UInt8.toNat_inj, isQuote,
        UInt8.toNat_ofNat'] at member
      omega
  rw [← Char.ofNat_toNat scalar, Char.toNat, one]

/-- The contents of a string are encoded without a quote. -/
theorem ne_quote_of_mem_encode
    {body : List UInt8}
    (inside : ∀ byte ∈ body, byte ≠ quote) :
    ∀ byte ∈ encode (decodeLossy body), byte ≠ quote := by
  rintro byte member rfl
  obtain ⟨scalar, isScalar, inScalar⟩ := List.mem_flatMap.mp member
  obtain rfl := eq_quote_of_mem_encodeChar inScalar
  rw [decodeLossy, String.toList_ofList] at isScalar
  obtain ⟨decoded, isDecoded, same⟩ := List.mem_map.mp isScalar
  cases decoded with
  | none => cases same
  | some decoded =>
      obtain rfl : decoded = '"' := same
      exact quote_notMem_decodeFrom inside (by simp) isDecoded

end Lox.Source
