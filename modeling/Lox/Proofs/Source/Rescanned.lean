import Lox.Proofs.Source.Encoding

namespace Lox.Source

open Text.Utf8 (encode decodeLossy)

/-!
# Tokens scanned once more

The text of a token determines the token.  What is read in a source as a lexeme has as its
text a lexeme of the same kind, even where bytes of a string were replaced, and a lexeme on
its own is divided into nothing but itself.
-/

variable {bytes : List UInt8} {kind : TokenKind}

/-! ## Lexemes as text -/

theorem encode_quoted (body : List UInt8) :
    encode (decodeLossy (quote :: (body ++ [quote]))) =
      quote :: (encode (decodeLossy body) ++ [quote]) := by
  have isQuote : String.utf8EncodeChar '"' = [quote] := by decide
  unfold encode
  rw [decodeLossy_quoted, List.flatMap_cons, List.flatMap_append, List.flatMap_singleton, isQuote]
  rfl

theorem ascii_of_isDigit {byte : UInt8} (digit : isDigit byte) : byte < 0x80 :=
  ascii_of_isWordByte (isWordByte_of_isDigit digit)

/-- The text of a lexeme is a lexeme of the same kind. -/
theorem Lexeme.asText (given : Lexeme bytes kind) : Lexeme (encode (decodeLossy bytes)) kind := by
  cases given with
  | symbol sign =>
      rw [decodeLossy_encode]
      exact .symbol sign
  | keyword word =>
      rw [decodeLossy_encode]
      exact .keyword word
  | identifier starts continues free =>
      rw [encode_decodeLossy (IsWord.mk starts continues).ascii]
      exact .identifier starts continues free
  | @string body inside =>
      have again := Lexeme.string (ne_quote_of_mem_encode inside)
      rwa [decodeLossy_encode, ← encode_quoted] at again
  | whole nonempty inside =>
      rw [encode_decodeLossy fun byte member => ascii_of_isDigit (inside byte member)]
      exact .whole nonempty inside
  | @decimal digits fraction nonempty inside behind insideFraction =>
      have ascii : ∀ byte ∈ digits ++ byteOf '.' :: fraction, byte < 0x80 := by
        intro byte member
        rcases List.mem_append.mp member with whole | dotted
        · exact ascii_of_isDigit (inside byte whole)
        rcases List.mem_cons.mp dotted with rfl | decimal
        · decide
        · exact ascii_of_isDigit (insideFraction byte decimal)
      rw [encode_decodeLossy ascii]
      exact .decimal nonempty inside behind insideFraction

/-! ## Lexemes as sources -/

/-- No lexeme starts a comment. -/
theorem Lexeme.startsNoComment (given : Lexeme bytes kind) : ¬[slash, slash] <+: bytes := by
  rintro ⟨tail, rfl⟩
  obtain ⟨sign, spelled, -⟩ := given.symbol_of_other (by decide) (by decide)
  obtain ⟨byte, one, -⟩ | ⟨byte, short, two, -⟩ := symbol_spelled sign
  · simp [one] at spelled
  · rw [two] at spelled
    exact absurd (List.cons.inj (List.cons.inj spelled).2).1 (by decide)

/-- A lexeme on its own is its only segment. -/
theorem Lexeme.segmented (given : Lexeme bytes kind) : Segmented bytes [⟨.token kind, bytes⟩] :=
  .cons
    (.of_longest (List.append_nil bytes) given given.startsNoComment
      fun _ _ _ starts => starts.length_le)
    .nil

/-- Scanned on its own, a lexeme gives its token and the end of the input. -/
theorem Lexeme.items (given : Lexeme bytes kind) :
    Source.items bytes =
      [.token ⟨kind, decodeLossy bytes, lineAfter bytes⟩,
        .token ⟨.endOfInput, "", lineAfter bytes⟩] := by
  rw [items_eq_report given.segmented]
  rfl

/-! ## Tokens of a source -/

section

variable {source : List UInt8} {token : Token}

theorem genuine_of_mem_tokens (member : token ∈ tokens source) : Genuine token := by
  obtain ⟨found, segmented, -⟩ := Segmented.existsUnique source
  obtain ⟨item, isItem, isToken⟩ := List.mem_filterMap.mp member
  cases item with
  | error fault => cases isToken
  | token word =>
      obtain rfl := Option.some.inj isToken
      rw [items_eq_report segmented] at isItem
      exact genuine_of_reported segmented isItem

end

/--
The text of any token but the end of the input, scanned on its own, gives one token with
the same kind, value and text, and behind it the end of the input.  So tokens that agree
as words agree altogether, with the values of their literals.
-/
theorem token_scanned_again :
    (∀ source, ∀ token ∈ tokens source, token.kind ≠ .endOfInput →
      items (encode token.lexeme) =
        [.token ⟨token.kind, token.lexeme, lineAfter (encode token.lexeme)⟩,
          .token ⟨.endOfInput, "", lineAfter (encode token.lexeme)⟩]) ∧
      ∀ source other, ∀ left ∈ tokens source, ∀ right ∈ tokens other,
        left.sameWord right → left = right := by
  constructor
  · intro source token member inner
    obtain ends | ⟨bytes, lexeme, text⟩ := genuine_of_mem_tokens member
    · contradiction
    · rw [text, lexeme.asText.items, decodeLossy_encode]
  · intro source other left isLeft right isRight same
    simp only [Token.sameWord, Bool.and_eq_true, decide_eq_true_eq] at same
    obtain ⟨⟨sort, lexeme⟩, line⟩ := same
    have kind := (SameText.mk sort lexeme).kind
      (genuine_of_mem_tokens isLeft) (genuine_of_mem_tokens isRight)
    cases left
    cases right
    simp_all

/-- A string of one byte that starts a sequence which the closing quote breaks off. -/
def brokenString : List UInt8 :=
  [quote, 0xC3, quote]

/-- The text of the broken string. -/
def repairedString : List UInt8 :=
  [quote, 0xEF, 0xBF, 0xBD, quote]

theorem token_scanned_again_repaired :
    ∃ token ∈ tokens brokenString, ∃ other ∈ tokens repairedString,
      token.kind ≠ .endOfInput ∧
        encode token.lexeme = repairedString ∧
        items repairedString = [.token token, .token ⟨.endOfInput, "", 1⟩] ∧
        token.sameWord other ∧
        token = other := by
  let token : Token := ⟨.string "\uFFFD", "\"\uFFFD\"", 1⟩
  have broken : token ∈ tokens brokenString := by decide
  have repaired : token ∈ tokens repairedString := by decide
  have inner : token.kind ≠ .endOfInput := by decide
  have text : encode token.lexeme = repairedString := by decide
  have again := token_scanned_again.1 brokenString token broken inner
  rw [text] at again
  exact ⟨token, broken, token, repaired, inner, text, again, by decide,
    token_scanned_again.2 brokenString repairedString token broken token repaired (by decide)⟩

end Lox.Source
