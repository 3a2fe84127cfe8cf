import Lox.Proofs.Source.Keywords

namespace Lox.Source

open Text.Utf8 (Unfinished decode decodeFrom decodeLossy lead)

/-!
# The text of a token determines its value

A token keeps the text it was read from, in which ill-formed runs of bytes have been
replaced.  For a number that is the text of which the value was read.  For a string it is
the text of its contents between two quotes, as no unfinished sequence of bytes goes on
across a quote.  So two tokens of one sort with the same text have the same value.
-/

/-! ## Decoding up to an ASCII byte -/

/-- An unfinished sequence that no ASCII byte continues. -/
def Unfinished.Beyond (sequence : Unfinished) : Prop :=
  0x80 ≤ sequence.lowest
theorem not_accepts_of_ascii
    {sequence : Unfinished}
    (beyond : Unfinished.Beyond sequence)
    {byte : UInt8}
    (ascii : byte < 0x80) :
    sequence.accepts byte = false := by
  have below : ¬ sequence.lowest ≤ byte := UInt8.not_le.mpr (UInt8.lt_of_lt_of_le ascii beyond)
  simp [Unfinished.accepts, below]

theorem lead_of_ascii {byte : UInt8} (ascii : byte < 0x80) :
    lead byte = .single (Char.ofNat byte.toNat) := by
  simp [lead, ascii]

/-- Every sequence goes on with bytes that are not ASCII. -/
theorem beyond_of_lead
    {byte : UInt8}
    {sequence : Unfinished}
    (opens : lead byte = .opening sequence) :
    Unfinished.Beyond sequence := by
  unfold lead at opens
  dsimp only at opens
  repeat' split at opens
  all_goals simp only [reduceCtorEq, Text.Utf8.Lead.opening.injEq] at opens
  all_goals
    subst opens
    exact UInt8.le_iff_toNat_le.mpr (by simp)

/-- An ASCII byte ends any unfinished sequence and is decoded by itself. -/
theorem decodeFrom_append
    {byte : UInt8}
    (ascii : byte < 0x80)
    (bytes rest : List UInt8)
    (unfinished : Option Unfinished)
    (beyond : ∀ sequence ∈ unfinished, Unfinished.Beyond sequence) :
    decodeFrom unfinished (bytes ++ byte :: rest) =
      decodeFrom unfinished bytes ++ some (Char.ofNat byte.toNat) :: decodeFrom none rest := by
  induction bytes generalizing unfinished with
  | nil =>
      cases unfinished with
      | none => simp [decodeFrom, lead_of_ascii ascii]
      | some sequence =>
          have refused := not_accepts_of_ascii (beyond sequence rfl) ascii
          simp [decodeFrom, lead_of_ascii ascii, refused]
  | cons first others inductionHypothesis =>
      have fresh := inductionHypothesis none (by simp)
      have opened : ∀ sequence, lead first = .opening sequence →
          decodeFrom (some sequence) (others ++ byte :: rest) =
            decodeFrom (some sequence) others ++
              some (Char.ofNat byte.toNat) :: decodeFrom none rest :=
        fun sequence opens => inductionHypothesis _ (by simpa using beyond_of_lead opens)
      cases unfinished with
      | none =>
          rw [List.cons_append, decodeFrom, decodeFrom]
          split
          · rw [fresh]; rfl
          next sequence opens => exact opened sequence opens
          · rw [fresh]; rfl
      | some sequence =>
          rw [List.cons_append, decodeFrom, decodeFrom]
          split
          · split
            · rw [fresh]; rfl
            · refine inductionHypothesis _ fun further isFurther => ?_
              obtain rfl := Option.some.inj isFurther
              exact UInt8.le_refl _
          · split
            · rw [fresh]; rfl
            next further opens => rw [opened further opens]; rfl
            · rw [fresh]; rfl

/-- The text of a string token is that of its contents, in quotes. -/
theorem decodeLossy_quoted (body : List UInt8) :
    (decodeLossy (quote :: (body ++ [quote]))).toList =
      '"' :: ((decodeLossy body).toList ++ ['"']) := by
  have ascii : quote < 0x80 := by decide
  have around := decodeFrom_append ascii [] (body ++ [quote]) none (by simp)
  have behind := decodeFrom_append ascii body [] none (by simp)
  have isQuote : Char.ofNat quote.toNat = '"' := by decide
  unfold decodeLossy decode
  rw [List.nil_append] at around
  rw [around, behind, isQuote]
  simp [decodeFrom]

/-! ## Lexemes with the same text -/

section

variable {bytes bytes' : List UInt8} {kind kind' : TokenKind}

/-- The text of a number token is the one that its value was read of. -/
theorem Lexeme.number_of_text
    {value : Number}
    (given : Lexeme bytes (.number value)) :
    value = Number.read (decodeLossy bytes) := by
  cases given with
  | whole _ _ => rfl
  | decimal _ _ _ _ => rfl

/-- The text of a string token is its contents between quotes. -/
theorem Lexeme.string_of_text
    {contents : String}
    (given : Lexeme bytes (.string contents)) :
    (decodeLossy bytes).toList = '"' :: (contents.toList ++ ['"']) := by
  cases given with
  | @string body _ => exact decodeLossy_quoted body

/-- Lexemes of one sort with the same text are tokens of the same kind. -/
theorem Lexeme.kind_of_text
    (given : Lexeme bytes kind)
    (other : Lexeme bytes' kind')
    (sort : kind.sameSort kind' = true)
    (text : decodeLossy bytes = decodeLossy bytes') :
    kind = kind' := by
  unfold TokenKind.sameSort at sort
  split at sort
  next contents contents' =>
    have quoted := given.string_of_text
    rw [text, other.string_of_text] at quoted
    have same : contents'.toList = contents.toList :=
      List.append_cancel_right (List.cons.inj quoted).2
    rw [String.toList_inj.mp same]
  next value value' => rw [given.number_of_text, other.number_of_text, text]
  · exact of_decide_eq_true sort

end

/-! ## Scanned tokens with the same text -/

/-- Two tokens of one sort with the same text, on whatever lines. -/
structure SameText (left right : Token) : Prop where
  sort : left.kind.sameSort right.kind = true
  lexeme : left.lexeme = right.lexeme

theorem sameSort_endOfInput (kind : TokenKind) :
    kind.sameSort .endOfInput = true ↔ kind = .endOfInput := by
  cases kind <;> simp [TokenKind.sameSort]

theorem endOfInput_sameSort (kind : TokenKind) :
    TokenKind.endOfInput.sameSort kind = true ↔ .endOfInput = kind := by
  cases kind <;> simp [TokenKind.sameSort]

/-- Scanned tokens of one sort with the same text are of the same kind. -/
theorem SameText.kind
    {left right : Token}
    (same : SameText left right)
    (genuine : Genuine left)
    (genuine' : Genuine right) :
    left.kind = right.kind := by
  have sort := same.sort
  rcases genuine with ends | ⟨bytes, lexeme, text⟩
  · rw [ends] at sort ⊢
    exact (endOfInput_sameSort _).mp sort
  rcases genuine' with ends | ⟨bytes', lexeme', text'⟩
  · rw [ends] at sort ⊢
    exact (sameSort_endOfInput _).mp sort
  · refine lexeme.kind_of_text lexeme' sort ?_
    rw [← text, ← text', same.lexeme]

end Lox.Source
