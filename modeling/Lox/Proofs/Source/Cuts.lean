import Lox.Proofs.Source.Lexemes
import Mathlib.Data.List.Infix

namespace Lox.Source

open Text.Utf8 (encode decodeLossy)

/-!
# The cut of the first segment

What the first segment of a source is by its grammar: a blank, a comment, the
longest lexeme that the source starts with, or an error.  Every nonempty source has
exactly one such cut, and it is the one that is computed.
-/

/-- The byte that ends a line. -/
def newline : UInt8 :=
  byteOf '\n'

/-- The byte that starts a comment when it stands twice. -/
def slash : UInt8 :=
  byteOf '/'

/-- A source, a first segment of it, and what follows the segment. -/
inductive Cut : List UInt8 → Segment → List UInt8 → Prop where
  | blank
      {byte : UInt8}
      {rest : List UInt8}
      (separates : isBlank byte) :
      Cut (byte :: rest) ⟨.blank, [byte]⟩ rest
  | comment
      {body rest : List UInt8}
      (inside : ∀ byte ∈ body, byte ≠ newline)
      (stops : ∀ byte ∈ rest.head?, byte = newline) :
      Cut (slash :: slash :: (body ++ rest)) ⟨.comment, slash :: slash :: body⟩ rest
  | token
      {bytes rest : List UInt8}
      {kind : TokenKind}
      (lexeme : Lexeme bytes kind)
      (noComment : ¬[slash, slash] <+: bytes ++ rest)
      (longest : ∀ candidate other,
        Lexeme candidate other →
          candidate <+: bytes ++ rest →
            candidate.length ≤ bytes.length) :
      Cut (bytes ++ rest) ⟨.token kind, bytes⟩ rest
  | unexpected
      {byte : UInt8}
      {rest : List UInt8}
      (noBlank : isBlank byte = false)
      (noQuote : byte ≠ quote)
      (noLexeme : ∀ candidate other, Lexeme candidate other → ¬candidate <+: byte :: rest) :
      Cut (byte :: rest) ⟨.unexpected byte, [byte]⟩ rest
  | unterminated
      {body : List UInt8}
      (inside : ∀ byte ∈ body, byte ≠ quote) :
      Cut (quote :: body) ⟨.unterminated, quote :: body⟩ []

namespace Cut

/-- The segment and what follows it make up the source. -/
theorem source_eq
    {source rest : List UInt8}
    {segment : Segment}
    (given : Cut source segment rest) :
    segment.bytes ++ rest = source := by
  cases given with
  | blank => rfl
  | comment => rfl
  | token => rfl
  | unexpected => rfl
  | unterminated => simp

/-- No segment is empty. -/
theorem bytes_ne_nil
    {source rest : List UInt8}
    {segment : Segment}
    (given : Cut source segment rest) :
    segment.bytes ≠ [] := by
  cases given with
  | token lexeme => exact lexeme.nonempty
  | _ => simp

/-- A longest lexeme at the start of a source that starts no comment. -/
theorem of_longest
    {source bytes rest : List UInt8}
    {kind : TokenKind}
    (whole : bytes ++ rest = source)
    (lexeme : Lexeme bytes kind)
    (noComment : ¬[slash, slash] <+: source)
    (longest : ∀ candidate other,
      Lexeme candidate other →
        candidate <+: source →
          candidate.length ≤ bytes.length) :
    Cut source ⟨.token kind, bytes⟩ rest := by
  subst whole
  exact .token lexeme noComment longest

end Cut

section Runs

/-! ## Runs of bytes of one class -/

variable {p : UInt8 → Bool} {run source rest : List UInt8}

/-- No run of a class is longer than the one that is taken. -/
theorem length_le_span
    (inside : ∀ byte ∈ run, p byte)
    (starts : run <+: source) :
    run.length ≤ (source.span p).1.length := by
  obtain ⟨rest, rfl⟩ := starts
  rw [List.span_eq_takeWhile_dropWhile, List.takeWhile_append_of_pos inside,
    List.length_append]
  exact Nat.le_add_right _ _

/-- A run is taken whole if the byte behind it is of another class. -/
theorem span_append
    (inside : ∀ byte ∈ run, p byte)
    (stops : ∀ byte ∈ rest.head?, p byte = false) :
    (run ++ rest).span p = (run, rest) := by
  rw [List.span_eq_takeWhile_dropWhile,
    List.takeWhile_append_of_pos inside, List.dropWhile_append_of_pos inside]
  cases rest with
  | nil => simp
  | cons byte rest => simp [stops byte rfl]

theorem mem_span
    (byte : UInt8)
    (member : byte ∈ (source.span p).1) :
    p byte := by
  rw [List.span_eq_takeWhile_dropWhile] at member
  exact List.mem_takeWhile_imp member

theorem span_stops (byte : UInt8) (first : byte ∈ (source.span p).2.head?) : p byte = false := by
  rw [List.span_eq_takeWhile_dropWhile] at first
  have stops := List.head?_dropWhile_not p source
  rw [Option.mem_def.mp first] at stops
  exact stops

theorem span_source
    (p : UInt8 → Bool)
    (source : List UInt8) :
    (source.span p).1 ++ (source.span p).2 = source := by
  rw [List.span_eq_takeWhile_dropWhile, List.takeWhile_append_dropWhile]

end Runs

section Computed

/-! ## The computed segment is a cut -/

variable {byte : UInt8} {rest : List UInt8}

/-- Where another byte stands first, there is no comment. -/
theorem noComment_of_ne (other : byte ≠ slash) : ¬[slash, slash] <+: byte :: rest := by
  rw [List.cons_prefix_cons]
  exact fun starts => other starts.1.symm

/-- A lexeme that a source starts with has the first byte of the source. -/
theorem Lexeme.exists_tail
    {candidate : List UInt8}
    {kind : TokenKind}
    (lexeme : Lexeme candidate kind)
    (starts : candidate <+: byte :: rest) :
    ∃ tail, candidate = byte :: tail ∧ tail <+: rest := by
  obtain ⟨first, tail, rfl⟩ := List.exists_cons_of_ne_nil lexeme.nonempty
  obtain ⟨rfl, later⟩ := List.cons_prefix_cons.mp starts
  exact ⟨tail, rfl, later⟩

/-- A word is cut off where it is longest. -/
theorem wordSegment_cut (letter : isLetter byte) :
    Cut (byte :: rest) (wordSegment byte rest).1 (wordSegment byte rest).2 := by
  have word : IsWord byte (rest.span isWordByte).1 := ⟨letter, mem_span⟩
  refine .of_longest (congrArg (byte :: ·) (span_source isWordByte rest)) word.lexeme
    (noComment_of_ne (ne_slash_of_isWordByte (isWordByte_of_isLetter letter))) ?_
  intro candidate other lexeme starts
  obtain ⟨tail, rfl, later⟩ := lexeme.exists_tail starts
  have continues := (lexeme.word_of_isLetter letter).1.continues
  exact Nat.succ_le_succ (length_le_span continues later)

/--
What the tail of a number at the start of a source is: a run of digits, or all the
digits that the source starts with, a point and digits behind it.
-/
theorem IsNumberTail.spanned
    {tail : List UInt8}
    (number : IsNumberTail tail)
    (starts : tail <+: rest) :
    tail.length ≤ (rest.span isDigit).1.length ∨
      ∃ digit fraction behind,
        (rest.span isDigit).2 = byteOf '.' :: digit :: (fraction ++ behind) ∧
          tail = (rest.span isDigit).1 ++ byteOf '.' :: digit :: fraction ∧
          isDigit digit ∧
          ∀ byte ∈ fraction, isDigit byte := by
  obtain inside | ⟨digits, fraction, rfl, inside, nonempty, insideFraction⟩ := number
  · exact .inl (length_le_span inside starts)
  · obtain ⟨digit, fraction, rfl⟩ := List.exists_cons_of_ne_nil nonempty
    obtain ⟨behind, rfl⟩ := starts
    have spanned :
        (digits ++ byteOf '.' :: digit :: (fraction ++ behind)).span isDigit =
          (digits, byteOf '.' :: digit :: (fraction ++ behind)) :=
      span_append inside (by simp [isDigit, byteOf])
    rw [List.append_assoc, List.cons_append, List.cons_append, spanned]
    exact .inr ⟨digit, fraction, behind, rfl, rfl, insideFraction digit (by simp),
      fun byte member => insideFraction byte (by simp [member])⟩

/-- The computed tail of a number is one, and there is no longer one. -/
theorem numberTail_longest (rest : List UInt8) :
    IsNumberTail (numberTail rest).1 ∧
      (numberTail rest).1 ++ (numberTail rest).2 = rest ∧
      ∀ tail, IsNumberTail tail → tail <+: rest → tail.length ≤ (numberTail rest).1.length := by
  have inside : ∀ byte ∈ (rest.span isDigit).1, isDigit byte := mem_span
  have whole := span_source isDigit rest
  have candidates (tail : List UInt8) (number : IsNumberTail tail) (starts : tail <+: rest) :=
    number.spanned starts
  unfold numberTail
  generalize rest.span isDigit = spanned at inside whole candidates
  obtain ⟨digits, after⟩ := spanned
  dsimp only at inside whole candidates ⊢
  split
  next point digit beyond =>
    split
    next fractional =>
      obtain ⟨rfl, isDigit_digit⟩ : point = byteOf '.' ∧ isDigit digit = true := by
        simpa using fractional
      refine ⟨.inr ⟨digits, _, rfl, inside, by simp, ?_⟩, ?_, ?_⟩
      · intro byte member
        obtain rfl | later := List.mem_cons.mp member
        · exact isDigit_digit
        · exact mem_span byte later
      · simpa [span_source] using whole
      · intro tail number starts
        obtain short | ⟨digit', fraction, behind, after, rfl, _, insideFraction⟩ :=
          candidates tail number starts
        · simp only [List.length_append]
          omega
        · obtain ⟨rfl, rfl⟩ : digit = digit' ∧ beyond = fraction ++ behind := by
            simpa using after
          have longest := length_le_span insideFraction (List.prefix_append fraction behind)
          simpa using longest
    next noFraction =>
      refine ⟨.inl inside, whole, fun tail number starts => ?_⟩
      obtain short | ⟨digit', fraction, behind, after, rfl, isDigit_digit, _⟩ :=
        candidates tail number starts
      · exact short
      · obtain ⟨rfl, rfl, _⟩ :
            point = byteOf '.' ∧ digit = digit' ∧ beyond = fraction ++ behind := by
          simpa using after
        simp [isDigit_digit] at noFraction
  next noPair =>
    refine ⟨.inl inside, whole, fun tail number starts => ?_⟩
    obtain short | ⟨digit, fraction, behind, rfl, _⟩ := candidates tail number starts
    · exact short
    · exact absurd rfl (noPair _ _ _)

/-- A number is cut off where it is longest. -/
theorem numberSegment_cut (digit : isDigit byte) :
    Cut (byte :: rest) (numberSegment byte rest).1 (numberSegment byte rest).2 := by
  obtain ⟨isTail, whole, longest⟩ := numberTail_longest rest
  refine .of_longest (congrArg (byte :: ·) whole) (isTail.lexeme digit)
    (noComment_of_ne (ne_slash_of_isWordByte (isWordByte_of_isDigit digit))) ?_
  intro candidate other lexeme starts
  obtain ⟨tail, rfl, later⟩ := lexeme.exists_tail starts
  exact Nat.succ_le_succ (longest tail (lexeme.number_of_isDigit digit).1 later)

/-- A string is cut off at its quote, or not at all. -/
theorem stringSegment_cut :
    Cut (quote :: rest) (stringSegment quote rest).1 (stringSegment quote rest).2 := by
  have inside : ∀ byte ∈ (rest.span (· != byteOf '"')).1, byte ≠ quote := by
    intro byte member
    simpa [quote] using mem_span byte member
  have whole := span_source (· != byteOf '"') rest
  have stops : ∀ byte ∈ (rest.span (· != byteOf '"')).2.head?, (byte != byteOf '"') = false :=
    span_stops
  unfold stringSegment
  cases spanned : rest.span (· != byteOf '"') with
  | mk body after =>
      rw [spanned] at inside whole stops
      cases after with
      | nil =>
          obtain rfl : body = rest := by simpa using whole
          exact .unterminated inside
      | cons closing after =>
          obtain rfl : closing = quote := by simpa [quote] using stops closing rfl
          refine .of_longest (by simp [← whole]) (.string inside)
            (noComment_of_ne (by decide)) ?_
          intro candidate other lexeme starts
          obtain ⟨tail, rfl, behind, same⟩ := lexeme.exists_tail starts
          obtain ⟨body', rfl, inside', rfl⟩ := lexeme.string_of_quote
          have again : rest.span (· != byteOf '"') = (body', quote :: behind) := by
            rw [← same, List.append_assoc]
            refine span_append (by simpa [quote] using inside') ?_
            simp [quote]
          obtain ⟨rfl, _⟩ := Prod.mk.inj (spanned.symm.trans again)
          simp

/-- A symbol takes a following equals sign if there is a longer symbol. -/
theorem symbolSegment_cut
    {sign : Symbol}
    (known : symbol? byte = some sign)
    (noComment : ¬[slash, slash] <+: byte :: rest) :
    Cut (byte :: rest) (symbolSegment sign byte rest).1 (symbolSegment sign byte rest).2 := by
  obtain ⟨noWordByte, noQuote, _⟩ := plain_of_symbol? known
  have lexeme : Lexeme [byte] (.symbol sign) := by
    rw [← spelling_of_symbol? known]
    exact .symbol sign
  -- a symbol of two bytes needs the equals sign and a longer symbol
  have candidates (candidate : List UInt8) (other : TokenKind) (given : Lexeme candidate other)
      (starts : candidate <+: byte :: rest) :
      candidate.length = 1 ∨
        candidate.length = 2 ∧ rest.head? = some (byteOf '=') ∧ (withEqual? sign).isSome := by
    obtain ⟨tail, rfl, later⟩ := given.exists_tail starts
    obtain ⟨long, spelled, _⟩ := given.symbol_of_other noWordByte noQuote
    obtain ⟨byte', one, _⟩ | ⟨byte', short, two, isShort, isLong⟩ := symbol_spelled long
    · simp [spelled, one]
    · obtain ⟨rfl, rfl⟩ := List.cons.inj (spelled.trans two)
      obtain ⟨behind, rfl⟩ := later
      obtain rfl : sign = short := by simpa [known] using isShort
      simp [isLong]
  unfold symbolSegment
  split
  next next after long isLong =>
    split
    next isEqual =>
      subst isEqual
      have lexeme : Lexeme [byte, byteOf '='] (.symbol long) := by
        rw [← spelling_of_withEqual? known isLong]
        exact .symbol long
      refine .of_longest rfl lexeme noComment fun candidate other given starts => ?_
      obtain one | ⟨two, _⟩ := candidates candidate other given starts
      all_goals simp [*]
    next noEqual =>
      refine .of_longest rfl lexeme noComment fun candidate other given starts => ?_
      obtain one | ⟨_, isEqual, _⟩ := candidates candidate other given starts
      · simp [one]
      · exact absurd (by simpa using isEqual) noEqual
  next noPair =>
    refine .of_longest rfl lexeme noComment fun candidate other given starts => ?_
    obtain one | ⟨_, isEqual, isLong⟩ := candidates candidate other given starts
    · simp [one]
    · obtain ⟨after, rfl⟩ := List.head?_eq_some_iff.mp isEqual
      obtain ⟨long, isLong⟩ := Option.isSome_iff_exists.mp isLong
      exact absurd isLong (noPair _ _ _ rfl)

/-- A comment is recognised by its two slashes. -/
theorem startsComment_iff :
    startsComment byte rest = true ↔ [slash, slash] <+: byte :: rest := by
  simp only [startsComment, slash, Bool.and_eq_true, decide_eq_true_eq,
    List.cons_prefix_cons, List.head?_eq_some_iff]
  constructor
  · rintro ⟨rfl, after, rfl⟩
    exact ⟨rfl, after, rfl⟩
  · rintro ⟨rfl, after, rfl⟩
    exact ⟨rfl, after, rfl⟩

/-- A comment runs from its two slashes to the end of the line. -/
theorem commentSegment_eq
    {body : List UInt8}
    (inside : ∀ byte ∈ body, byte ≠ newline)
    (stops : ∀ byte ∈ rest.head?, byte = newline) :
    commentSegment slash (slash :: (body ++ rest)) =
      (⟨.comment, slash :: slash :: body⟩, rest) := by
  have spanned : (slash :: body ++ rest).span (· != byteOf '\n') = (slash :: body, rest) :=
    span_append (by simpa [newline] using ⟨by decide, inside⟩) (by simpa [newline] using stops)
  rw [commentSegment, ← List.cons_append, spanned]

/-- A comment is cut off at the end of its line. -/
theorem commentSegment_cut (starts : startsComment byte rest) :
    Cut (byte :: rest) (commentSegment byte rest).1 (commentSegment byte rest).2 := by
  obtain ⟨after, same⟩ := startsComment_iff.mp starts
  obtain ⟨rfl, rfl⟩ := List.cons.inj same
  have inside : ∀ byte ∈ (after.span (· != newline)).1, byte ≠ newline := by
    intro byte member
    simpa using mem_span byte member
  have stops : ∀ byte ∈ (after.span (· != newline)).2.head?, byte = newline := by
    intro byte first
    simpa using span_stops byte first
  have whole := span_source (· != newline) after
  generalize after.span (· != newline) = spanned at inside stops whole
  subst whole
  change Cut (slash :: slash :: (spanned.1 ++ spanned.2))
    (commentSegment slash (slash :: (spanned.1 ++ spanned.2))).1
    (commentSegment slash (slash :: (spanned.1 ++ spanned.2))).2
  rw [commentSegment_eq inside stops]
  exact .comment inside stops

/-- The computed segment is a cut of the source. -/
theorem firstSegment_cut (byte : UInt8) (rest : List UInt8) :
    Cut (byte :: rest) (firstSegment byte rest).1 (firstSegment byte rest).2 := by
  unfold firstSegment
  split
  next separates => exact .blank separates
  next noBlank =>
  split
  next comment => exact commentSegment_cut comment
  next noComment =>
  split
  next isQuote =>
    subst isQuote
    exact stringSegment_cut
  next noQuote =>
  split
  next digit => exact numberSegment_cut digit
  next noDigit =>
  split
  next letter => exact wordSegment_cut letter
  next noLetter =>
  have noWordByte : isWordByte byte = false := by simp [isWordByte, noDigit, noLetter]
  split
  next sign known => exact symbolSegment_cut known (mt startsComment_iff.mpr noComment)
  next noSymbol =>
    refine .unexpected (by simpa using noBlank) noQuote fun candidate other lexeme starts => ?_
    obtain ⟨tail, rfl, _⟩ := lexeme.exists_tail starts
    obtain ⟨sign, spelled, _⟩ := lexeme.symbol_of_other noWordByte noQuote
    obtain ⟨byte', one, isSign⟩ | ⟨byte', short, two, isShort, _⟩ := symbol_spelled sign
    all_goals simp_all

end Computed

section Uniqueness

/-! ## There is no other cut -/

variable {source rest : List UInt8} {segment : Segment}

/-- A token is the only cut of its source. -/
theorem Cut.token_unique
    {bytes : List UInt8}
    {kind : TokenKind}
    (given : Cut source segment rest)
    (lexeme : Lexeme bytes kind)
    (noComment : ¬[slash, slash] <+: source)
    (longest : ∀ candidate other,
      Lexeme candidate other →
        candidate <+: source →
          candidate.length ≤ bytes.length)
    (starts : bytes <+: source) :
    segment = ⟨.token kind, bytes⟩ := by
  cases given with
  | @blank byte rest separates =>
      obtain ⟨tail, rfl, _⟩ := lexeme.exists_tail starts
      simp [lexeme.isBlank_first] at separates
  | comment => simp [List.cons_prefix_cons] at noComment
  | @token bytes' rest kind' lexeme' _ longest' =>
      have starts' : bytes' <+: bytes' ++ rest := List.prefix_append bytes' rest
      have same : bytes' = bytes :=
        List.prefix_of_prefix_length_le starts' starts (longest _ _ lexeme' starts')
          |>.eq_of_length_le (longest' _ _ lexeme starts)
      subst same
      rw [lexeme.kind_unique lexeme']
  | unexpected _ _ noLexeme => exact absurd starts (noLexeme _ _ lexeme)
  | @unterminated body inside =>
      obtain ⟨tail, rfl, later⟩ := lexeme.exists_tail starts
      obtain ⟨body', rfl, _⟩ := lexeme.string_of_quote
      exact absurd rfl (inside quote (later.subset (by simp)))

/-- A blank byte is a segment of its own. -/
theorem firstSegment_blank
    {byte : UInt8}
    (separates : isBlank byte) :
    firstSegment byte rest = (⟨.blank, [byte]⟩, rest) := by
  simp [firstSegment, separates]

/-- A comment goes up to the end of its line. -/
theorem firstSegment_comment
    {body : List UInt8}
    (inside : ∀ byte ∈ body, byte ≠ newline)
    (stops : ∀ byte ∈ rest.head?, byte = newline) :
    firstSegment slash (slash :: (body ++ rest)) =
      (⟨.comment, slash :: slash :: body⟩, rest) := by
  have noBlank : isBlank slash = false := by decide
  have starts : startsComment slash (slash :: (body ++ rest)) = true := by
    simp [startsComment, slash]
  rw [firstSegment, noBlank, starts]
  exact commentSegment_eq inside stops

/-- A string without its last quote goes up to the end. -/
theorem firstSegment_unterminated
    {body : List UInt8}
    (inside : ∀ byte ∈ body, byte ≠ quote) :
    firstSegment quote body = (⟨.unterminated, quote :: body⟩, []) := by
  have noBlank : isBlank quote = false := by decide
  have noComment : startsComment quote body = false := by
    simp [startsComment, quote, byteOf]
  have spanned : (body ++ []).span (· != byteOf '"') = (body, []) :=
    span_append (by simpa [quote] using inside) (by simp)
  rw [List.append_nil] at spanned
  have opened : stringSegment quote body = (⟨.unterminated, quote :: body⟩, []) := by
    rw [stringSegment, spanned]
  rw [firstSegment, noBlank, noComment]
  exact opened

/-- A byte that no lexeme starts with is a segment of its own. -/
theorem firstSegment_unexpected
    {byte : UInt8}
    (noBlank : isBlank byte = false)
    (noQuote : byte ≠ quote)
    (noLexeme : ∀ candidate other, Lexeme candidate other → ¬candidate <+: byte :: rest) :
    firstSegment byte rest = (⟨.unexpected byte, [byte]⟩, rest) := by
  have single (kind : TokenKind) : ¬Lexeme [byte] kind :=
    fun lexeme => noLexeme _ _ lexeme (by simp [List.cons_prefix_cons])
  have noDigit : ¬isDigit byte :=
    fun digit => single _ (IsNumberTail.lexeme digit (.inl (by simp)))
  have noLetter : ¬isLetter byte :=
    fun letter => single _ (IsWord.lexeme ⟨letter, by simp⟩)
  have noSymbol : symbol? byte = none := by
    cases known : symbol? byte with
    | none => rfl
    | some sign =>
        have lexeme := Lexeme.symbol sign
        rw [spelling_of_symbol? known] at lexeme
        exact absurd lexeme (single _)
  have noComment : ¬startsComment byte rest := by
    intro starts
    obtain ⟨after, same⟩ := startsComment_iff.mp starts
    obtain ⟨rfl, _⟩ := List.cons.inj same
    exact absurd noSymbol (by decide)
  rw [firstSegment, noBlank, if_neg (by simp), if_neg noComment,
    if_neg (show ¬byte = byteOf '"' from noQuote), if_neg noDigit, if_neg noLetter, noSymbol]

/-- Every cut of a source is the computed one. -/
theorem Cut.eq_firstSegment
    {byte : UInt8}
    {behind : List UInt8}
    (given : Cut (byte :: behind) segment rest) :
    firstSegment byte behind = (segment, rest) := by
  have computed := firstSegment_cut byte behind
  generalize whole : byte :: behind = source at given computed
  cases given with
  | blank separates =>
      obtain ⟨rfl, rfl⟩ := List.cons.inj whole
      exact firstSegment_blank separates
  | comment inside stops =>
      obtain ⟨rfl, rfl⟩ := List.cons.inj whole
      exact firstSegment_comment inside stops
  | @token bytes rest kind lexeme noComment longest =>
      have same := computed.token_unique lexeme noComment longest (List.prefix_append _ _)
      have behindSame := computed.source_eq
      rw [same] at behindSame
      exact Prod.ext same (List.append_cancel_left behindSame)
  | unexpected noBlank noQuote noLexeme =>
      obtain ⟨rfl, rfl⟩ := List.cons.inj whole
      exact firstSegment_unexpected noBlank noQuote noLexeme
  | unterminated inside =>
      obtain ⟨rfl, rfl⟩ := List.cons.inj whole
      exact firstSegment_unterminated inside

end Uniqueness

end Lox.Source
