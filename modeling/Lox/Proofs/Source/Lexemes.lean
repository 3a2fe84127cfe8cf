import Lox.Source.Segment
import Mathlib.Data.List.TakeWhile

namespace Lox.Source

open Text.Utf8 (encode decodeLossy)

/-!
# The lexical grammar

The byte strings that are a token of some kind, whatever surrounds them: symbols,
keywords, identifiers, strings and numbers.  The first byte of a lexeme decides
which of these it is, and its bytes determine the token.
-/

/-- The byte that opens and closes a string. -/
def quote : UInt8 :=
  byteOf '"'

/-- A byte string that is one token, and the kind of that token. -/
inductive Lexeme : List UInt8 → TokenKind → Prop where
  | symbol (sign : Symbol) :
      Lexeme (encode sign.spelling) (.symbol sign)
  | keyword (word : Keyword) :
      Lexeme (encode word.spelling) (.keyword word)
  | identifier
      {first : UInt8}
      {tail : List UInt8}
      (starts : isLetter first)
      (continues : ∀ byte ∈ tail, isWordByte byte)
      (free : ∀ word : Keyword, first :: tail ≠ encode word.spelling) :
      Lexeme (first :: tail) .identifier
  | string
      {body : List UInt8}
      (inside : ∀ byte ∈ body, byte ≠ quote) :
      Lexeme (quote :: (body ++ [quote])) (.string (decodeLossy body))
  | whole
      {digits : List UInt8}
      (nonempty : digits ≠ [])
      (inside : ∀ byte ∈ digits, isDigit byte) :
      Lexeme digits (.number (Number.read (decodeLossy digits)))
  | decimal
      {digits fraction : List UInt8}
      (nonempty : digits ≠ [])
      (inside : ∀ byte ∈ digits, isDigit byte)
      (behind : fraction ≠ [])
      (insideFraction : ∀ byte ∈ fraction, isDigit byte) :
      Lexeme (digits ++ byteOf '.' :: fraction)
        (.number (Number.read (decodeLossy (digits ++ byteOf '.' :: fraction))))

section Bytes

/-! ## Classes of bytes -/

/-- A byte of a word is a character of its own. -/
theorem ascii_of_isWordByte {byte : UInt8} (given : isWordByte byte) : byte < 0x80 := by
  simp only [isWordByte, isLetter, isDigit, byteOf, UInt8.le_iff_toNat_le,
    UInt8.lt_iff_toNat_lt, ← UInt8.toNat_inj, Bool.or_eq_true, Bool.and_eq_true,
    decide_eq_true_eq] at given ⊢
  simp at given ⊢
  omega

theorem isLetter_of_isDigit {byte : UInt8} (given : isDigit byte) : isLetter byte = false := by
  simp [isDigit, isLetter, byteOf, UInt8.le_iff_toNat_le, ← UInt8.toNat_inj] at given ⊢
  omega

theorem ne_quote_of_isWordByte {byte : UInt8} (given : isWordByte byte) : byte ≠ quote := by
  rintro rfl
  exact absurd given (by decide)

theorem ne_slash_of_isWordByte {byte : UInt8} (given : isWordByte byte) :
    byte ≠ byteOf '/' := by
  rintro rfl
  exact absurd given (by decide)

/-- No byte of a word is blank. -/
theorem isBlank_of_isWordByte {byte : UInt8} (given : isWordByte byte) :
    isBlank byte = false := by
  by_contra blank
  simp only [isBlank, Bool.not_eq_false, Bool.or_eq_true, decide_eq_true_eq] at blank
  obtain ((rfl | rfl) | rfl) | rfl := blank
  all_goals exact absurd given (by decide)

theorem isWordByte_of_isLetter {byte : UInt8} (given : isLetter byte) : isWordByte byte := by
  simp [isWordByte, given]

theorem isWordByte_of_isDigit {byte : UInt8} (given : isDigit byte) : isWordByte byte := by
  simp [isWordByte, given]

/-- A chain of tests gives its first hit, or what the tests behind it give. -/
theorem hit_or_later
    {α : Type}
    {condition : Prop}
    [Decidable condition]
    {first found : α}
    {later : Option α}
    (given : (if condition then some first else later) = some found) :
    (condition ∧ first = found) ∨ later = some found := by
  by_cases holds : condition
  · exact .inl ⟨holds, by simpa [holds] using given⟩
  · exact .inr (by simpa [holds] using given)

/-- The symbol of a single byte is spelled with that byte. -/
theorem spelling_of_symbol?
    {byte : UInt8}
    {sign : Symbol}
    (given : symbol? byte = some sign) :
    encode sign.spelling = [byte] := by
  unfold symbol? at given
  repeat
    obtain ⟨rfl, rfl⟩ | later := hit_or_later given
    · rfl
    replace given := later
    clear later
  contradiction

/-- The symbol that a longer one starts with, and the equals sign behind it. -/
theorem spelling_of_withEqual?
    {byte : UInt8}
    {short long : Symbol}
    (isShort : symbol? byte = some short)
    (given : withEqual? short = some long) :
    encode long.spelling = [byte, byteOf '='] := by
  have spelled := spelling_of_symbol? isShort
  unfold withEqual? at given
  split at given
  case h_5 => contradiction
  all_goals
    obtain rfl := Option.some.inj given
    obtain rfl := List.head_eq_of_cons_eq spelled
    rfl

/-- A symbol is one byte, or one byte and an equals sign. -/
theorem symbol_spelled (sign : Symbol) :
    (∃ byte, encode sign.spelling = [byte] ∧ symbol? byte = some sign) ∨
      ∃ byte short,
        encode sign.spelling = [byte, byteOf '='] ∧
          symbol? byte = some short ∧
          withEqual? short = some sign := by
  cases sign
  all_goals first
    | exact .inl ⟨_, rfl, rfl⟩
    | exact .inr ⟨_, _, rfl, rfl, rfl⟩

/-- A byte that spells a symbol is nothing else. -/
theorem plain_of_symbol?
    {byte : UInt8}
    {sign : Symbol}
    (given : symbol? byte = some sign) :
    isWordByte byte = false ∧ byte ≠ quote ∧ isBlank byte = false := by
  have spelled := spelling_of_symbol? given
  obtain ⟨other, one, isSign⟩ | ⟨other, short, two, _⟩ := symbol_spelled sign
  · obtain rfl : other = byte := by simpa [one] using spelled
    clear spelled
    revert one
    cases sign
    all_goals
      intro one
      obtain rfl := List.head_eq_of_cons_eq one
      decide
  · simp [two] at spelled

end Bytes

section Text

/-! ## Text of ASCII bytes -/

/-- Every ASCII byte is decoded by itself. -/
theorem decode_of_ascii
    {bytes : List UInt8}
    (ascii : ∀ byte ∈ bytes, byte < 0x80) :
    Text.Utf8.decode bytes = bytes.map fun byte => some (Char.ofNat byte.toNat) := by
  induction bytes with
  | nil => rfl
  | cons byte rest inductionHypothesis =>
      have single : Text.Utf8.lead byte = .single (Char.ofNat byte.toNat) := by
        simp [Text.Utf8.lead, ascii byte (by simp)]
      have later := inductionHypothesis fun other member => ascii other (by simp [member])
      unfold Text.Utf8.decode at later ⊢
      simp [Text.Utf8.decodeFrom, single, later]

/-- A character of one byte is encoded as this byte. -/
theorem encode_ascii {byte : UInt8} (ascii : byte < 0x80) :
    String.utf8EncodeChar (Char.ofNat byte.toNat) = [byte] := by
  have each : ∀ number : Fin 128,
      String.utf8EncodeChar (Char.ofNat number.val) = [UInt8.ofNat number.val] := by
    decide
  have small : byte.toNat < 128 := UInt8.lt_iff_toNat_lt.mp ascii
  simpa using each ⟨byte.toNat, small⟩

/-- The text of ASCII bytes has them as its encoding. -/
theorem encode_decodeLossy
    {bytes : List UInt8}
    (ascii : ∀ byte ∈ bytes, byte < 0x80) :
    encode (decodeLossy bytes) = bytes := by
  unfold encode decodeLossy
  rw [decode_of_ascii ascii, String.toList_ofList, List.map_map]
  induction bytes with
  | nil => rfl
  | cons byte rest inductionHypothesis =>
      have later := inductionHypothesis fun other member => ascii other (by simp [member])
      have first := encode_ascii (ascii byte (by simp))
      simp_all

end Text

section Words

/-! ## Words -/

/-- A letter with letters and digits behind it. -/
structure IsWord (first : UInt8) (tail : List UInt8) : Prop where
  starts : isLetter first
  continues : ∀ byte ∈ tail, isWordByte byte

/-- All bytes of a word are characters of their own. -/
theorem IsWord.ascii
    {first : UInt8}
    {tail : List UInt8}
    (word : IsWord first tail) :
    ∀ byte ∈ first :: tail, byte < 0x80 := by
  intro byte member
  rcases List.mem_cons.mp member with rfl | later
  · exact ascii_of_isWordByte (isWordByte_of_isLetter word.starts)
  · exact ascii_of_isWordByte (word.continues byte later)

/-- Every keyword is a word. -/
theorem keyword_isWord (word : Keyword) :
    ∃ first tail, encode word.spelling = first :: tail ∧ IsWord first tail := by
  cases word
  all_goals exact ⟨_, _, rfl, by decide, List.all_eq_true.mp (by decide)⟩

/-- The spelling of a keyword is the word of this keyword. -/
theorem wordKind_keyword (word : Keyword) :
    wordKind (encode word.spelling) = .keyword word := by
  cases word
  all_goals decide

/-- A word has the kind of a keyword exactly if it is spelled like it. -/
theorem IsWord.ofSpelling?_eq_some_iff
    {first : UInt8}
    {tail : List UInt8}
    (word : IsWord first tail)
    (keyword : Keyword) :
    Keyword.ofSpelling? (decodeLossy (first :: tail)) = some keyword ↔
      first :: tail = encode keyword.spelling := by
  constructor
  · intro known
    have spelled : keyword.spelling = decodeLossy (first :: tail) := by
      simpa using List.find?_some known
    rw [spelled, encode_decodeLossy word.ascii]
  · intro same
    rw [same]
    cases keyword
    all_goals decide

/-- A word is a keyword if it has its spelling, and otherwise an identifier. -/
theorem IsWord.lexeme
    {first : UInt8}
    {tail : List UInt8}
    (word : IsWord first tail) :
    Lexeme (first :: tail) (wordKind (first :: tail)) := by
  unfold wordKind
  cases known : Keyword.ofSpelling? (decodeLossy (first :: tail)) with
  | some keyword =>
      rw [(word.ofSpelling?_eq_some_iff keyword).mp known]
      exact .keyword keyword
  | none =>
      refine .identifier word.starts word.continues fun keyword same => ?_
      rw [(word.ofSpelling?_eq_some_iff keyword).mpr same] at known
      contradiction

/-- A word that is no keyword is an identifier. -/
theorem IsWord.kind_of_free
    {first : UInt8}
    {tail : List UInt8}
    (word : IsWord first tail)
    (free : ∀ keyword : Keyword, first :: tail ≠ encode keyword.spelling) :
    wordKind (first :: tail) = .identifier := by
  unfold wordKind
  cases known : Keyword.ofSpelling? (decodeLossy (first :: tail)) with
  | some keyword => exact absurd ((word.ofSpelling?_eq_some_iff keyword).mp known) (free keyword)
  | none => rfl

end Words

section Numbers

/-! ## Numbers -/

/-- What may stand behind the first digit of a number. -/
def IsNumberTail (tail : List UInt8) : Prop :=
  (∀ byte ∈ tail, isDigit byte) ∨
    ∃ digits fraction,
      tail = digits ++ byteOf '.' :: fraction ∧
        (∀ byte ∈ digits, isDigit byte) ∧
        fraction ≠ [] ∧
        ∀ byte ∈ fraction, isDigit byte

/-- A digit with the tail of a number behind it is a number. -/
theorem IsNumberTail.lexeme
    {first : UInt8}
    {tail : List UInt8}
    (digit : isDigit first)
    (number : IsNumberTail tail) :
    Lexeme (first :: tail) (.number (Number.read (decodeLossy (first :: tail)))) := by
  obtain inside | ⟨digits, fraction, rfl, inside, behind, insideFraction⟩ := number
  · exact .whole (by simp) (by simpa [digit] using inside)
  · rw [← List.cons_append]
    exact .decimal (by simp) (by simpa [digit] using inside) behind insideFraction

end Numbers

/-- A word, a number, a string or a symbol, told by its first byte. -/
def Sorted (first : UInt8) (tail : List UInt8) (kind : TokenKind) : Prop :=
  (IsWord first tail ∧ kind = wordKind (first :: tail)) ∨
    (isDigit first ∧
      IsNumberTail tail ∧
      kind = .number (Number.read (decodeLossy (first :: tail)))) ∨
    (first = quote ∧
      ∃ body,
        tail = body ++ [quote] ∧
          (∀ byte ∈ body, byte ≠ quote) ∧
          kind = .string (decodeLossy body)) ∨
    ((symbol? first).isSome ∧
      ∃ sign, first :: tail = encode sign.spelling ∧ kind = .symbol sign)

namespace Lexeme

/-! ## The first byte of a lexeme -/

variable {first : UInt8} {bytes tail : List UInt8} {kind other : TokenKind}

/-- The first byte of a lexeme tells of which sort it is. -/
theorem sorted_of_bytes (given : Lexeme bytes kind) :
    ∃ first tail, bytes = first :: tail ∧ Sorted first tail kind := by
  cases given with
  | symbol sign =>
      obtain ⟨byte, one, isSign⟩ | ⟨byte, short, two, isShort, _⟩ := symbol_spelled sign
      · exact ⟨byte, [], one, .inr (.inr (.inr ⟨by simp [isSign], sign, one.symm, rfl⟩))⟩
      · exact ⟨byte, _, two, .inr (.inr (.inr ⟨by simp [isShort], sign, two.symm, rfl⟩))⟩
  | keyword word =>
      obtain ⟨first, tail, spelled, isWord⟩ := keyword_isWord word
      exact ⟨first, tail, spelled, .inl ⟨isWord, by rw [← spelled, wordKind_keyword]⟩⟩
  | @identifier first tail starts continues free =>
      have word : IsWord first tail := ⟨starts, continues⟩
      exact ⟨first, tail, rfl, .inl ⟨word, (word.kind_of_free free).symm⟩⟩
  | @string body inside =>
      exact ⟨quote, _, rfl, .inr (.inr (.inl ⟨rfl, body, rfl, inside, rfl⟩))⟩
  | @whole digits nonempty inside =>
      obtain ⟨first, tail, rfl⟩ := List.exists_cons_of_ne_nil nonempty
      refine ⟨first, tail, rfl, .inr (.inl ⟨inside first (by simp), .inl ?_, rfl⟩)⟩
      exact fun byte member => inside byte (by simp [member])
  | @decimal digits fraction nonempty inside behind insideFraction =>
      obtain ⟨first, tail, rfl⟩ := List.exists_cons_of_ne_nil nonempty
      refine ⟨first, _, rfl, .inr (.inl ⟨inside first (by simp), .inr ?_, rfl⟩)⟩
      refine ⟨tail, fraction, rfl, ?_, behind, insideFraction⟩
      exact fun byte member => inside byte (by simp [member])

theorem nonempty (given : Lexeme bytes kind) : bytes ≠ [] := by
  obtain ⟨first, tail, rfl, _⟩ := given.sorted_of_bytes
  simp

/-- Every lexeme is of one of the four sorts. -/
theorem sorted (given : Lexeme (first :: tail) kind) : Sorted first tail kind := by
  obtain ⟨first, tail, same, sorted⟩ := given.sorted_of_bytes
  obtain ⟨rfl, rfl⟩ := List.cons.inj same
  exact sorted

/-- A lexeme that starts with a letter is a word. -/
theorem word_of_isLetter
    (given : Lexeme (first :: tail) kind)
    (letter : isLetter first) :
    IsWord first tail ∧ kind = wordKind (first :: tail) := by
  have wordByte := isWordByte_of_isLetter letter
  obtain word | ⟨digit, _⟩ | ⟨rfl, _⟩ | ⟨isSymbol, _⟩ := given.sorted
  · exact word
  · simp [isLetter_of_isDigit digit] at letter
  · exact absurd rfl (ne_quote_of_isWordByte wordByte)
  · obtain ⟨sign, known⟩ := Option.isSome_iff_exists.mp isSymbol
    simp [(plain_of_symbol? known).1] at wordByte

/-- A lexeme that starts with a digit is a number. -/
theorem number_of_isDigit
    (given : Lexeme (first :: tail) kind)
    (digit : isDigit first) :
    IsNumberTail tail ∧ kind = .number (Number.read (decodeLossy (first :: tail))) := by
  have wordByte := isWordByte_of_isDigit digit
  obtain ⟨word, _⟩ | ⟨_, number⟩ | ⟨rfl, _⟩ | ⟨isSymbol, _⟩ := given.sorted
  · have noLetter := isLetter_of_isDigit digit
    simp [word.starts] at noLetter
  · exact number
  · exact absurd rfl (ne_quote_of_isWordByte wordByte)
  · obtain ⟨sign, known⟩ := Option.isSome_iff_exists.mp isSymbol
    simp [(plain_of_symbol? known).1] at wordByte

/-- A lexeme that starts with a quote is a string. -/
theorem string_of_quote (given : Lexeme (quote :: tail) kind) :
    ∃ body,
      tail = body ++ [quote] ∧
        (∀ byte ∈ body, byte ≠ quote) ∧
        kind = .string (decodeLossy body) := by
  have noWordByte : isWordByte quote = false := by decide
  obtain ⟨word, _⟩ | ⟨digit, _⟩ | ⟨_, string⟩ | ⟨isSymbol, _⟩ := given.sorted
  · simp [isWordByte_of_isLetter word.starts] at noWordByte
  · simp [isWordByte_of_isDigit digit] at noWordByte
  · exact string
  · contradiction

/-- A lexeme that starts with any other byte is a symbol. -/
theorem symbol_of_other
    (given : Lexeme (first :: tail) kind)
    (noWordByte : isWordByte first = false)
    (noQuote : first ≠ quote) :
    ∃ sign, first :: tail = encode sign.spelling ∧ kind = .symbol sign := by
  obtain ⟨word, _⟩ | ⟨digit, _⟩ | ⟨rfl, _⟩ | ⟨_, sign⟩ := given.sorted
  · simp [isWordByte_of_isLetter word.starts] at noWordByte
  · simp [isWordByte_of_isDigit digit] at noWordByte
  · contradiction
  · exact sign

/-- No lexeme starts with a blank. -/
theorem isBlank_first (given : Lexeme (first :: tail) kind) : isBlank first = false := by
  obtain ⟨word, _⟩ | ⟨digit, _⟩ | ⟨rfl, _⟩ | ⟨isSymbol, _⟩ := given.sorted
  · exact isBlank_of_isWordByte (isWordByte_of_isLetter word.starts)
  · exact isBlank_of_isWordByte (isWordByte_of_isDigit digit)
  · decide
  · obtain ⟨sign, known⟩ := Option.isSome_iff_exists.mp isSymbol
    exact (plain_of_symbol? known).2.2

/-- Symbols are told apart by their spelling. -/
theorem symbol_unique
    {left right : Symbol}
    (same : encode left.spelling = encode right.spelling) :
    left = right := by
  obtain ⟨byte, one, isLeft⟩ | ⟨byte, short, two, isShort, isLeft⟩ := symbol_spelled left
  all_goals
    obtain ⟨other, one', isRight⟩ | ⟨other, short', two', isShort', isRight⟩ :=
      symbol_spelled right
    all_goals simp_all

/-- The bytes of a lexeme determine the kind of its token. -/
theorem kind_unique
    (given : Lexeme bytes kind)
    (again : Lexeme bytes other) :
    kind = other := by
  obtain ⟨first, tail, rfl⟩ := List.exists_cons_of_ne_nil given.nonempty
  by_cases letter : isLetter first
  · rw [(given.word_of_isLetter letter).2, (again.word_of_isLetter letter).2]
  by_cases digit : isDigit first
  · rw [(given.number_of_isDigit digit).2, (again.number_of_isDigit digit).2]
  by_cases isQuote : first = quote
  · subst isQuote
    obtain ⟨body, closed, _, rfl⟩ := given.string_of_quote
    obtain ⟨body', closed', _, rfl⟩ := again.string_of_quote
    rw [List.append_cancel_right (closed.symm.trans closed')]
  · have noWordByte : isWordByte first = false := by simp [isWordByte, letter, digit]
    obtain ⟨sign, spelled, rfl⟩ := given.symbol_of_other noWordByte isQuote
    obtain ⟨sign', spelled', rfl⟩ := again.symbol_of_other noWordByte isQuote
    rw [symbol_unique (spelled.symm.trans spelled')]

end Lexeme

end Lox.Source
