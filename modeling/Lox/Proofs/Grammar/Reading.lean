import Lox.Grammar.Parser
import Lox.Proofs.Computation
import Lox.Proofs.Grammar.Derivation
import Lox.Proofs.Syntax.Identities
import Mathlib.Data.List.TakeWhile

namespace Lox.Grammar

/-!
# The steps of reading

Every step of a parser is described in two directions: what it has read when it
gives a value, and on which tokens it gives one.  The second direction is put as
`Takes`, which composes along the sequence of a parser's steps.
-/

/-- No token is left, or the next one is of another kind. -/
def Lacks (kind : TokenKind) (tokens : List Token) : Prop :=
  ∀ token ∈ tokens.head?, token.kind ≠ kind

/-- Tokens that begin with another kind lack a kind in front. -/
theorem lacks_cons
    {kind : TokenKind}
    {token : Token}
    (different : token.kind ≠ kind)
    (rest : List Token) :
    Lacks kind (token :: rest) := by
  intro found member
  simp only [List.head?_cons, Option.mem_def, Option.some.injEq] at member
  exact member ▸ different

theorem lacks_nil (kind : TokenKind) : Lacks kind [] := by
  intro found member
  simp at member

/-- A reader starts with all tokens if none of them marks the end. -/
theorem Reader.start_rest
    {tokens : List Token}
    (plain : ∀ token ∈ tokens, token.kind ≠ .endOfInput)
    (nextId : NodeId) :
    (Reader.start tokens nextId).rest = tokens := by
  unfold Reader.start
  refine List.takeWhile_eq_self_iff.mpr ?_
  intro token member
  simpa [Reader.isEnd] using plain token member

/-! ## What a step has read -/

section

variable {α : Type} {reader final : Reader}

/-- A token that was taken stood in front and could be read. -/
theorem next?_eq_some
    {read : Token → Option α}
    {value : α}
    (taken : next? read reader = .ok (some value) final) :
    ∃ token rest,
      reader.rest = token :: rest ∧
        read token = some value ∧
        final = { reader with rest := rest } := by
  unfold next? at taken
  split at taken
  · simp at taken
  next token rest shape =>
    split at taken
    next found readable =>
      simp only [EStateM.Result.ok.injEq, Option.some.injEq] at taken
      exact ⟨token, rest, shape, by rw [readable, taken.1], taken.2.symm⟩
    · simp at taken

/-- A step that took no token found none that it could read. -/
theorem next?_eq_none
    {read : Token → Option α}
    (declined : next? read reader = .ok none final) :
    final = reader ∧ ∀ token ∈ reader.rest.head?, read token = none := by
  unfold next? at declined
  split at declined
  next shape =>
    simp only [EStateM.Result.ok.injEq, true_and] at declined
    exact ⟨declined.symm, by simp [shape]⟩
  next token rest shape =>
    split at declined
    · simp at declined
    next unreadable =>
      simp only [EStateM.Result.ok.injEq, true_and] at declined
      exact ⟨declined.symm, by simpa [shape] using unreadable⟩

/-- A required token stood in front and could be read. -/
theorem require_eq_ok
    {read : Token → Option α}
    {fault : SyntaxFault}
    {value : α}
    (taken : require read fault reader = .ok value final) :
    ∃ token rest,
      reader.rest = token :: rest ∧
        read token = some value ∧
        final = { reader with rest := rest } := by
  unfold require at taken
  obtain ⟨found, middle, step, given⟩ := bind_eq_ok_iff.mp taken
  cases found with
  | none => simp [reject] at given
  | some found =>
      obtain ⟨rfl, rfl⟩ : found = value ∧ middle = final := by
        simpa [pure_apply] using given
      exact next?_eq_some step

/-- A token is read as its line if it is of the kind that is asked for. -/
theorem lineOf?_eq_some
    {kind : TokenKind}
    {token : Token}
    {line : Nat} :
    lineOf? kind token = some line ↔ token.kind = kind ∧ token.line = line := by
  unfold lineOf?
  split <;> simp [*]

/-- A token is declined if it is of another kind than the one that is asked for. -/
theorem lineOf?_eq_none {kind : TokenKind} {token : Token} :
    lineOf? kind token = none ↔ token.kind ≠ kind := by
  unfold lineOf?
  split <;> simp [*]

/-- A name is read off an identifier only. -/
theorem identifier?_eq_some {token : Token} {name : Identifier} :
    identifier? token = some name ↔ Names token name := by
  unfold identifier?
  split
  next kind =>
    constructor
    · intro same
      obtain rfl : (⟨token.lexeme, token.line⟩ : Identifier) = name := by
        simpa using same
      exact ⟨kind, rfl, rfl⟩
    · rintro ⟨_, text, line⟩
      rw [← text, ← line]
  next kind =>
    simp only [reduceCtorEq, false_iff]
    exact fun named => kind named.kind

/-- A symbol that was accepted stood in front. -/
theorem acceptSymbol_eq_true
    {symbol : Symbol}
    (taken : acceptSymbol symbol reader = .ok true final) :
    ∃ token rest,
      reader.rest = token :: rest ∧
        token.kind = .symbol symbol ∧
        final = { reader with rest := rest } := by
  unfold acceptSymbol at taken
  obtain ⟨found, middle, step, given⟩ := bind_eq_ok_iff.mp taken
  simp only [pure_apply, EStateM.Result.ok.injEq] at given
  obtain ⟨present, rfl⟩ := given
  obtain ⟨line, rfl⟩ := Option.isSome_iff_exists.mp present
  obtain ⟨token, rest, shape, readable, same⟩ := next?_eq_some step
  exact ⟨token, rest, shape, (lineOf?_eq_some.mp readable).1, same⟩

/-- A symbol that was not accepted did not stand in front, and nothing was read. -/
theorem acceptSymbol_eq_false
    {symbol : Symbol}
    (declined : acceptSymbol symbol reader = .ok false final) :
    final = reader ∧ Lacks (.symbol symbol) reader.rest := by
  unfold acceptSymbol at declined
  obtain ⟨found, middle, step, given⟩ := bind_eq_ok_iff.mp declined
  simp only [pure_apply, EStateM.Result.ok.injEq] at given
  obtain ⟨absent, rfl⟩ := given
  cases found with
  | some line => simp at absent
  | none =>
      obtain ⟨same, unreadable⟩ := next?_eq_none step
      exact ⟨same, fun token member => lineOf?_eq_none.mp (unreadable token member)⟩

/-- A symbol that was expected stood in front. -/
theorem expectSymbol_eq_ok
    {symbol : Symbol}
    {fault : SyntaxFault}
    {line : Nat}
    (taken : expectSymbol symbol fault reader = .ok line final) :
    ∃ token rest,
      reader.rest = token :: rest ∧
        token.kind = .symbol symbol ∧
        line = token.line ∧
        final = { reader with rest := rest } := by
  obtain ⟨token, rest, shape, readable, same⟩ := require_eq_ok taken
  obtain ⟨kind, found⟩ := lineOf?_eq_some.mp readable
  exact ⟨token, rest, shape, kind, found.symm, same⟩

/-- A symbol whose line is not kept stood in front. -/
theorem discard_expectSymbol_eq_ok
    {symbol : Symbol}
    {fault : SyntaxFault}
    {nothing : PUnit}
    (taken : discard (expectSymbol symbol fault) reader = .ok nothing final) :
    ∃ token rest,
      reader.rest = token :: rest ∧
        token.kind = .symbol symbol ∧
        final = { reader with rest := rest } := by
  obtain ⟨line, given, -⟩ := map_eq_ok_iff.mp taken
  obtain ⟨token, rest, shape, kind, -, same⟩ := expectSymbol_eq_ok given
  exact ⟨token, rest, shape, kind, same⟩

/-- A name that was expected stood in front. -/
theorem expectName_eq_ok
    {fault : SyntaxFault}
    {name : Identifier}
    (taken : expectName fault reader = .ok name final) :
    ∃ token rest,
      reader.rest = token :: rest ∧
        Names token name ∧
        final = { reader with rest := rest } := by
  obtain ⟨token, rest, shape, readable, same⟩ := require_eq_ok taken
  exact ⟨token, rest, shape, identifier?_eq_some.mp readable, same⟩

/-- Looking at the next token reads nothing. -/
theorem upcoming_eq_ok
    {symbol : Symbol}
    {found : Bool}
    (looked : upcoming symbol reader = .ok found final) :
    final = reader ∧ (found = false ↔ Lacks (.symbol symbol) reader.rest) := by
  simp only [upcoming, EStateM.Result.ok.injEq] at looked
  obtain ⟨rfl, rfl⟩ := looked
  refine ⟨rfl, ?_⟩
  cases reader.rest with
  | nil => simp [Lacks]
  | cons token rest => simp [Lacks]

end

/-! ## Trees that were read -/

/--
A tree was read between two states of a reader: the tokens between them derive
it, and its identities were handed out between them.
-/
structure ParsesAs
    (derives : List Token → α → List Token → Prop)
    (ids : α → List NodeId)
    (reader : Reader)
    (value : α)
    (final : Reader) :
    Prop where
  derived : derives reader.rest value final.rest
  fresh : FreshIds (ids value) reader.nextId final.nextId

/-- Whatever a parser gives, it has read. -/
def ReadsAs
    (parser : Parser α)
    (derives : List Token → α → List Token → Prop)
    (ids : α → List NodeId) :
    Prop :=
  ∀ ⦃reader value final⦄,
    parser reader = .ok value final → ParsesAs derives ids reader value final

section

variable {α : Type} {element : Parser α}
  {derives : List Token → α → List Token → Prop} {ids : α → List NodeId}
  (all : List Token → List α → List Token → Prop)

/-- Elements with commas between them, no more than there is room for. -/
theorem separated_reads
    (reads : ReadsAs element derives ids)
    (last : ∀ {before value after},
      derives before value after → all before [value] after)
    (more : ∀ {before value comma rest values after},
      derives before value (comma :: rest) →
        comma.kind = .symbol .comma →
        all rest values after → all before (value :: values) after)
    {overflow : SyntaxFault}
    {room : Nat}
    {reader final : Reader}
    {values : List α}
    (given : separated element overflow room reader = .ok values final) :
    ParsesAs all (·.flatMap ids) reader values final ∧ values.length ≤ room := by
  induction room generalizing reader values with
  | zero => simp [separated, reject] at given
  | succ room inductionHypothesis =>
      unfold separated at given
      obtain ⟨first, _, firstTaken, afterFirst⟩ := bind_eq_ok_iff.mp given
      obtain ⟨derived, fresh⟩ := reads firstTaken
      obtain ⟨continues, _, commaStep, afterComma⟩ := bind_eq_ok_iff.mp afterFirst
      cases continues with
      | true =>
          obtain ⟨comma, _, commaShape, commaKind, rfl⟩ :=
            acceptSymbol_eq_true commaStep
          obtain ⟨others, _, othersTaken, result⟩ := bind_eq_ok_iff.mp afterComma
          simp only [pure_apply, EStateM.Result.ok.injEq] at result
          obtain ⟨rfl, rfl⟩ := result
          obtain ⟨⟨restDerived, restFresh⟩, within⟩ :=
            inductionHypothesis othersTaken
          rw [commaShape] at derived
          refine ⟨⟨more derived commaKind restDerived, ?_⟩, by simpa using within⟩
          simpa using fresh.append restFresh
      | false =>
          obtain ⟨rfl, -⟩ := acceptSymbol_eq_false commaStep
          simp only [Bool.false_eq_true, ↓reduceIte, pure_apply,
            EStateM.Result.ok.injEq] at afterComma
          obtain ⟨rfl, rfl⟩ := afterComma
          exact ⟨⟨last derived, by simpa using fresh⟩, by simp⟩

/-- Elements with commas between them, or nothing at all. -/
theorem listed_reads
    (reads : ReadsAs element derives ids)
    (last : ∀ {before value after},
      derives before value after → all before [value] after)
    (more : ∀ {before value comma rest values after},
      derives before value (comma :: rest) →
        comma.kind = .symbol .comma →
        all rest values after → all before (value :: values) after)
    {overflow : SyntaxFault}
    {reader final : Reader}
    {values : List α}
    (given : listed element overflow reader = .ok values final) :
    values = [] ∧ final = reader ∨
      ParsesAs all (·.flatMap ids) reader values final ∧
        values.length ≤ mostArguments := by
  unfold listed at given
  obtain ⟨isEmpty, _, lookStep, afterLook⟩ := bind_eq_ok_iff.mp given
  obtain ⟨rfl, -⟩ := upcoming_eq_ok lookStep
  cases isEmpty with
  | true =>
      simp only [↓reduceIte, pure_apply, EStateM.Result.ok.injEq] at afterLook
      exact .inl ⟨afterLook.1.symm, afterLook.2.symm⟩
  | false => exact .inr (separated_reads all reads last more afterLook)

/-- Elements up to a brace. -/
theorem untilBrace_reads
    (reads : ReadsAs element derives ids)
    (none : ∀ {after}, all after [] after)
    (more : ∀ {before value rest values after},
      derives before value rest →
        all rest values after → all before (value :: values) after)
    (fuel : Nat) :
    ReadsAs (untilBrace element fuel) all (·.flatMap ids) := by
  induction fuel with
  | zero =>
      intro reader values final given
      simp only [untilBrace, pure_apply, EStateM.Result.ok.injEq] at given
      obtain ⟨rfl, rfl⟩ := given
      exact ⟨none, .none (Nat.le_refl _)⟩
  | succ fuel inductionHypothesis =>
      intro reader values final given
      unfold untilBrace at given
      obtain ⟨braceNext, _, lookStep, afterLook⟩ := bind_eq_ok_iff.mp given
      obtain ⟨rfl, -⟩ := upcoming_eq_ok lookStep
      obtain ⟨ended, _, endStep, afterEnd⟩ := bind_eq_ok_iff.mp afterLook
      simp only [atEnd, EStateM.Result.ok.injEq] at endStep
      obtain ⟨-, rfl⟩ := endStep
      split at afterEnd
      · simp only [pure_apply, EStateM.Result.ok.injEq] at afterEnd
        obtain ⟨rfl, rfl⟩ := afterEnd
        exact ⟨none, .none (Nat.le_refl _)⟩
      · obtain ⟨first, _, firstTaken, afterFirst⟩ := bind_eq_ok_iff.mp afterEnd
        obtain ⟨others, _, othersTaken, result⟩ := bind_eq_ok_iff.mp afterFirst
        simp only [pure_apply, EStateM.Result.ok.injEq] at result
        obtain ⟨rfl, rfl⟩ := result
        obtain ⟨derived, fresh⟩ := reads firstTaken
        obtain ⟨restDerived, restFresh⟩ := inductionHypothesis othersTaken
        exact ⟨more derived restDerived, by simpa using fresh.append restFresh⟩

end

/-! ## Steps that are certain from the next token -/

section

variable {reader : Reader}

/-- Nothing is taken in front of a token that cannot be read. -/
theorem next?_declines
    {read : Token → Option α}
    (unreadable : ∀ token ∈ reader.rest.head?, read token = none) :
    next? read reader = .ok none reader := by
  unfold next?
  split
  · rfl
  next token rest shape =>
    rw [unreadable token (by simp [shape])]

/-- A token that can be read is taken. -/
theorem next?_takes
    {read : Token → Option α}
    {token : Token}
    {rest : List Token}
    {value : α}
    (shape : reader.rest = token :: rest)
    (readable : read token = some value) :
    next? read reader = .ok (some value) { reader with rest := rest } := by
  simp [next?, shape, readable]

/-- A symbol is not accepted where there is another token. -/
theorem acceptSymbol_declines
    {symbol : Symbol}
    (lacking : Lacks (.symbol symbol) reader.rest) :
    acceptSymbol symbol reader = .ok false reader := by
  unfold acceptSymbol
  rw [bind_of_ok (next?_declines fun token member =>
    lineOf?_eq_none.mpr (lacking token member))]
  rfl

/-- A symbol that does not stand in front is reported to be expected. -/
theorem expectSymbol_declines
    {symbol : Symbol}
    (lacking : Lacks (.symbol symbol) reader.rest)
    (fault : SyntaxFault) :
    expectSymbol symbol fault reader = .error (reader.report fault) reader := by
  unfold expectSymbol require
  rw [bind_of_ok (next?_declines fun token member =>
    lineOf?_eq_none.mpr (lacking token member))]
  rfl

end

/-! ## On which tokens a step gives a value -/

/--
From every reader at some tokens, a parser gives a value with a property and
leaves given other tokens.
-/
def Takes
    (parser : Parser α)
    (before : List Token)
    (good : α → Prop)
    (after : List Token) :
    Prop :=
  ∀ reader, reader.rest = before →
    ∃ value final,
      parser reader = .ok value final ∧ final.rest = after ∧ good value

namespace Takes

section

variable {α β : Type} {before middle after : List Token}

/-- A sequence takes what its parts take one after the other. -/
theorem bind
    {first : Parser α}
    {next : α → Parser β}
    {good : α → Prop}
    {better : β → Prop}
    (taken : Takes first before good middle)
    (continued : ∀ value, good value → Takes (next value) middle better after) :
    Takes (first >>= next) before better after := by
  intro reader shape
  obtain ⟨value, between, given, left, fine⟩ := taken reader shape
  obtain ⟨result, final, finished, rest, finer⟩ :=
    continued value fine between left
  exact ⟨result, final, by rw [bind_of_ok given, finished], rest, finer⟩

theorem pure {value : α} {good : α → Prop} (fine : good value) :
    Takes (pure value) before good before :=
  fun reader shape => ⟨value, reader, rfl, shape, fine⟩

/-- A converted value has the property that the conversion establishes. -/
theorem map
    {parser : Parser α}
    {convert : α → β}
    {good : α → Prop}
    {better : β → Prop}
    (taken : Takes parser before good after)
    (converts : ∀ value, good value → better (convert value)) :
    Takes (convert <$> parser) before better after := by
  intro reader shape
  obtain ⟨value, final, given, left, fine⟩ := taken reader shape
  exact ⟨convert value, final, map_eq_ok_iff.mpr ⟨value, given, rfl⟩, left,
    converts value fine⟩

/-- Nothing is asked of a value that is dropped. -/
theorem dropped
    {parser : Parser α}
    {good : α → Prop}
    (taken : Takes parser before good after) :
    Takes (discard parser) before (fun _ => True) after :=
  taken.map fun _ _ => trivial

/-- What is better is good. -/
theorem weaken
    {parser : Parser α}
    {good better : α → Prop}
    (taken : Takes parser before good after)
    (implies : ∀ value, good value → better value) :
    Takes parser before better after := by
  intro reader shape
  obtain ⟨value, final, given, left, fine⟩ := taken reader shape
  exact ⟨value, final, given, left, implies value fine⟩

/-- The token in front is taken if it can be read. -/
theorem next?_some
    {read : Token → Option α}
    {token : Token}
    {value : α}
    (readable : read token = some value) :
    Takes (next? read) (token :: after) (· = some value) after := by
  intro reader shape
  exact ⟨some value, { reader with rest := after },
    by simp [next?, shape, readable], rfl, rfl⟩

/-- No token is taken if the one in front cannot be read. -/
theorem next?_none
    {read : Token → Option α}
    (unreadable : ∀ token ∈ before.head?, read token = none) :
    Takes (next? read) before (· = none) before :=
  fun reader shape =>
    ⟨none, reader, next?_declines (shape ▸ unreadable), shape, rfl⟩

/-- A readable token in front meets a requirement. -/
theorem require
    {read : Token → Option α}
    {fault : SyntaxFault}
    {token : Token}
    {value : α}
    (readable : read token = some value) :
    Takes (require read fault) (token :: after) (· = value) after := by
  refine bind (next?_some readable) ?_
  rintro _ rfl
  exact pure rfl

/-- The symbol in front is accepted. -/
theorem acceptSymbol_true
    {symbol : Symbol}
    {token : Token}
    (kind : token.kind = .symbol symbol) :
    Takes (acceptSymbol symbol) (token :: after) (· = true) after := by
  refine bind (next?_some (lineOf?_eq_some.mpr ⟨kind, rfl⟩)) ?_
  rintro _ rfl
  exact pure rfl

/-- No symbol is accepted if it is not the one in front. -/
theorem acceptSymbol_false
    {symbol : Symbol}
    (lacking : Lacks (.symbol symbol) before) :
    Takes (acceptSymbol symbol) before (· = false) before :=
  fun reader shape =>
    ⟨false, reader, acceptSymbol_declines (shape ▸ lacking), shape, rfl⟩

/-- The expected symbol is taken, with its line. -/
theorem expectSymbol
    {symbol : Symbol}
    {fault : SyntaxFault}
    {token : Token}
    (kind : token.kind = .symbol symbol) :
    Takes (expectSymbol symbol fault) (token :: after) (· = token.line) after :=
  require (lineOf?_eq_some.mpr ⟨kind, rfl⟩)

/-- The expected name is taken. -/
theorem expectName
    {fault : SyntaxFault}
    {token : Token}
    {name : Identifier}
    (named : Names token name) :
    Takes (expectName fault) (token :: after) (· = name) after :=
  require (identifier?_eq_some.mpr named)

/-- The symbol in front is upcoming, and stays there. -/
theorem upcoming_true
    {symbol : Symbol}
    {token : Token}
    (kind : token.kind = .symbol symbol) :
    Takes (upcoming symbol) (token :: after) (· = true) (token :: after) :=
  fun reader shape =>
    ⟨true, reader, by simp [upcoming, shape, kind], shape, rfl⟩

/-- A symbol is not upcoming if it is not the one in front. -/
theorem upcoming_false
    {symbol : Symbol}
    (lacking : Lacks (.symbol symbol) before) :
    Takes (upcoming symbol) before (· = false) before := by
  intro reader shape
  refine ⟨false, reader, ?_, shape, rfl⟩
  cases before with
  | nil => simp [upcoming, shape]
  | cons token rest => simp [upcoming, shape, lacking token (by simp)]

/-- A list is empty in front of a closing parenthesis. -/
theorem listed_none
    {element : Parser α}
    {overflow : SyntaxFault}
    {closing : Token}
    (kind : closing.kind = .symbol .rightParen) :
    Takes (listed element overflow) (closing :: after) (· = []) (closing :: after) := by
  refine bind (upcoming_true kind) ?_
  rintro _ rfl
  exact pure rfl

/-- Anywhere else, one or more elements are listed. -/
theorem listed_some
    {element : Parser α}
    {overflow : SyntaxFault}
    {good : List α → Prop}
    (lacking : Lacks (.symbol .rightParen) before)
    (taken : Takes (separated element overflow argumentLimit) before good after) :
    Takes (listed element overflow) before good after := by
  refine bind (upcoming_false lacking) ?_
  rintro _ rfl
  exact taken

theorem atEnd : Takes atEnd before (· = before.isEmpty) before :=
  fun reader shape => ⟨before.isEmpty, reader, by rw [← shape]; rfl, shape, rfl⟩

theorem get : Takes get before (fun _ => True) before :=
  fun reader shape => ⟨reader, reader, rfl, shape, trivial⟩

theorem freshId : Takes freshId before (fun _ => True) before :=
  fun reader shape =>
    ⟨reader.nextId, { reader with nextId := reader.nextId + 1 }, rfl, shape,
      trivial⟩

end

end Takes

end Lox.Grammar
