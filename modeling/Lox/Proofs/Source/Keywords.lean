import Lox.Proofs.Source.MaximalMunch
import Lox.Proofs.Grammar.ProperTrees

namespace Lox.Source

open Text.Utf8 (encode decodeLossy)

/-!
# Scanned identifiers are no keywords

A word that is spelled like a keyword is scanned as that keyword.  So in what is
scanned no identifier is spelled `this` or `super`, which is all that the names of
a program have to satisfy.
-/

/-- A token as it is scanned: the end of the input, or a lexeme with its text. -/
def Genuine (token : Token) : Prop :=
  token.kind = .endOfInput ∨
    ∃ bytes, Lexeme bytes token.kind ∧ token.lexeme = decodeLossy bytes

theorem genuine_of_reported
    {source read : List UInt8}
    {found : List Segment}
    {token : Token}
    (given : Segmented source found)
    (member : .token token ∈ report read found) :
    Genuine token := by
  induction given generalizing read with
  | nil =>
      obtain rfl : token = ⟨.endOfInput, "", lineAfter read⟩ := by simpa [report] using member
      exact .inl rfl
  | cons first _ inductionHypothesis =>
      rw [report_cons] at member
      obtain own | behind := List.mem_append.mp member
      · cases first with
        | @token bytes _ _ lexeme =>
            obtain rfl : token = _ := by simpa [Segment.item?] using own
            exact .inr ⟨bytes, lexeme, rfl⟩
        | _ => simp [Segment.item?] at own
      · exact inductionHypothesis behind

/-- Where nothing is reported as an error, the scanned tokens are all that is reported. -/
theorem reported_of_scan
    {source : List UInt8}
    {scanned : List Token}
    (given : scan source = .ok scanned) :
    ∃ found, Segmented source found ∧ report [] found = scanned.map .token := by
  obtain ⟨found, segmented, -⟩ := Segmented.existsUnique source
  refine ⟨found, segmented, ?_⟩
  rw [← items_eq_report segmented]
  unfold scan at given
  split at given
  · cases given
  next faultless =>
    obtain rfl := Except.ok.inj given
    have noError := List.filterMap_eq_nil_iff.mp (List.head?_eq_none_iff.mp faultless)
    unfold tokens
    generalize items source = listed at noError
    induction listed with
    | nil => rfl
    | cons first rest inductionHypothesis =>
        obtain ⟨isToken, later⟩ := List.forall_mem_cons.mp noError
        cases first with
        | error fault => cases isToken
        | token word => exact congrArg (.token word :: ·) (inductionHypothesis later)

theorem genuine_of_scan
    {source : List UInt8}
    {scanned : List Token}
    (given : scan source = .ok scanned)
    {token : Token}
    (member : token ∈ scanned) :
    Genuine token := by
  obtain ⟨found, segmented, reported⟩ := reported_of_scan given
  exact genuine_of_reported segmented (reported ▸ List.mem_map_of_mem member)

/-- The text of an identifier is not the spelling of a keyword. -/
theorem Lexeme.ne_spelling
    {bytes : List UInt8}
    (lexeme : Lexeme bytes .identifier)
    (word : Keyword) :
    decodeLossy bytes ≠ word.spelling := by
  generalize isIdentifier : TokenKind.identifier = kind at lexeme
  cases lexeme with
  | identifier starts continues free =>
      have isWord : IsWord _ _ := ⟨starts, continues⟩
      intro same
      refine free word ?_
      rw [← same, encode_decodeLossy isWord.ascii]
  | _ => simp at isIdentifier

/-- What was scanned is legible: `this` and `super` are keywords in it. -/
theorem legible_of_scan
    {source : List UInt8}
    {scanned : List Token}
    (given : scan source = .ok scanned) :
    Grammar.LegibleTokens scanned := by
  intro token member isIdentifier
  obtain ends | ⟨bytes, lexeme, text⟩ := genuine_of_scan given member
  · simp [ends] at isIdentifier
  · rw [isIdentifier] at lexeme
    rw [text]
    exact ⟨lexeme.ne_spelling .thisWord, lexeme.ne_spelling .superWord⟩

end Lox.Source
