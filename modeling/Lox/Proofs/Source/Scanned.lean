import Lox.Proofs.Source.Keywords
import Lox.Proofs.Grammar.Positions

namespace Lox.Source

open Text.Utf8 (encode decodeLossy)

/-!
# What is scanned stands in the source

The tokens of a source end with its only end marker.  Each of them is on a line of the
source: the lines are counted from one, and each line end in the source starts a new one.
A symbol or a keyword is spelled in one way, so its kind says what its text is.
-/

variable {source : List UInt8} {scanned : List Token}

/-- The tokens of a source end with its end marker, and there is no other one. -/
theorem scan_ends (given : scan source = .ok scanned) :
    ∃ before,
      scanned = before ++ [⟨.endOfInput, "", lineAfter source⟩] ∧
        ∀ token ∈ before, token.kind ≠ .endOfInput := by
  obtain ⟨found, segmented, reported⟩ := reported_of_scan given
  obtain ⟨items, ended, noEnd⟩ := report_ends segmented []
  rw [reported] at ended
  obtain ⟨before, last, rfl, isBefore, isLast⟩ := List.map_eq_append_iff.mp ended
  obtain ⟨marker, rfl, isMarker⟩ := List.map_eq_singleton_iff.mp isLast
  obtain rfl := Item.token.inj isMarker
  refine ⟨before, rfl, fun token member => ?_⟩
  exact noEnd token (isBefore ▸ List.mem_map_of_mem member)

/-- A parser puts no end marker of its own behind what was scanned. -/
theorem terminated_of_scan (given : scan source = .ok scanned) :
    Grammar.terminated scanned = scanned := by
  obtain ⟨before, rfl, -⟩ := scan_ends given
  simp [Grammar.terminated, Grammar.Reader.isEnd]

/-! ## Lines -/

theorem lineAfter_mono (read bytes : List UInt8) : lineAfter read ≤ lineAfter (read ++ bytes) := by
  rw [lineAfter_append]
  exact Nat.le_add_right _ _

/-- What is reported is on a line that ends behind what has been read, and in the source. -/
theorem line_of_reported
    {read : List UInt8}
    {found : List Segment}
    {token : Token}
    (segmented : Segmented source found)
    (member : .token token ∈ report read found) :
    lineAfter read ≤ token.line ∧ token.line ≤ lineAfter (read ++ source) := by
  induction segmented generalizing read with
  | nil =>
      obtain rfl : token = ⟨.endOfInput, "", lineAfter read⟩ := by simpa [report] using member
      simp
  | @cons source rest segment later first _ inductionHypothesis =>
      have whole : read ++ source = read ++ segment.bytes ++ rest := by
        rw [List.append_assoc, first.source_eq]
      have before := lineAfter_mono read segment.bytes
      have behind := lineAfter_mono (read ++ segment.bytes) rest
      rw [report_cons] at member
      rw [whole]
      obtain own | later := List.mem_append.mp member
      · have line : token.line = lineAfter (read ++ segment.bytes) := by
          cases first with
          | token _ =>
              obtain rfl : token = _ := by simpa [Segment.item?] using own
              rfl
          | _ => simp [Segment.item?] at own
        omega
      · obtain ⟨above, below⟩ := inductionHypothesis later
        exact ⟨before.trans above, below⟩

/-- A line of a source: the lines are counted from one, with one more for each line end. -/
def IsLine (source : List UInt8) (line : Nat) : Prop :=
  1 ≤ line ∧ line ≤ 1 + source.count newline

/-- Every token is on a line of the source. -/
theorem isLine_of_scan
    (given : scan source = .ok scanned)
    {token : Token}
    (member : token ∈ scanned) :
    IsLine source token.line := by
  obtain ⟨found, segmented, reported⟩ := reported_of_scan given
  exact line_of_reported segmented (reported ▸ List.mem_map_of_mem member)

/-! ## Texts -/

/-- The text of a token of a kind that is spelled in one way. -/
def spelling? : TokenKind → Option String
  | .symbol sign => some sign.spelling
  | .keyword word => some word.spelling
  | _ => none

theorem decodeLossy_symbol (sign : Symbol) :
    decodeLossy (encode sign.spelling) = sign.spelling := by
  cases sign <;> rfl

theorem decodeLossy_keyword (word : Keyword) :
    decodeLossy (encode word.spelling) = word.spelling := by
  cases word <;> rfl

/-- The text of a scanned symbol or keyword is its spelling. -/
theorem Genuine.lexeme_eq
    {token : Token}
    {text : String}
    (genuine : Genuine token)
    (known : spelling? token.kind = some text) :
    token.lexeme = text := by
  obtain ends | ⟨bytes, lexeme, same⟩ := genuine
  · rw [ends] at known
    cases known
  rw [same]
  generalize token.kind = kind at lexeme known
  cases lexeme with
  | symbol sign => rw [decodeLossy_symbol]; exact Option.some.inj known
  | keyword word => rw [decodeLossy_keyword]; exact Option.some.inj known
  | _ => cases known

/-- The symbols and keywords among some tokens have their spelling as text. -/
def Spelled (tokens : List Token) : Prop :=
  ∀ token ∈ tokens, ∀ text, spelling? token.kind = some text → token.lexeme = text

theorem spelled_of_scan (given : scan source = .ok scanned) : Spelled scanned :=
  fun _ member _ known => (genuine_of_scan given member).lexeme_eq known

end Lox.Source
