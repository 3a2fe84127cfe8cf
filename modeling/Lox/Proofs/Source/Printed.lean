import Lox.Proofs.Source.Joined
import Lox.Proofs.Source.Scanned

namespace Lox.Source

open Text.Utf8 (encode decodeLossy)

/-!
# Scanning a source between other words

A word ends at a blank, so a keyword and a blank in front of a source are scanned by
themselves.  With a line end behind it, a source in which every string is closed is
scanned as it is by itself.
-/

/-- A blank separates words. -/
theorem isWordByte_of_isBlank {byte : UInt8} (blank : isBlank byte) : isWordByte byte = false := by
  by_contra word
  have noBlank := isBlank_of_isWordByte (by simpa using word)
  simp [blank] at noBlank

/-- A keyword and a blank in front of a source are segments of their own. -/
theorem Segmented.behind_keyword
    {source : List UInt8}
    {found : List Segment}
    (given : Segmented source found)
    (word : Keyword)
    {blank : UInt8}
    (separates : isBlank blank) :
    Segmented (encode word.spelling ++ blank :: source)
      (⟨.token (.keyword word), encode word.spelling⟩ :: ⟨.blank, [blank]⟩ :: found) := by
  obtain ⟨first, tail, spelled, isWord⟩ := keyword_isWord word
  have spanned : (tail ++ blank :: source).span isWordByte = (tail, blank :: source) :=
    span_append isWord.continues (by simpa using isWordByte_of_isBlank separates)
  have kind : wordKind (first :: tail) = .keyword word := spelled ▸ wordKind_keyword word
  have cut : Cut (first :: (tail ++ blank :: source)) _ _ := wordSegment_cut isWord.starts
  simp only [wordSegment, spanned, kind] at cut
  rw [spelled]
  exact .cons cut (.cons (.blank separates) given)

/-- If only tokens are reported, the scan gives them. -/
theorem scan_of_reported
    {source : List UInt8}
    {found : List Segment}
    {scanned : List Token}
    (given : Segmented source found)
    (reported : report [] found = scanned.map .token) :
    scan source = .ok scanned := by
  have listed := (items_eq_report given).trans reported
  have none : errors source = [] := by
    rw [errors, listed, List.filterMap_map]
    exact List.filterMap_eq_nil_iff.mpr fun _ _ => rfl
  have all : tokens source = scanned := by
    rw [tokens, listed, List.filterMap_map]
    exact List.filterMap_some
  simp [scan, none, all]

theorem errors_of_scan
    {source : List UInt8}
    {scanned : List Token}
    (given : scan source = .ok scanned) :
    errors source = [] := by
  unfold scan at given
  split at given
  · cases given
  next none => exact List.head?_eq_none_iff.mp none

/-- The source of the program that prints the value of an expression. -/
def printing (expression : List UInt8) : List UInt8 :=
  encode "print " ++ expression ++ newline :: encode ";"

/-- The segments of the keyword in front. -/
def opening : List Segment :=
  [⟨.token (.keyword .printWord), encode "print"⟩, ⟨.blank, [byteOf ' ']⟩]

/-- The segments of the line end and the semicolon behind. -/
def closing : List Segment :=
  [⟨.blank, [newline]⟩, ⟨.token (.symbol .semicolon), encode ";"⟩]

theorem Segmented.printing
    {source : List UInt8}
    {found : List Segment}
    (given : Segmented source found)
    (closed : ∀ segment ∈ found, segment.kind ≠ .unterminated) :
    Segmented (printing source) (opening ++ found ++ closing) := by
  have front : Segmented (encode "print " ++ source) (opening ++ found) :=
    given.behind_keyword .printWord (by decide)
  have semicolon : Segmented (encode ";") [⟨.token (.symbol .semicolon), encode ";"⟩] :=
    .cons (firstSegment_cut (byteOf ';') []) .nil
  refine front.joined (fun segment member => ?_) semicolon
  obtain own | inside := List.mem_append.mp member
  · unfold opening at own
    rcases List.mem_pair.mp own with rfl | rfl
    · simp
    · simp
  · exact closed segment inside

/-- What is reported of a source is reported in the same way between the other words. -/
theorem report_printing
    {source : List UInt8}
    {found : List Segment}
    (given : Segmented source found) :
    ∃ before,
      report [] found = before ++ [.token ⟨.endOfInput, "", lineAfter source⟩] ∧
        report [] (opening ++ found ++ closing) =
          .token ⟨.keyword .printWord, "print", 1⟩ ::
            (before ++
              [.token ⟨.symbol .semicolon, ";", lineAfter (Source.printing source)⟩,
                .token ⟨.endOfInput, "", lineAfter (Source.printing source)⟩]) := by
  obtain ⟨before, ended, joined⟩ := report_append [] found closing
  rw [given.flatten, List.nil_append] at ended joined
  -- There is no line end in front of the source, so that its lines stay as they are.
  have noLine : lineEnds (encode "print ") = 0 := by decide
  have behind : report (encode "print ") (found ++ closing) = before ++ report source closing := by
    have lowered := report_behind (encode "print ") [] (found ++ closing)
    have same : Item.lowered 0 = id := by
      funext item
      cases item <;> simp [Item.lowered]
    rw [noLine, same, List.map_id, joined] at lowered
    exact lowered
  have lines :
      lineAfter (source ++ [newline] ++ encode ";") = lineAfter (Source.printing source) := by
    rw [Source.printing, List.append_assoc, List.append_assoc (encode "print "),
      lineAfter_behind (encode "print "), noLine]
    simp
  have ending : report source closing =
      [.token ⟨.symbol .semicolon, ";", lineAfter (Source.printing source)⟩,
        .token ⟨.endOfInput, "", lineAfter (Source.printing source)⟩] := by
    rw [← lines]
    rfl
  refine ⟨before, ended, ?_⟩
  rw [← ending, ← behind]
  rfl

/-- The tokens of an expression, as they stand in the program that prints its value. -/
theorem scan_printing
    {source : List UInt8}
    {scanned : List Token}
    (given : scan source = .ok scanned) :
    ∃ inside,
      scanned = inside ++ [⟨.endOfInput, "", lineAfter source⟩] ∧
        (∀ token ∈ inside, token.kind ≠ .endOfInput) ∧
        scan (printing source) =
          .ok (⟨.keyword .printWord, "print", 1⟩ ::
              (inside ++ [⟨.symbol .semicolon, ";", lineAfter (printing source)⟩]) ++
            [⟨.endOfInput, "", lineAfter (printing source)⟩]) := by
  obtain ⟨found, segmented, reported⟩ := reported_of_scan given
  obtain ⟨inside, rfl, plain⟩ := scan_ends given
  have closed := closed_of_errors segmented (by simp [errors_of_scan given])
  obtain ⟨before, ended, printed⟩ := report_printing segmented
  have same : inside.map .token = before := by
    rw [reported, List.map_append] at ended
    exact List.append_cancel_right ended
  refine ⟨inside, rfl, plain, scan_of_reported (segmented.printing closed) ?_⟩
  rw [printed, ← same]
  simp

end Lox.Source
