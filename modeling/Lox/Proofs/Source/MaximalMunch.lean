import Lox.Proofs.Source.Cuts
import Lox.Source.Scan

namespace Lox.Source

open Text.Utf8 (decodeLossy)

/-!
# Scanning is maximal munch

A source has exactly one division into segments of its lexical grammar.  The
scanner gives the tokens and errors of these segments in their order, each with
the line on which its segment ends, then the end of the input, and nothing more.
-/

section Segments

/-- A source divided into segments from left to right, without gap or overlap. -/
inductive Segmented : List UInt8 → List Segment → Prop where
  | nil : Segmented [] []
  | cons
      {source rest : List UInt8}
      {segment : Segment}
      {later : List Segment}
      (first : Cut source segment rest)
      (behind : Segmented rest later) :
      Segmented source (segment :: later)

namespace Segmented

variable {source : List UInt8} {found other : List Segment}

theorem flatten (given : Segmented source found) :
    (found.map (·.bytes)).flatten = source := by
  induction given with
  | nil => rfl
  | cons first _ inductionHypothesis =>
      rw [List.map_cons, List.flatten_cons, inductionHypothesis, first.source_eq]

/-- There are at most as many segments as bytes. -/
theorem length_le (given : Segmented source found) : found.length ≤ source.length := by
  induction given with
  | nil => exact Nat.le_refl 0
  | @cons source rest segment later first _ inductionHypothesis =>
      have nonempty := List.length_pos_of_ne_nil first.bytes_ne_nil
      rw [← first.source_eq, List.length_append, List.length_cons]
      omega

/-- The first segment of a nonempty source is the computed one. -/
theorem cons_inv
    {byte : UInt8}
    {rest : List UInt8}
    (given : Segmented (byte :: rest) found) :
    ∃ later,
      found = (firstSegment byte rest).1 :: later ∧
        Segmented (firstSegment byte rest).2 later := by
  cases given with
  | @cons _ _ segment later first behind =>
      rw [first.eq_firstSegment]
      exact ⟨later, rfl, behind⟩

/-- There is one division of a source into segments. -/
theorem existsUnique (source : List UInt8) : ∃! found, Segmented source found := by
  induction size : source.length using Nat.strong_induction_on generalizing source with
  | _ length inductionHypothesis =>
      cases source with
      | nil =>
          refine ⟨[], .nil, fun other given => ?_⟩
          cases given with
          | nil => rfl
          | cons first _ =>
              exact absurd (List.append_eq_nil_iff.mp first.source_eq).1 first.bytes_ne_nil
      | cons byte rest =>
          have cut := firstSegment_cut byte rest
          have shorter : (firstSegment byte rest).2.length < length := by
            have nonempty := List.length_pos_of_ne_nil cut.bytes_ne_nil
            rw [← size, ← cut.source_eq, List.length_append]
            omega
          obtain ⟨later, behind, unique⟩ := inductionHypothesis _ shorter _ rfl
          refine ⟨_ :: later, .cons cut behind, fun other given => ?_⟩
          obtain ⟨later', rfl, behind'⟩ := given.cons_inv
          rw [unique later' behind']

end Segmented

end Segments

section Report

/-! ## The items of segments -/

/-- The line on which a run of bytes from the start of a source ends. -/
def lineAfter (read : List UInt8) : Nat :=
  1 + read.count newline

/--
The items of segments that stand behind what has been read.  Blanks and comments have
none, every other segment has one with the line on which it ends, and the end of the
input is last.
-/
def report : List UInt8 → List Segment → List Item
  | read, [] => [.token ⟨.endOfInput, "", lineAfter read⟩]
  | read, segment :: later =>
      let ending := read ++ segment.bytes
      match segment.kind with
      | .blank => report ending later
      | .comment => report ending later
      | .token kind =>
          .token ⟨kind, decodeLossy segment.bytes, lineAfter ending⟩ :: report ending later
      | .unexpected byte =>
          .error ⟨.unexpectedCharacter byte, lineAfter ending⟩ :: report ending later
      | .unterminated =>
          .error ⟨.unterminatedString, lineAfter ending⟩ :: report ending later

theorem lineAfter_append (read bytes : List UInt8) :
    lineAfter (read ++ bytes) = lineAfter read + lineEnds bytes := by
  simp [lineAfter, lineEnds, newline, Nat.add_assoc]

/-- The report of a segment is its item, if it has one, and the report of the later ones. -/
theorem report_cons (read : List UInt8) (segment : Segment) (later : List Segment) :
    report read (segment :: later) =
      (segment.item? (lineAfter (read ++ segment.bytes))).toList ++
        report (read ++ segment.bytes) later := by
  obtain ⟨kind, bytes⟩ := segment
  cases kind
  all_goals rfl

theorem report_length_le (read : List UInt8) (found : List Segment) :
    (report read found).length ≤ found.length + 1 := by
  induction found generalizing read with
  | nil => simp [report]
  | cons segment later inductionHypothesis =>
      have few := Option.length_toList_le (o := segment.item? (lineAfter (read ++ segment.bytes)))
      have behind := inductionHypothesis (read ++ segment.bytes)
      rw [report_cons, List.length_append, List.length_cons]
      omega

/-- No lexeme is the end of the input. -/
theorem Lexeme.kind_ne_endOfInput
    {bytes : List UInt8}
    {kind : TokenKind}
    (lexeme : Lexeme bytes kind) :
    kind ≠ .endOfInput := by
  cases lexeme
  all_goals simp

/-- The end of the input is reported once, as the last item. -/
theorem report_ends
    {source : List UInt8}
    {found : List Segment}
    (given : Segmented source found)
    (read : List UInt8) :
    ∃ before,
      report read found =
          before ++ [.token ⟨.endOfInput, "", lineAfter (read ++ source)⟩] ∧
        ∀ token, .token token ∈ before → token.kind ≠ .endOfInput := by
  induction given generalizing read with
  | nil => exact ⟨[], by simp [report], by simp⟩
  | @cons source rest segment later first _ inductionHypothesis =>
      obtain ⟨before, ended, noEnd⟩ := inductionHypothesis (read ++ segment.bytes)
      rw [List.append_assoc, first.source_eq] at ended
      refine ⟨(segment.item? (lineAfter (read ++ segment.bytes))).toList ++ before, ?_, ?_⟩
      · rw [report_cons, ended, List.append_assoc]
      · intro token member
        obtain own | behind := List.mem_append.mp member
        · cases first with
          | token lexeme =>
              obtain rfl : token = _ := by simpa [Segment.item?] using own
              exact lexeme.kind_ne_endOfInput
          | _ => simp [Segment.item?] at own
        · exact noEnd token behind

end Report

namespace Scanner

/-! ## The scanner on its way -/

/-- A scanner that is going to give these items and then nothing. -/
def Gives (scanner : Scanner) (listed : List Item) : Prop :=
  (scanner.done = true ∧ listed = []) ∨
    (scanner.done = false ∧
      ∃ read found,
        scanner.line = lineAfter read ∧
          Segmented scanner.rest found ∧
          listed = report read found)

/-- The next item is the first one of the report, and the scanner gives the others. -/
theorem nextWithin_gives
    {source : List UInt8}
    {found : List Segment}
    (given : Segmented source found)
    {fuel : Nat}
    (enough : source.length ≤ fuel)
    (read : List UInt8) :
    ∃ item after listed,
      nextWithin fuel source (lineAfter read) = (item, after) ∧
        report read found = item :: listed ∧
        after.Gives listed := by
  induction given generalizing fuel read with
  | nil => exact ⟨_, ⟨[], lineAfter read, true⟩, [], by simp [nextWithin], rfl, .inl ⟨rfl, rfl⟩⟩
  | @cons source rest segment later first behind inductionHypothesis =>
      have nonempty := List.length_pos_of_ne_nil first.bytes_ne_nil
      have shorter : rest.length < source.length := by
        rw [← first.source_eq, List.length_append]
        omega
      obtain ⟨fuel, rfl⟩ : ∃ less, fuel = less + 1 := ⟨fuel - 1, by omega⟩
      cases source with
      | nil => contradiction
      | cons byte tail =>
          rw [nextWithin, first.eq_firstSegment, report_cons]
          dsimp only
          rw [← lineAfter_append]
          cases segment.item? (lineAfter (read ++ segment.bytes)) with
          | none => exact inductionHypothesis (by omega) (read ++ segment.bytes)
          | some item =>
              exact ⟨item, _, _, rfl, rfl, .inr ⟨rfl, _, later, rfl, behind, rfl⟩⟩

/-- One request gives the first item that is left, and leaves the others. -/
theorem next?_gives
    {scanner : Scanner}
    {listed : List Item}
    (given : scanner.Gives listed) :
    scanner.next?.1 = listed.head? ∧ scanner.next?.2.Gives listed.tail := by
  obtain ⟨done, rfl⟩ | ⟨notDone, read, found, line, segmented, rfl⟩ := given
  · simp [next?, done, Gives]
  · obtain ⟨item, after, listed, next, reported, gives⟩ :=
      nextWithin_gives segmented (Nat.le_refl _) read
    simp [next?, notDone, line, next, reported, gives]

/-- The scanner after a number of requests. -/
def after : Nat → Scanner → Scanner
  | 0, scanner => scanner
  | count + 1, scanner => after count scanner.next?.2

/-- The answer to the request behind a number of earlier ones. -/
def answer (scanner : Scanner) (count : Nat) : Option Item :=
  (scanner.after count).next?.1

/-- The requests are answered by the items in their order, and by nothing behind them. -/
theorem answer_gives
    {scanner : Scanner}
    {listed : List Item}
    (given : scanner.Gives listed)
    (count : Nat) :
    scanner.answer count = listed[count]? := by
  induction count generalizing scanner listed with
  | zero => rw [← List.head?_eq_getElem?]; exact (next?_gives given).1
  | succ count inductionHypothesis =>
      rw [← List.getElem?_tail]
      exact inductionHypothesis (next?_gives given).2

theorem itemsWithin_gives
    {scanner : Scanner}
    {listed : List Item}
    (given : scanner.Gives listed)
    {fuel : Nat}
    (enough : listed.length ≤ fuel) :
    scanner.itemsWithin fuel = listed := by
  induction fuel generalizing scanner listed with
  | zero => simp [itemsWithin, List.length_eq_zero_iff.mp (Nat.le_zero.mp enough)]
  | succ fuel inductionHypothesis =>
      obtain ⟨first, later⟩ := next?_gives given
      rw [itemsWithin]
      generalize scanner.next? = next at first later
      obtain ⟨answered, behind⟩ := next
      dsimp only at first later
      cases listed with
      | nil => simp [first]
      | cons item listed =>
          subst first
          exact congrArg (item :: ·)
            (inductionHypothesis later (Nat.le_of_succ_le_succ enough))

theorem start_gives
    {source : List UInt8}
    {found : List Segment}
    (given : Segmented source found) :
    (start source).Gives (report [] found) :=
  .inr ⟨rfl, [], found, rfl, given, rfl⟩

end Scanner

/-- The items of a source are the report of its segments. -/
theorem items_eq_report
    {source : List UInt8}
    {found : List Segment}
    (given : Segmented source found) :
    items source = report [] found := by
  refine Scanner.itemsWithin_gives (Scanner.start_gives given) ?_
  exact (report_length_le [] found).trans (Nat.succ_le_succ given.length_le)

/--
Every byte string has exactly one division into segments of the lexical grammar, each
token being the longest lexeme at its place.  The scanner answers with the items of
these segments in their order, the end of the input being last, and with nothing
from then on.
-/
theorem scanner_exact (source : List UInt8) :
    ∃ found,
      Segmented source found ∧
        (∀ other, Segmented source other → other = found) ∧
        (found.map (·.bytes)).flatten = source ∧
        items source = report [] found ∧
        (∀ count, (Scanner.start source).answer count = (report [] found)[count]?) ∧
        ∃ before,
          report [] found = before ++ [.token ⟨.endOfInput, "", lineAfter source⟩] ∧
            ∀ token, .token token ∈ before → token.kind ≠ .endOfInput := by
  obtain ⟨found, given, unique⟩ := Segmented.existsUnique source
  exact ⟨found, given, unique, given.flatten, items_eq_report given,
    Scanner.answer_gives (Scanner.start_gives given), report_ends given []⟩

end Lox.Source
