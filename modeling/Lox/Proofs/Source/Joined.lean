import Lox.Proofs.Source.MaximalMunch

namespace Lox.Source

open Text.Utf8 (encode)

/-!
# Scanning goes line by line

A line end stops every segment that can be stopped: a comment ends there, and of all
lexemes only a string goes on across it.  So a source in which every string is closed
is scanned alike whether the end of the input follows it or a line end with anything
behind, and what follows is scanned as a source of its own, further down.
-/

section Bytes

/-! ## Bytes in front of a line end -/

theorem ne_newline_of_isWordByte {byte : UInt8} (given : isWordByte byte) : byte ≠ newline := by
  rintro rfl
  exact absurd given (by decide)

theorem ne_newline_of_isDigit {byte : UInt8} (given : isDigit byte) : byte ≠ newline :=
  ne_newline_of_isWordByte (isWordByte_of_isDigit given)

/-- No symbol has a line end in it. -/
theorem newline_notMem_symbol (sign : Symbol) : newline ∉ encode sign.spelling := by
  cases sign
  all_goals decide

/-- What has no line end in it and starts a source up to a line end starts the source. -/
theorem prefix_of_prefix_joined
    {run source behind : List UInt8}
    (free : newline ∉ run)
    (starts : run <+: source ++ newline :: behind) :
    run <+: source := by
  have whole : source <+: source ++ newline :: behind := List.prefix_append _ _
  obtain long | short := Nat.lt_or_ge source.length run.length
  · have upToLine : source ++ [newline] <+: source ++ newline :: behind := by
      simp [List.cons_prefix_cons]
    have inside : source ++ [newline] <+: run :=
      List.prefix_of_prefix_length_le upToLine starts (by rwa [List.length_append])
    exact absurd (inside.subset (by simp)) free
  · exact List.prefix_of_prefix_length_le starts whole short

end Bytes

section Lexemes

/-! ## Only a string has a line end in it -/

variable {bytes : List UInt8} {kind : TokenKind}

/-- A lexeme with a line end in it is a string. -/
theorem Lexeme.string_of_newline
    (given : Lexeme bytes kind)
    (ended : newline ∈ bytes) :
    ∃ body, bytes = quote :: (body ++ [quote]) ∧ ∀ byte ∈ body, byte ≠ quote := by
  cases given with
  | symbol sign => exact absurd ended (newline_notMem_symbol sign)
  | keyword word =>
      obtain ⟨first, tail, spelled, isWord⟩ := keyword_isWord word
      rw [spelled] at ended
      obtain rfl | later := List.mem_cons.mp ended
      · exact absurd rfl (ne_newline_of_isWordByte (isWordByte_of_isLetter isWord.starts))
      · exact absurd rfl (ne_newline_of_isWordByte (isWord.continues _ later))
  | identifier starts continues =>
      obtain rfl | later := List.mem_cons.mp ended
      · exact absurd rfl (ne_newline_of_isWordByte (isWordByte_of_isLetter starts))
      · exact absurd rfl (ne_newline_of_isWordByte (continues _ later))
  | @string body inside => exact ⟨body, rfl, inside⟩
  | whole _ inside => exact absurd rfl (ne_newline_of_isDigit (inside _ ended))
  | decimal _ inside _ insideFraction =>
      obtain inDigits | later := List.mem_append.mp ended
      · exact absurd rfl (ne_newline_of_isDigit (inside _ inDigits))
      obtain point | inFraction := List.mem_cons.mp later
      · exact absurd point (by decide)
      · exact absurd rfl (ne_newline_of_isDigit (insideFraction _ inFraction))

/-- Of two strings at one place none is longer than the other. -/
theorem length_le_of_string_prefix
    {body other behind : List UInt8}
    (inside : ∀ byte ∈ other, byte ≠ quote)
    (starts : quote :: (body ++ [quote]) <+: behind)
    (others : quote :: (other ++ [quote]) <+: behind) :
    other.length ≤ body.length := by
  by_contra longer
  have shorter : quote :: (body ++ [quote]) <+: quote :: other := by
    refine List.prefix_of_prefix_length_le starts (.trans ?_ others) ?_
    · simp [List.cons_prefix_cons]
    · simp only [List.length_cons, List.length_append, List.length_nil]
      omega
  have closing : quote ∈ other := (List.cons_prefix_cons.mp shorter).2.subset (by simp)
  exact inside quote closing rfl

end Lexemes

section Segments

/-! ## Segments in front of a line end -/

variable {source rest : List UInt8} {segment : Segment}

/-- A segment that is no unclosed string is the same if a line end follows the source. -/
theorem Cut.joined
    (given : Cut source segment rest)
    (closed : segment.kind ≠ .unterminated)
    (behind : List UInt8) :
    Cut (source ++ newline :: behind) segment (rest ++ newline :: behind) := by
  cases given with
  | blank separates => exact .blank separates
  | @comment body rest inside stops =>
      rw [List.cons_append, List.cons_append, List.append_assoc]
      refine .comment inside ?_
      cases rest with
      | nil => simp
      | cons byte others => simpa using stops
  | @token bytes rest kind lexeme noComment longest =>
      refine .of_longest (List.append_assoc ..).symm lexeme ?_ ?_
      · exact fun starts => noComment (prefix_of_prefix_joined (by decide) starts)
      · intro candidate other given starts
        by_cases ended : newline ∈ candidate
        · obtain ⟨other, rfl, inside⟩ := given.string_of_newline ended
          have first : bytes <+: bytes ++ rest ++ newline :: behind :=
            (List.prefix_append bytes rest).trans (List.prefix_append _ _)
          obtain ⟨byte, tail, rfl⟩ := List.exists_cons_of_ne_nil lexeme.nonempty
          obtain rfl : quote = byte := (List.cons_prefix_cons.mp starts).1
          obtain ⟨body, rfl, _⟩ := lexeme.string_of_quote
          simpa using length_le_of_string_prefix inside first starts
        · exact longest candidate other given (prefix_of_prefix_joined ended starts)
  | @unexpected byte rest noBlank noQuote noLexeme =>
      rw [List.cons_append]
      refine .unexpected noBlank noQuote fun candidate other given starts => ?_
      rw [← List.cons_append] at starts
      by_cases ended : newline ∈ candidate
      · obtain ⟨body, rfl, _⟩ := given.string_of_newline ended
        exact noQuote (List.cons_prefix_cons.mp starts).1.symm
      · exact noLexeme candidate other given (prefix_of_prefix_joined ended starts)
  | unterminated => exact absurd rfl closed

/-- The segments of sources that are joined at a line end. -/
theorem Segmented.joined
    {first second : List UInt8}
    {found other : List Segment}
    (given : Segmented first found)
    (closed : ∀ segment ∈ found, segment.kind ≠ .unterminated)
    (later : Segmented second other) :
    Segmented (first ++ newline :: second) (found ++ ⟨.blank, [newline]⟩ :: other) := by
  induction given with
  | nil => exact .cons (.blank (by decide)) later
  | cons cut _ inductionHypothesis =>
      refine .cons (cut.joined (closed _ (by simp)) second) ?_
      exact inductionHypothesis fun segment member => closed segment (by simp [member])

end Segments

section Items

/-! ## Items further down -/

/-- An item a number of lines further down. -/
def Item.lowered (lines : Nat) : Item → Item
  | .token word => .token { word with line := lines + word.line }
  | .error fault => .error { fault with line := lines + fault.line }

theorem lineAfter_behind (earlier read : List UInt8) :
    lineAfter (earlier ++ read) = lineEnds earlier + lineAfter read := by
  rw [lineAfter, lineAfter, List.count_append, lineEnds, newline]
  omega

theorem Segment.item?_lowered (segment : Segment) (lines line : Nat) :
    segment.item? (lines + line) = (segment.item? line).map (Item.lowered lines) := by
  obtain ⟨kind, bytes⟩ := segment
  cases kind
  all_goals rfl

/-- What stands behind more lines is reported further down. -/
theorem report_behind (earlier read : List UInt8) (found : List Segment) :
    report (earlier ++ read) found =
      (report read found).map (Item.lowered (lineEnds earlier)) := by
  induction found generalizing read with
  | nil => rw [report, report, lineAfter_behind]; rfl
  | cons segment later inductionHypothesis =>
      rw [report_cons, report_cons, List.append_assoc, inductionHypothesis,
        lineAfter_behind, segment.item?_lowered, List.map_append]
      cases segment.item? (lineAfter (read ++ segment.bytes)) <;> rfl

/-- Segments in a row are reported in a row, with one end of the input. -/
theorem report_append (read : List UInt8) (found other : List Segment) :
    ∃ before,
      report read found =
          before ++ [.token ⟨.endOfInput, "", lineAfter (read ++ (found.map (·.bytes)).flatten)⟩] ∧
        report read (found ++ other) =
          before ++ report (read ++ (found.map (·.bytes)).flatten) other := by
  induction found generalizing read with
  | nil => exact ⟨[], by simp [report], by simp⟩
  | cons segment later inductionHypothesis =>
      obtain ⟨before, ended, joined⟩ := inductionHypothesis (read ++ segment.bytes)
      refine ⟨(segment.item? (lineAfter (read ++ segment.bytes))).toList ++ before, ?_, ?_⟩
      · rw [report_cons, ended]
        simp
      · rw [List.cons_append, report_cons, joined]
        simp

/-- An unclosed string is reported. -/
theorem error_of_unterminated
    {found : List Segment}
    {segment : Segment}
    (member : segment ∈ found)
    (unclosed : segment.kind = .unterminated)
    (read : List UInt8) :
    ∃ line, .error ⟨.unterminatedString, line⟩ ∈ report read found := by
  induction found generalizing read with
  | nil => simp at member
  | cons first later inductionHypothesis =>
      rw [report_cons]
      obtain rfl | behind := List.mem_cons.mp member
      · exact ⟨lineAfter (read ++ segment.bytes), by simp [Segment.item?, unclosed]⟩
      · obtain ⟨line, reported⟩ := inductionHypothesis behind (read ++ first.bytes)
        exact ⟨line, List.mem_append_right _ reported⟩

end Items

/-- Where no string is reported as unclosed, no segment is one. -/
theorem closed_of_errors
    {source : List UInt8}
    {found : List Segment}
    (given : Segmented source found)
    (closed : ∀ error ∈ errors source, error.fault ≠ .unterminatedString) :
    ∀ segment ∈ found, segment.kind ≠ .unterminated := by
  intro segment member unclosed
  obtain ⟨line, reported⟩ := error_of_unterminated member unclosed []
  rw [← items_eq_report given] at reported
  exact closed ⟨.unterminatedString, line⟩
    (List.mem_filterMap.mpr ⟨_, reported, rfl⟩) rfl

/--
A source whose strings are all closed, a line end and another source have the items of
the first one up to its end of the input, and behind them the items of the second one,
further down by the lines of the first one and the line end.
-/
theorem items_joined
    (first second : List UInt8)
    (closed : ∀ error ∈ errors first, error.fault ≠ .unterminatedString) :
    ∃ before,
      items first = before ++ [.token ⟨.endOfInput, "", lineAfter first⟩] ∧
        items (first ++ newline :: second) =
          before ++ (items second).map (Item.lowered (1 + lineEnds first)) := by
  obtain ⟨found, given, -⟩ := Segmented.existsUnique first
  obtain ⟨other, later, -⟩ := Segmented.existsUnique second
  have joined := given.joined (closed_of_errors given closed) later
  obtain ⟨before, ended, both⟩ := report_append [] found (⟨.blank, [newline]⟩ :: other)
  rw [given.flatten, List.nil_append] at ended both
  refine ⟨before, by rw [items_eq_report given, ended], ?_⟩
  have lines : lineEnds (first ++ [newline]) = 1 + lineEnds first := by
    simp [lineEnds, newline, Nat.add_comm]
  rw [items_eq_report joined, both, items_eq_report later, ← lines, ← report_behind]
  simp [report]

/-- The sources `a <` and `= "b` joined at a line end, where no `<=` arises. -/
theorem items_joined_at_operator :
    (∀ error ∈ errors (encode "a <"), error.fault ≠ .unterminatedString) ∧
      items (encode "a <" ++ newline :: encode "= \"b") =
        [.token ⟨.identifier, "a", 1⟩, .token ⟨.symbol .less, "<", 1⟩,
          .token ⟨.symbol .equal, "=", 2⟩, .error ⟨.unterminatedString, 2⟩,
          .token ⟨.endOfInput, "", 2⟩] := by
  have closed : ∀ error ∈ errors (encode "a <"), error.fault ≠ .unterminatedString := by
    decide +kernel
  obtain ⟨before, ended, joined⟩ := items_joined (encode "a <") (encode "= \"b") closed
  have items_first : items (encode "a <") =
      [.token ⟨.identifier, "a", 1⟩, .token ⟨.symbol .less, "<", 1⟩] ++
        [.token ⟨.endOfInput, "", lineAfter (encode "a <")⟩] := by
    decide +kernel
  obtain rfl := List.append_cancel_right (ended.symm.trans items_first)
  exact ⟨closed, joined.trans (by decide +kernel)⟩

end Lox.Source
