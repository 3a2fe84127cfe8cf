import Lox.Proofs.Grammar.Rounds

namespace Lox.Grammar

/-!
# Places in the token list

A parser walks through a list of tokens that ends with an end marker: one is put behind
a list that has none there.  It stands at an index of this list, and what is left to read
is what stands from there up to the first marker.  Whatever it is called for, and however
often, the index does not go down and does not leave the list.
-/

/-- The list that a parser walks through: an end marker is put behind, unless it is there. -/
def terminated (tokens : List Token) : List Token :=
  if tokens.getLast?.any Reader.isEnd then tokens
  else tokens ++ [⟨.endOfInput, "", (tokens.getLast?.map (·.line)).getD 1⟩]

/-- The index of the first end marker. -/
def endPosition (tokens : List Token) : Nat :=
  (terminated tokens).findIdx Reader.isEnd

/-- The index at which a reader stands. -/
def position (tokens : List Token) (reader : Reader) : Nat :=
  endPosition tokens - reader.rest.length

/-- The index of the token at which an error is reported. -/
def errorPosition (tokens : List Token) (error : SyntaxError) : Nat :=
  endPosition tokens - error.remaining

/-- At its index a reader has the token that is next, or an end marker on the last line. -/
def Sees (tokens : List Token) (reader : Reader) : Prop :=
  ∃ token, (terminated tokens)[position tokens reader]? = some token ∧
    if Reader.isEnd token then reader.rest = [] ∧ token.line = reader.endLine
    else reader.rest.head? = some token

/-- An error names the token at its index, and says so if that is an end marker. -/
def ReportedAt (tokens : List Token) (error : SyntaxError) : Prop :=
  ∃ token, (terminated tokens)[errorPosition tokens error]? = some token ∧
    error.line = token.line ∧
      error.lexeme = if Reader.isEnd token then none else some token.lexeme

/-! ## Readers in the list -/

/-- What a reader has left is the end of what stands before the first end marker. -/
structure StandsIn (tokens : List Token) (reader : Reader) : Prop where
  rest : reader.rest <:+ (Reader.start tokens 0).rest
  endLine : reader.endLine = (Reader.start tokens 0).endLine

section

variable {tokens : List Token}

/-- A reader starts in front of all of the tokens. -/
theorem start_standsIn (tokens : List Token) (nextId : NodeId) :
    StandsIn tokens (Reader.start tokens nextId) :=
  ⟨List.suffix_refl _, rfl⟩

/-- However a reader moves, it stays among the tokens. -/
theorem StandsIn.moved
    {before after : Reader}
    (stands : StandsIn tokens before)
    (moves : Moves before after) :
    StandsIn tokens after where
  rest := (recedes_of_moves moves).rest.trans stands.rest
  endLine := (recedes_of_moves moves).endLine.trans stands.endLine

/-- An end marker stands behind what a parser of the list reads. -/
theorem terminated_eq (tokens : List Token) :
    ∃ marker beyond,
      terminated tokens = (Reader.start tokens 0).rest ++ marker :: beyond ∧
        Reader.isEnd marker ∧ marker.line = (Reader.start tokens 0).endLine := by
  unfold Reader.start
  dsimp only
  cases found : tokens.find? Reader.isEnd with
  | some marker =>
      obtain ⟨ends, before, beyond, shape, plain⟩ := List.find?_eq_some_iff_append.mp found
      have taken : tokens.takeWhile (!Reader.isEnd ·) = before := by
        rw [shape, List.takeWhile_append_of_pos (by simpa using plain)]
        simp [ends]
      rw [taken]
      unfold terminated
      split
      · exact ⟨marker, beyond, shape, ends, rfl⟩
      · exact ⟨marker, beyond ++ [_], by rw [shape, List.append_assoc]; rfl, ends, rfl⟩
  | none =>
      have plain := List.find?_eq_none.mp found
      have taken : tokens.takeWhile (!Reader.isEnd ·) = tokens :=
        List.takeWhile_eq_self_iff.mpr (by simpa using plain)
      rw [taken]
      unfold terminated
      split
      next ended =>
        obtain ⟨last, member, ends⟩ := Option.any_eq_true _ _ |>.mp ended
        exact absurd ends (plain last (List.mem_of_getLast? member))
      · exact ⟨_, [], rfl, by simp [Reader.isEnd], rfl⟩

/-- The end is behind all tokens that a reader starts with. -/
theorem endPosition_eq (tokens : List Token) :
    endPosition tokens = (Reader.start tokens 0).rest.length := by
  obtain ⟨marker, beyond, shape, ends, -⟩ := terminated_eq tokens
  have plain : (Reader.start tokens 0).rest.findIdx Reader.isEnd =
      (Reader.start tokens 0).rest.length :=
    List.findIdx_eq_length.mpr fun token member => by
      simpa using List.mem_takeWhile_imp member
  unfold endPosition
  rw [shape, List.findIdx_append, plain]
  simp [List.findIdx_cons, ends]

section

variable {reader : Reader} (stands : StandsIn tokens reader)

include stands

/-- No more is left of the tokens than all of them. -/
theorem StandsIn.length_le : reader.rest.length ≤ endPosition tokens :=
  endPosition_eq tokens ▸ stands.rest.length_le

/-- The position and what is left of the tokens add up to the end. -/
theorem StandsIn.position_add : position tokens reader + reader.rest.length =
    endPosition tokens :=
  Nat.sub_add_cancel stands.length_le

/-- From the index of a reader on, the list is what is left and an end marker. -/
theorem StandsIn.drop_eq :
    ∃ marker beyond,
      (terminated tokens).drop (position tokens reader) =
          reader.rest ++ marker :: beyond ∧
        Reader.isEnd marker ∧ marker.line = reader.endLine := by
  obtain ⟨marker, beyond, shape, ends, line⟩ := terminated_eq tokens
  obtain ⟨passed, split⟩ := stands.rest
  have index : position tokens reader = passed.length := by
    unfold position
    rw [endPosition_eq, ← split]
    simp
  refine ⟨marker, beyond, ?_, ends, line.trans stands.endLine.symm⟩
  rw [shape, ← split, index, List.append_assoc, List.drop_left]

/-- A reader sees the token at its position. -/
theorem StandsIn.sees : Sees tokens reader := by
  obtain ⟨marker, beyond, shape, ends, line⟩ := stands.drop_eq
  have plain : ∀ token ∈ reader.rest, ¬ Reader.isEnd token := fun token member => by
    simpa using List.mem_takeWhile_imp (stands.rest.subset member)
  unfold Sees
  rw [← List.head?_drop, shape]
  cases left : reader.rest with
  | nil => exact ⟨marker, rfl, by simp [ends, line]⟩
  | cons token rest =>
      have proper : ¬ Reader.isEnd token := plain token (by simp [left])
      exact ⟨token, rfl, by simp [proper]⟩

/-- An error that is reported where a reader stands names what the reader sees. -/
theorem StandsIn.reportedAt (fault : SyntaxFault) :
    ReportedAt tokens (reader.report fault) := by
  obtain ⟨token, found, shown⟩ := stands.sees
  refine ⟨token, found, ?_⟩
  unfold Reader.report
  split at shown
  next ends => simp [shown.1, shown.2, ends]
  next proper => simp [shown, proper]

end

/-- What a reader sees is inside the tokens. -/
theorem Sees.inside {reader : Reader} (sees : Sees tokens reader) :
    position tokens reader < (terminated tokens).length := by
  obtain ⟨token, found, -⟩ := sees
  exact (List.getElem?_eq_some_iff.mp found).1

/-- The index goes up with every token that is taken. -/
theorem position_mono
    {before after : Reader}
    (moves : Moves before after) :
    position tokens before ≤ position tokens after :=
  Nat.sub_le_sub_left (recedes_of_moves moves).rest.length_le _

end

/-! ## Calls -/

/-- What a parser can be called for. -/
inductive Call where
  | program
  | expression
  deriving Repr, DecidableEq

/-- Where a call leaves the parser, whether it gives a tree or an error. -/
def Call.after : Call → Reader → Reader
  | .program, reader => endState (Grammar.program reader)
  | .expression, reader => endState (wholeExpression reader)

/-- Where calls in a row leave the parser. -/
def afterCalls (calls : List Call) (reader : Reader) : Reader :=
  calls.foldl (fun reader call => call.after reader) reader

/-- Every call moves the reader. -/
theorem Call.moves (call : Call) (reader : Reader) : Moves reader (call.after reader) := by
  cases call with
  | program => exact moves_program reader
  | expression => exact moves_endState wholeExpression_forward reader

/-- Calls in a row move the reader. -/
theorem moves_afterCalls (calls : List Call) (reader : Reader) :
    Moves reader (afterCalls calls reader) := by
  induction calls generalizing reader with
  | nil => exact .refl
  | cons call others inductionHypothesis =>
      exact (call.moves reader).trans (inductionHypothesis (call.after reader))

/--
The recursion of the parsers is well founded at a reader.  Rules ask for nested
expressions, statements and declarations only where fewer tokens are left, so it does
not matter what the nested parsers do elsewhere; and the loops in a rule do not run out
of any budget that covers the tokens left.
-/
structure Grounded (reader : Reader) : Prop where
  expressions : ∀ {inner : Parser Expr} {size : Nat}, reader.rest.length ≤ size →
    (∀ shorter : Reader, shorter.rest.length < reader.rest.length →
      inner shorter = expression shorter) →
    assignment inner size reader = expression reader
  statements : ∀ {statement declaration : Parser Stmt} {size : Nat},
    reader.rest.length ≤ size →
    (∀ shorter : Reader, shorter.rest.length < reader.rest.length →
      statement shorter = nextStatement shorter) →
    (∀ shorter : Reader, shorter.rest.length < reader.rest.length →
      declaration shorter = nextDeclaration shorter) →
    anyStatement statement declaration size reader = nextStatement reader
  declarations : ∀ {statement declaration : Parser Stmt} {size : Nat},
    reader.rest.length ≤ size →
    (∀ shorter : Reader, shorter.rest.length < reader.rest.length →
      statement shorter = nextStatement shorter) →
    (∀ shorter : Reader, shorter.rest.length < reader.rest.length →
      declaration shorter = nextDeclaration shorter) →
    anyDeclaration statement declaration size reader = nextDeclaration reader

/-- The recursion is well founded at every reader, as budgets do not matter. -/
theorem grounded (reader : Reader) : Grounded reader where
  expressions covers := expression_guarded covers
  statements covers := statement_guarded covers
  declarations covers := declaration_guarded covers

/--
What is certain of a parser wherever it stands.  A call moves it step by step; on the way
the index does not go down, stays in the list, and is that of the token which the parser
sees.  A program is read to an end marker, in rounds that each take the index up, and its
errors name tokens at indices that go up from one error to the next.
-/
structure Progresses (tokens : List Token) (reader : Reader) : Prop where
  steps : ∀ call : Call, Moves reader (call.after reader)
  inside : ∀ (call : Call) (passed : Reader),
    Moves reader passed → Moves passed (call.after reader) →
      position tokens reader ≤ position tokens passed ∧
        position tokens passed ≤ position tokens (call.after reader) ∧
          position tokens passed < (terminated tokens).length ∧ Sees tokens passed
  rounds : ∃ outcomes, Rounds reader outcomes (Call.program.after reader) ∧
    ∀ {fuel : Nat}, reader.rest.length ≤ fuel →
      readProgramWithin fuel reader =
        ⟨readBy outcomes, reportedBy outcomes, Call.program.after reader⟩
  consumes : ∀ {passed after : Reader} {outcome : Except SyntaxError Stmt},
    Moves reader passed → passed.rest ≠ [] → Round passed outcome after →
      position tokens passed < position tokens after
  ends : ∃ marker,
    (terminated tokens)[position tokens (Call.program.after reader)]? = some marker ∧
      Reader.isEnd marker
  reported : ∀ error ∈ (readProgram reader).errors, ReportedAt tokens error
  ascending : (readProgram reader).errors.Pairwise fun earlier later =>
    errorPosition tokens earlier < errorPosition tokens later

section

variable {tokens : List Token} {reader : Reader} (stands : StandsIn tokens reader)

include stands

/-- While a round reads, the reader stays inside the tokens and moves forward. -/
theorem StandsIn.inside
    {passed after : Reader}
    (before : Moves reader passed)
    (behind : Moves passed after) :
    position tokens reader ≤ position tokens passed ∧
      position tokens passed ≤ position tokens after ∧
        position tokens passed < (terminated tokens).length ∧ Sees tokens passed := by
  have sees := (stands.moved before).sees
  exact ⟨position_mono before, position_mono behind, sees.inside, sees⟩

/-- Every round takes a token. -/
theorem StandsIn.consumes
    {passed after : Reader}
    {outcome : Except SyntaxError Stmt}
    (moves : Moves reader passed)
    (left : passed.rest ≠ [])
    (round : Round passed outcome after) :
    position tokens passed < position tokens after := by
  have before := (stands.moved moves).position_add
  have behind := ((stands.moved moves).moved round.moves).position_add
  have shorter := round.shorter left
  omega

variable {outcomes : List (Except SyntaxError Stmt)} {after : Reader}
  (rounds : Rounds reader outcomes after)

include rounds

/-- A program ends at the token that marks the end. -/
theorem StandsIn.ends :
    ∃ marker, (terminated tokens)[position tokens after]? = some marker ∧
      Reader.isEnd marker := by
  obtain ⟨token, found, shown⟩ := (stands.moved rounds.moves).sees
  refine ⟨token, found, ?_⟩
  split at shown
  next ends => exact ends
  · simp [rounds.ended] at shown

/-- Errors are reported at tokens between the start and the end. -/
theorem StandsIn.reported :
    ∀ error ∈ reportedBy outcomes, ReportedAt tokens error := by
  intro error member
  obtain ⟨place, moves, -, same⟩ := rounds.reported error member
  rw [same]
  exact (stands.moved moves).reportedAt error.fault

/-- Errors are reported in the order of the tokens. -/
theorem StandsIn.ascending :
    (reportedBy outcomes).Pairwise fun earlier later =>
      errorPosition tokens earlier < errorPosition tokens later := by
  refine rounds.reportedBy_descending.imp_of_mem fun member _ less => ?_
  have bounds := (rounds.reported _ member).bounds
  have fits := stands.length_le
  unfold errorPosition
  omega

end

/-- A reader among the tokens makes progress, whatever is asked of it next. -/
theorem StandsIn.progresses
    {tokens : List Token}
    {reader : Reader}
    (stands : StandsIn tokens reader) :
    Progresses tokens reader := by
  obtain ⟨outcomes, after, rounds⟩ := Rounds.exists reader
  have read := rounds.readProgram_eq
  obtain rfl : Call.program.after reader = after := by
    rw [Call.after, endState_program, read]
  exact {
    steps := fun call => call.moves reader
    inside := fun _ _ => stands.inside
    rounds := ⟨outcomes, rounds, rounds.readProgramWithin_eq⟩
    consumes := stands.consumes
    ends := stands.ends rounds
    reported := read ▸ stands.reported rounds
    ascending := read ▸ stands.ascending rounds }

/--
A parser of any list of tokens makes progress, after any calls in a row, and its recursion
is well founded.
-/
theorem calls_progress
    (tokens : List Token)
    (nextId : NodeId)
    (calls : List Call) :
    Progresses tokens (afterCalls calls (Reader.start tokens nextId)) ∧
      ∀ reader, Grounded reader := by
  have moves := moves_afterCalls calls (Reader.start tokens nextId)
  have stands := (start_standsIn tokens nextId).moved moves
  exact ⟨stands.progresses, grounded⟩

end Lox.Grammar
