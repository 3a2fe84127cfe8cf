import Lox.Proofs.Grammar.Copies
import Lox.Proofs.Grammar.ProgramExact
import Lox.Proofs.Grammar.Rounds

namespace Lox.Grammar

/-!
# A bad statement is left at its semicolon

After an error, reading goes on behind the next semicolon.  A statement without a block
has one semicolon only, and it ends with it: whichever token of it does not fit, the
parser still stands in front of the semicolon, so what is dropped is just the rest of the
statement.  What stands behind the semicolon is then read as if nothing had been there.
-/

/-! ## Statements in front of their semicolon -/

/-- A token that neither ends a statement nor begins one, nor a block. -/
structure Inner (token : Token) : Prop where
  semicolon : token.kind ≠ .symbol .semicolon
  leftBrace : token.kind ≠ .symbol .leftBrace
  plain : startsStatement token = false

/-- Tokens inside a statement start no statement with a keyword. -/
theorem Inner.statementStart?_eq_none {token : Token} (inner : Inner token) :
    statementStart? token = none := by
  have plain := inner.plain
  unfold statementStart?
  split <;> simp_all [startsStatement, inner.leftBrace]

/-- Tokens inside a statement start no declaration with a keyword. -/
theorem Inner.declarationStart?_eq_none {token : Token} (inner : Inner token) :
    declarationStart? token = none := by
  have plain := inner.plain
  unfold declarationStart?
  split <;> simp_all [startsStatement]

/-- Only tokens inside a statement are left in front of the semicolon that ends it. -/
def Inside (semicolon : Token) (reader : Reader) : Prop :=
  ∃ window, reader.rest = window ++ [semicolon] ∧ ∀ token ∈ window, Inner token

section

variable {semicolon : Token} (ends : semicolon.kind = .symbol .semicolon)

include ends

/-- A token other than the semicolon is taken from in front of it. -/
theorem Inside.rest
    {reader : Reader}
    {token : Token}
    {rest : List Token}
    (inside : Inside semicolon reader)
    (shape : reader.rest = token :: rest)
    (different : token.kind ≠ .symbol .semicolon) :
    Inside semicolon { reader with rest := rest } := by
  obtain ⟨window, split, inner⟩ := inside
  rw [shape] at split
  cases window with
  | nil =>
      obtain rfl : token = semicolon := by simpa using (List.cons.inj split).1
      exact absurd ends different
  | cons first window =>
      obtain ⟨-, rfl⟩ := List.cons.inj split
      exact ⟨window, rfl, fun token member => inner token (List.mem_cons_of_mem _ member)⟩

/-- The discipline of not going past the semicolon. -/
def inFront : Discipline where
  kept before after := Inside semicolon before → Inside semicolon after
  reported before _ after := Inside semicolon before → Inside semicolon after
  takes token := token.kind ≠ .symbol .semicolon
  spares _ different := different
  refl _ := id
  trans first second := second ∘ first
  late first second := second ∘ first
  token shape different inside := inside.rest ends shape different
  identity _ := id
  fault _ kept := kept

end

/--
A parser that reads a statement in front of its semicolon: it takes the semicolon as the
last token, or fails in front of it.
-/
def Settles (semicolon : Token) (parser : Parser α) : Prop :=
  ∀ reader, Inside semicolon reader →
    (∀ value after, parser reader = .ok value after → after.rest = []) ∧
      ∀ error after, parser reader = .error error after → Inside semicolon after

section

variable {semicolon : Token} {α β : Type}

/-- The next token is the semicolon, or one inside the statement. -/
theorem Inside.next
    {reader : Reader}
    (inside : Inside semicolon reader)
    {token : Token}
    (next : token ∈ reader.rest.head?) :
    token = semicolon ∨ Inner token := by
  obtain ⟨window, split, inner⟩ := inside
  rw [split] at next
  cases window with
  | nil => exact .inl (by simpa using next.symm)
  | cons first window =>
      obtain rfl : first = token := by simpa using next
      exact .inr (inner first (by simp))

section

variable {parser : Parser α} {reader final : Reader}

/-- A parser that has failed in front of the semicolon settles there. -/
theorem settles_of_error
    {error : SyntaxError}
    (stopped : parser reader = .error error final)
    (inside : Inside semicolon final) :
    (∀ value after, parser reader = .ok value after → after.rest = []) ∧
      ∀ error after, parser reader = .error error after → Inside semicolon after := by
  rw [stopped]
  refine ⟨by simp, ?_⟩
  rintro other after ⟨⟩
  exact inside

/-- A parser that has left nothing settles behind the semicolon. -/
theorem settles_of_ok
    {value : α}
    (given : parser reader = .ok value final)
    (ended : final.rest = []) :
    (∀ value after, parser reader = .ok value after → after.rest = []) ∧
      ∀ error after, parser reader = .error error after → Inside semicolon after := by
  rw [given]
  refine ⟨?_, by simp⟩
  rintro other after ⟨⟩
  exact ended

end

namespace Settles

theorem reject (fault : SyntaxFault) : Settles semicolon (reject fault : Parser α) :=
  fun _ inside => settles_of_error rfl inside

/-- What comes first stays in front of the semicolon. -/
theorem after
    {ends : semicolon.kind = .symbol .semicolon}
    {first : Parser α}
    {next : α → Parser β}
    (head : (inFront ends).Governs first)
    (rest : ∀ value, Settles semicolon (next value)) :
    Settles semicolon (first >>= next) := by
  intro reader inside
  cases step : first reader with
  | ok value middle =>
      rw [bind_of_ok step]
      exact rest value middle ((head reader).1 value middle step inside)
  | error error middle =>
      have stillInside := (head reader).2 error middle step inside
      exact settles_of_error (bind_of_error step next) stillInside

/-- What comes last has nothing left to take, and needs nothing. -/
theorem before
    {first : Parser α}
    {next : α → Parser β}
    (head : Settles semicolon first)
    (rest : ∀ value reader, reader.rest = [] → ∃ result, next value reader = .ok result reader) :
    Settles semicolon (first >>= next) := by
  intro reader inside
  cases step : first reader with
  | ok value middle =>
      have ended := (head reader inside).1 value middle step
      obtain ⟨result, given⟩ := rest value middle ended
      exact settles_of_ok ((bind_of_ok step next).trans given) ended
  | error error middle =>
      have stillInside := (head reader inside).2 error middle step
      exact settles_of_error (bind_of_error step next) stillInside

/-- What is made of the value of a parser does not matter. -/
theorem map
    {parser : Parser α}
    (settles : Settles semicolon parser)
    (convert : α → β) :
    Settles semicolon (convert <$> parser) := by
  rw [map_eq_pure_bind]
  exact settles.before fun _ _ _ => ⟨_, rfl⟩

theorem either
    {condition : Prop}
    [Decidable condition]
    {consequent alternative : Parser α}
    (first : Settles semicolon consequent)
    (second : Settles semicolon alternative) :
    Settles semicolon (if condition then consequent else alternative) := by
  split
  · exact first
  · exact second

variable (ends : semicolon.kind = .symbol .semicolon)

include ends

/-- The semicolon is taken, unless something else of the statement is left. -/
theorem closing (fault : SyntaxFault) :
    Settles semicolon (discard (expectSymbol .semicolon fault)) := by
  refine map ?_ _
  intro reader inside
  obtain ⟨window, split, inner⟩ := id inside
  cases window with
  | nil =>
      have taken : Takes (expectSymbol .semicolon fault) [semicolon] (· = semicolon.line) [] :=
        .expectSymbol ends
      obtain ⟨line, after, given, ended, -⟩ := taken reader split
      exact settles_of_ok given ended
  | cons token window =>
      have lacking : Lacks (.symbol .semicolon) reader.rest :=
        split ▸ lacks_cons (inner token (by simp)).semicolon _
      exact settles_of_error (expectSymbol_declines lacking fault) inside

/-- No block is begun inside the statement. -/
theorem opening (fault : SyntaxFault) (next : PUnit → Parser β) :
    Settles semicolon (discard (expectSymbol .leftBrace fault) >>= next) := by
  intro reader inside
  have lacking : Lacks (.symbol .leftBrace) reader.rest := by
    intro token member
    rcases inside.next member with rfl | inner
    · simp [ends]
    · exact inner.leftBrace
  have stopped : discard (expectSymbol .leftBrace fault) reader = .error _ reader :=
    bind_of_error (expectSymbol_declines lacking fault) _
  exact settles_of_error (bind_of_error stopped next) inside

end Settles

/-! ## The statements without a block -/

section

variable (ends : semicolon.kind = .symbol .semicolon)

include ends

/-- An expression statement ends behind the semicolon, or fails in front of it. -/
theorem expressionStatement_settles (size : Nat) :
    Settles semicolon (expressionStatement size) :=
  .after (expressionWithin_governed (inFront ends) size) fun _ =>
    (Settles.closing ends _).before fun _ _ _ => ⟨_, rfl⟩

/-- A variable declaration ends behind the semicolon, or fails in front of it. -/
theorem varAfter_settles (size : Nat) : Settles semicolon (varAfter size) := by
  refine .after (expectName_governed (inFront ends) _) fun name => ?_
  refine .after (acceptSymbol_governed (inFront ends)
    ((inFront ends).spare (by decide))) fun _ => ?_
  have ending : ∀ initializer : Option Expr,
      Settles semicolon (do
        discard (expectSymbol .semicolon .declarationEndExpected)
        return Stmt.varDeclaration name initializer) :=
    fun _ => (Settles.closing ends _).before fun _ _ _ => ⟨_, rfl⟩
  refine .either ?_ (ending _)
  exact .after ((expressionWithin_governed (inFront ends) size).map _) fun _ => ending _

/-- A function fails in front of the semicolon, as its body has no opening brace. -/
theorem functionAfter_settles
    (role : FunctionRole)
    (declaration : Parser Stmt)
    (size : Nat) :
    Settles semicolon (functionAfter role declaration size) := by
  refine .after (expectName_governed (inFront ends) _) fun _ => ?_
  refine .after (expectSymbol_governed (inFront ends)
    ((inFront ends).spare (by decide)) _).dropped fun _ => ?_
  refine .after (listed_governed (expectName_governed (inFront ends) _) _) fun _ => ?_
  refine .after (expectSymbol_governed (inFront ends)
    ((inFront ends).spare (by decide)) _).dropped fun _ => ?_
  exact .opening ends _ _

/-- A class fails in front of the semicolon, as it has no opening brace. -/
theorem classAfter_settles (declaration : Parser Stmt) (size : Nat) :
    Settles semicolon (classAfter declaration size) := by
  refine .after (expectName_governed (inFront ends) _) fun _ => ?_
  refine .after (superclassClause_governed (inFront ends)) fun _ => ?_
  exact .opening ends _ _

/-- A statement inside the statement can only be an expression. -/
theorem anyStatement_inside
    (statement declaration : Parser Stmt)
    (size : Nat)
    {reader : Reader}
    (inside : Inside semicolon reader) :
    anyStatement statement declaration size reader = expressionStatement size reader := by
  unfold anyStatement
  rw [bind_of_ok (next?_declines fun token member => ?_)]
  rcases inside.next member with rfl | inner
  · simp [statementStart?, ends]
  · exact inner.statementStart?_eq_none

/-- Inside a statement, a declaration is read as an expression statement. -/
theorem anyDeclaration_inside
    (statement declaration : Parser Stmt)
    (size : Nat)
    {reader : Reader}
    (inside : Inside semicolon reader) :
    anyDeclaration statement declaration size reader = expressionStatement size reader := by
  unfold anyDeclaration
  rw [bind_of_ok (next?_declines fun token member => ?_)]
  · exact anyStatement_inside ends statement declaration size inside
  rcases inside.next member with rfl | inner
  · simp [declarationStart?, ends]
  · exact inner.declarationStart?_eq_none

/-- A statement ends behind the semicolon, or fails in front of it. -/
theorem statementWithin_settles : ∀ size : Nat, Settles semicolon (statementWithin size)
  | 0 => .reject _
  | size + 1 => by
      intro reader inside
      have same : statementWithin (size + 1) reader = _ :=
        anyStatement_inside ends _ _ _ inside
      rw [same]
      exact expressionStatement_settles ends _ reader inside

/-- A declaration ends behind the semicolon, or fails in front of it. -/
theorem declarationAfter_settles (declaration : Parser Stmt) (size : Nat) :
    ∀ start, Settles semicolon (declarationAfter declaration size start)
  | .classDeclaration => classAfter_settles ends declaration size
  | .functionDeclaration => (functionAfter_settles ends _ declaration size).map _
  | .varDeclaration => varAfter_settles ends size

variable {statement : Parser Stmt} (statements : Settles semicolon statement)

include statements

/-- A conditional statement ends behind the semicolon, or fails in front of it. -/
theorem branchAfter_settles (size : Nat) :
    Settles semicolon (branchAfter statement size) := by
  refine .after (parenthesized_governed (inFront ends) size _ _) fun condition => ?_
  refine statements.before fun consequent reader ended =>
    ⟨.branch condition consequent none, ?_⟩
  rw [bind_of_ok (next?_ended ended _)]
  rfl

/-- A statement without a loop or a block ends behind the semicolon, or fails in front of it. -/
theorem statementAfter_settles
    (declaration : Parser Stmt)
    (size : Nat)
    {start : StatementStart}
    (noLoop : start ≠ .forLoop)
    (noBlock : start ≠ .block) :
    Settles semicolon (statementAfter statement declaration size start) := by
  cases start with
  | forLoop => exact absurd rfl noLoop
  | branch => exact branchAfter_settles ends statements size
  | print =>
      exact .after (expressionWithin_governed (inFront ends) size) fun _ =>
        (Settles.closing ends _).before fun _ _ _ => ⟨_, rfl⟩
  | returnValue _ =>
      exact .after (optionalExpression_governed (inFront ends) size _) fun _ =>
        (Settles.closing ends _).before fun _ _ _ => ⟨_, rfl⟩
  | loop =>
      exact .after (parenthesized_governed (inFront ends) size _ _) fun _ =>
        statements.before fun _ _ _ => ⟨_, rfl⟩
  | block => exact absurd rfl noBlock

end

end

/--
The tokens of a statement in front of its semicolon, if it has no block and is no `for`
loop: what begins a statement stands in front only.
-/
structure OneStatement (tokens : List Token) : Prop where
  plain : ∀ token ∈ tokens,
    token.kind ≠ .symbol .semicolon ∧ token.kind ≠ .symbol .leftBrace ∧
      token.kind ≠ .symbol .rightBrace ∧ token.kind ≠ .keyword .forWord ∧
        token.kind ≠ .endOfInput
  inner : ∀ token ∈ tokens.tail, startsStatement token = false

/-- A keyword in front of such a statement is that of a declaration or of a statement. -/
theorem starts_of_startsStatement
    {token : Token}
    (starts : startsStatement token = true)
    (noLoop : token.kind ≠ .keyword .forWord) :
    (∃ start, declarationStart? token = some start) ∨
      declarationStart? token = none ∧
        ∃ start, statementStart? token = some start ∧ start ≠ .forLoop ∧ start ≠ .block := by
  unfold startsStatement at starts
  split at starts <;> simp_all [declarationStart?, statementStart?]

section

variable {semicolon : Token} (ends : semicolon.kind = .symbol .semicolon)
  {tokens : List Token} (simple : OneStatement tokens)
  {reader : Reader} (shape : reader.rest = tokens ++ [semicolon])

include ends simple shape

/-- The declaration at the start is read up to the semicolon, or stops in front of it. -/
theorem nextDeclaration_settles :
    (∀ value after, nextDeclaration reader = .ok value after → after.rest = []) ∧
      ∀ error after, nextDeclaration reader = .error error after →
        Inside semicolon after := by
  have covers : reader.rest.length ≤ tokens.length + 1 := by simp [shape]
  rw [← declarationWithin_eq covers]
  unfold declarationWithin
  have whole (inside : Inside semicolon reader) :=
    anyDeclaration_inside ends (statementWithin tokens.length)
      (declarationWithin tokens.length) (tokens.length + 1) inside ▸
        expressionStatement_settles ends (tokens.length + 1) reader inside
  cases tokens with
  | nil => exact whole ⟨[], shape, by simp⟩
  | cons first others =>
      obtain ⟨-, brace, -, noLoop, -⟩ := simple.plain first (by simp)
      have inners : ∀ token ∈ others, Inner token := fun token member =>
        have plain := simple.plain token (List.mem_cons_of_mem _ member)
        ⟨plain.1, plain.2.1, simple.inner token member⟩
      cases starts : startsStatement first with
      | false =>
          refine whole ⟨first :: others, shape, List.forall_mem_cons.mpr ⟨?_, inners⟩⟩
          exact ⟨(simple.plain first (by simp)).1, brace, starts⟩
      | true =>
          have inside : Inside semicolon { reader with rest := others ++ [semicolon] } :=
            ⟨others, rfl, inners⟩
          unfold anyDeclaration
          rcases starts_of_startsStatement starts noLoop with
            ⟨start, read⟩ | ⟨declined, start, read, noFor, noBlock⟩
          · rw [bind_of_ok (next?_takes shape read)]
            exact declarationAfter_settles ends _ _ start _ inside
          · rw [bind_of_ok (next?_declines (by simpa [shape] using declined))]
            dsimp only
            unfold anyStatement
            rw [bind_of_ok (next?_takes shape read)]
            exact statementAfter_settles ends (statementWithin_settles ends _) _ _ noFor
              noBlock _ inside

end

/-! ## Going on behind the semicolon -/

section

variable {semicolon : Token} (ends : semicolon.kind = .symbol .semicolon)

include ends

/-- A reader that skips tokens goes on behind the semicolon. -/
theorem resumeAfter_inside
    {dropped : Token}
    (different : dropped.kind ≠ .symbol .semicolon)
    {window : List Token}
    (inner : ∀ token ∈ window, Inner token)
    (rest : List Token) :
    resumeAfter dropped (window ++ semicolon :: rest) = rest := by
  induction window generalizing dropped with
  | nil =>
      have plain : startsStatement semicolon = false := by simp [startsStatement, ends]
      cases rest <;> simp [resumeAfter, different, plain, ends]
  | cons token window inductionHypothesis =>
      obtain ⟨first, others⟩ := List.forall_mem_cons.mp inner
      simp [resumeAfter, different, first.plain,
        inductionHypothesis first.semicolon others]

/-- From inside a statement, all up to its semicolon is dropped, and nothing more. -/
theorem Inside.resynchronize
    {reader : Reader}
    (inside : Inside semicolon reader)
    (rest : List Token) :
    resynchronize (reader.rest ++ rest) = rest := by
  obtain ⟨window, split, inner⟩ := inside
  rw [split, List.append_assoc]
  cases window with
  | nil => cases rest <;> simp [Grammar.resynchronize, resumeAfter, ends]
  | cons token window =>
      obtain ⟨first, others⟩ := List.forall_mem_cons.mp inner
      exact resumeAfter_inside ends first.semicolon others rest

end

/-! ## Errors, round by round -/

section

variable {reader after : Reader}

/-- A declaration that is read adds no error. -/
theorem readProgram_errors_of_read
    (left : reader.rest ≠ [])
    {statement : Stmt}
    (given : nextDeclaration reader = .ok statement after) :
    (readProgram reader).errors = (readProgram after).errors := by
  obtain ⟨outcomes, final, rounds⟩ := Rounds.exists after
  rw [(Rounds.more left (.read given) rounds).readProgram_eq, rounds.readProgram_eq]
  rfl

/-- A declaration that is rejected adds its error to those behind the skipped tokens. -/
theorem readProgram_errors_of_failed
    (left : reader.rest ≠ [])
    {error : SyntaxError}
    (stopped : nextDeclaration reader = .error error after) :
    (readProgram reader).errors =
      error :: (readProgram { after with rest := resynchronize after.rest }).errors := by
  obtain ⟨outcomes, final, rounds⟩ :=
    Rounds.exists { after with rest := resynchronize after.rest }
  rw [(Rounds.more left (.failed stopped) rounds).readProgram_eq, rounds.readProgram_eq]
  rfl

/-- No errors are found at the end of the tokens. -/
theorem readProgram_errors_of_ended (ended : reader.rest = []) :
    (readProgram reader).errors = [] := by
  rw [(Rounds.done ended).readProgram_eq]
  rfl

end

/-! ## Errors depend on tokens only -/

/--
Identities are handed out from two numbers on, and two lines may stand for each other
besides each line for itself.
-/
def shifted (line line' : Nat) (nextId nextId' : NodeId) : Matching where
  ids id id' := ∃ count, nextId + count = id ∧ nextId' + count = id'
  lines first second := first = second ∨ first = line ∧ second = line'
  unique := by
    rintro _ _ _ _ ⟨count, rfl, rfl⟩ ⟨count', rfl, rfl⟩
    rw [Nat.add_left_cancel_iff, Nat.add_left_cancel_iff]

/-- Readers in front of the same tokens are copies, shifted by where they stand. -/
theorem shifted_copies
    {left right : Reader}
    (rest : left.rest = right.rest) :
    ReaderCopies (shifted left.endLine right.endLine left.nextId right.nextId) left right where
  rest := rest ▸ TokenCopies.allSelf (fun _ => Or.inl rfl) left.rest
  endLine := Or.inr ⟨rfl, rfl⟩
  nextId count := ⟨count, rfl, rfl⟩

/-- The errors of a program do not depend on the identities that are handed out. -/
theorem readProgram_errors_eq
    {left right : Reader}
    (rest : left.rest = right.rest)
    (endLine : left.endLine = right.endLine) :
    (readProgram left).errors = (readProgram right).errors := by
  have keeps : (shifted left.endLine right.endLine left.nextId right.nextId).KeepsLines := by
    rintro line line' (same | ⟨rfl, rfl⟩)
    · exact same
    · exact endLine
  have copies := readProgramWithin_copies left.rest.length (shifted_copies rest)
  unfold readProgram
  rw [← rest]
  exact List.forall₂_eq_eq_eq ▸ copies.errors.imp fun _ _ same => same.eq keeps

section

variable {left right place place' after after' : Reader}

/-- Faults with as many tokens left of the same list are reported alike. -/
theorem report_eq
    (rest : left.rest = right.rest)
    (moves : Moves left place)
    (moves' : Moves right place')
    (remaining : place.rest.length = place'.rest.length)
    (some : place.rest ≠ [])
    (fault : SyntaxFault) :
    place.report fault = place'.report fault := by
  have same : place.rest = place'.rest := by
    have suffix := (recedes_of_moves moves).rest
    have suffix' := (recedes_of_moves moves').rest
    rw [rest] at suffix
    exact (List.suffix_of_suffix_length_le suffix suffix' remaining.le).eq_of_length remaining
  obtain ⟨token, others, shape⟩ := List.exists_cons_of_ne_nil some
  simp [Reader.report, ← same, shape]

/-- Nor does the error of a declaration depend on the line of the end of the input. -/
theorem nextDeclaration_error_eq
    (rest : left.rest = right.rest)
    {error : SyntaxError}
    (stopped : nextDeclaration left = .error error after)
    (some : after.rest ≠ []) :
    ∃ after', nextDeclaration right = .error error after' := by
  have read := (within_mirror left.rest.length).2 left right (shifted_copies rest)
  have given : declarationWithin left.rest.length left = .error error after := stopped
  rw [given] at read
  cases outcome : declarationWithin left.rest.length right with
  | ok value after' =>
      rw [outcome] at read
      cases read
  | error error' after' =>
      rw [outcome] at read
      cases read with
      | error copies further =>
          have stopped' : nextDeclaration right = .error error' after' := by
            unfold nextDeclaration
            rw [bind_of_ok (get_apply right), ← rest]
            exact outcome
          obtain ⟨place, moves, onwards, same⟩ :=
            (nextDeclaration_forward left).2 error after stopped
          obtain ⟨place', moves', -, same'⟩ :=
            (nextDeclaration_forward right).2 error' after' stopped'
          have remaining : place.rest.length = place'.rest.length := by
            have counts := copies.remaining
            rw [same, same'] at counts
            exact counts
          have left : place.rest ≠ [] := fun ended =>
            some (List.suffix_nil.mp (ended ▸ (recedes_of_moves onwards).rest))
          refine ⟨after', ?_⟩
          rw [stopped', same, same', copies.fault,
            report_eq rest moves moves' remaining left]

end

/-! ## Isolation -/

/-- The end of the input does not move with tokens that are put in front. -/
theorem start_endLine_append
    {front rest : List Token}
    (plain : ∀ token ∈ front, token.kind ≠ .endOfInput)
    (some : rest ≠ [])
    (nextId nextId' : NodeId) :
    (Reader.start (front ++ rest) nextId).endLine = (Reader.start rest nextId').endLine := by
  have proper : front.find? Reader.isEnd = none :=
    List.find?_eq_none.mpr fun token member => by
      simpa [Reader.isEnd] using plain token member
  unfold Reader.start
  simp [List.find?_append, proper, List.getLast?_append_of_ne_nil _ some]

/-- A reader at the start of joined tokens is one of the tokens in front, followed. -/
theorem start_split
    {front : List Token}
    (plain : ∀ token ∈ front, token.kind ≠ .endOfInput)
    (rest : List Token)
    (nextId nextId' : NodeId) :
    ∃ reader : Reader,
      reader.rest = front ∧
        reader.endLine = (Reader.start (front ++ rest) nextId).endLine ∧
          Reader.start (front ++ rest) nextId =
            reader.followedBy (Reader.start rest nextId').rest := by
  refine ⟨{ Reader.start (front ++ rest) nextId with rest := front }, rfl, rfl, ?_⟩
  have split : (Reader.start (front ++ rest) nextId).rest = front ++ _ :=
    List.takeWhile_append_of_pos fun token member => by
      simpa [Reader.isEnd] using plain token member
  exact congrArg (fun tokens => ({ Reader.start (front ++ rest) nextId with
    rest := tokens } : Reader)) split

section

variable {semicolon : Token} (ends : semicolon.kind = .symbol .semicolon)
  {tokens : List Token} (simple : OneStatement tokens) {reader after : Reader}
  {error : SyntaxError}

include ends simple

/-- A statement that fails is all that there is to report about it. -/
theorem failed_of_program_error
    (shape : reader.rest = tokens ++ [semicolon])
    (fails : program reader = .error error after) :
    (readProgram reader).errors = [error] ∧
      ∃ after, nextDeclaration reader = .error error after ∧ Inside semicolon after := by
  have settles := nextDeclaration_settles ends simple shape
  have some : reader.rest ≠ [] := by simp [shape]
  cases step : nextDeclaration reader with
  | ok value middle =>
      have faultless : (readProgram reader).errors = [] := by
        rw [readProgram_errors_of_read some step]
        exact readProgram_errors_of_ended (settles.1 value middle step)
      simp [program_of_faultless faultless] at fails
  | error fault middle =>
      have inside := settles.2 fault middle step
      have dropped : ({ middle with rest := resynchronize middle.rest } : Reader).rest = [] := by
        simpa using inside.resynchronize ends []
      have errors := readProgram_errors_of_failed some step
      rw [readProgram_errors_of_ended dropped] at errors
      obtain rfl : fault = error := by
        simp [program, ProgramReading.verdict, errors] at fails
        exact fails.1
      exact ⟨errors, middle, rfl, inside⟩

omit simple in
/-- What stands behind a statement that fails is read as it would be read alone. -/
theorem errors_followed
    (some : reader.rest ≠ [])
    (stopped : nextDeclaration reader = .error error after)
    (inside : Inside semicolon after)
    (rest : List Token) :
    (readProgram (reader.followedBy rest)).errors =
      SyntaxError.followedBy error rest ::
        (readProgram { after with rest := rest }).errors := by
  have given : declarationWithin reader.rest.length reader = .error error after := stopped
  have hides : (endState (declarationWithin reader.rest.length reader)).Hides rest := by
    obtain ⟨window, split, -⟩ := inside
    rw [given]
    intro _ ended
    exact absurd (split.symm.trans ended) (by simp)
  have twins := (within_twins rest (Nat.le_refl (reader.rest.length + rest.length))).2
  have same := twins.same reader (Nat.lt_succ_self _) hides
  have covers : (reader.followedBy rest).rest.length ≤
      reader.rest.length + rest.length := by simp
  have joined : nextDeclaration (reader.followedBy rest) =
      .error (SyntaxError.followedBy error rest) (after.followedBy rest) := by
    rw [← declarationWithin_eq covers, same, given]
    rfl
  have left : (reader.followedBy rest).rest ≠ [] := by simp [some]
  have dropped : resynchronize (after.rest ++ rest) = rest := inside.resynchronize ends rest
  rw [readProgram_errors_of_failed left joined, Reader.followedBy_rest, dropped]
  rfl

omit ends simple in
/-- The errors of the tokens behind are those of a program of these tokens. -/
theorem errors_behind
    {front rest : List Token}
    (plain : ∀ token ∈ front, token.kind ≠ .endOfInput)
    (nextId nextId' : NodeId)
    (endLine : reader.endLine = (Reader.start (front ++ rest) nextId).endLine) :
    (readProgram { reader with rest := (Reader.start rest nextId').rest }).errors =
      (readProgram (Reader.start rest nextId')).errors := by
  cases rest with
  | nil => rw [readProgram_errors_of_ended rfl, readProgram_errors_of_ended rfl]
  | cons token others =>
      exact readProgram_errors_eq rfl
        (endLine.trans (start_endLine_append plain (by simp) nextId nextId'))

/--
A statement without a block that does not parse is all that is lost.  Together with what
stands behind its semicolon, it is reported as it is alone, and then come exactly the
errors of what stands behind, as if that were all.
-/
theorem errors_isolated
    (rest : List Token)
    (nextId nextId' : NodeId)
    (fails : program (Reader.start (tokens ++ [semicolon]) nextId) = .error error after) :
    (readProgram (Reader.start (tokens ++ [semicolon]) nextId)).errors = [error] ∧
      (readProgram (Reader.start (tokens ++ [semicolon] ++ rest) nextId)).errors =
        { error with
            remaining := error.remaining + (Reader.start rest nextId').rest.length } ::
          (readProgram (Reader.start rest nextId')).errors := by
  have plain : ∀ token ∈ tokens ++ [semicolon], token.kind ≠ .endOfInput := by
    intro token member
    rcases List.mem_append.mp member with inner | last
    · exact (simple.plain token inner).2.2.2.2
    · obtain rfl : token = semicolon := List.mem_singleton.mp last
      simp [ends]
  have shape := Reader.start_rest plain nextId
  obtain ⟨alone, place, stopped, inside⟩ := failed_of_program_error ends simple shape fails
  refine ⟨alone, ?_⟩
  obtain ⟨joined, front, endLine, whole⟩ := start_split plain rest nextId nextId'
  have left : place.rest ≠ [] := by
    obtain ⟨window, split, -⟩ := inside
    simp [split]
  obtain ⟨place', stopped'⟩ : ∃ place', nextDeclaration joined = .error error place' :=
    nextDeclaration_error_eq (shape.trans front.symm) stopped left
  have inside' := (nextDeclaration_settles ends simple front).2 error place' stopped'
  have moves := ((nextDeclaration_forward joined).2 error place' stopped').moves
  have behind := errors_behind plain nextId nextId'
    ((recedes_of_moves moves).endLine.trans endLine)
  rw [whole, errors_followed ends (by simp [front]) stopped' inside', behind]
  rfl

end

/-- `print a + ;` is reported once, and then the `var ;` behind it. -/
theorem errors_isolated_at_print :
    let print : List Token :=
      [⟨.keyword .printWord, "print", 1⟩, ⟨.identifier, "a", 1⟩, ⟨.symbol .plus, "+", 1⟩]
    let semicolon : Token := ⟨.symbol .semicolon, ";", 1⟩
    let rest : List Token := [⟨.keyword .varWord, "var", 2⟩, ⟨.symbol .semicolon, ";", 2⟩]
    (readProgram (Reader.start (print ++ [semicolon] ++ rest) 0)).errors =
      [⟨.expressionExpected, some ";", 1, 3⟩, ⟨.variableNameExpected, some ";", 2, 1⟩] := by
  intro print semicolon rest
  have simple : OneStatement print := ⟨by decide, by decide⟩
  have fails : program (Reader.start (print ++ [semicolon]) 0) =
      .error ⟨.expressionExpected, some ";", 1, 1⟩ ⟨[], 1, 1⟩ := rfl
  have behind : (readProgram (Reader.start rest 0)).errors =
      [⟨.variableNameExpected, some ";", 2, 1⟩] := rfl
  exact (errors_isolated rfl simple rest 0 0 fails).2.trans (congrArg _ behind)

end Lox.Grammar
