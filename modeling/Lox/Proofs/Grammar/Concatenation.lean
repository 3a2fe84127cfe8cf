import Lox.Proofs.Grammar.Printed
import Lox.Proofs.Grammar.Recovery

namespace Lox.Grammar

/-!
# Programs one behind the other

A derivation of declarations does not look at what stands behind its tokens.  Only a parser
that has read a branch without `else` asks what comes next.  So declarations in front of
tokens that do not begin with `else` are read as they are by themselves; what follows is
then read as a program of its own, with the same declarations and the same errors.
-/

/-! ## Derivations with tokens behind them -/

section

variable (tail : List Token) {before after : List Token}

/-- An expression that may be left out is derived in front of further tokens. -/
theorem DerivesOptional.behind
    {value : Option Expr}
    (derived : DerivesOptional before value after) :
    DerivesOptional (before ++ tail) value (after ++ tail) := by
  cases derived with
  | absent => exact .absent
  | present derived => exact .present (derived.behind tail)

/-- A condition in parentheses is derived in front of further tokens. -/
theorem DerivesCondition.behind
    {condition : Expr}
    (derived : DerivesCondition before condition after) :
    DerivesCondition (before ++ tail) condition (after ++ tail) := by
  cases derived with
  | intro opening derived closing => exact .intro opening (derived.behind tail) closing

/-- An effect is derived in front of further tokens. -/
theorem DerivesEffect.behind
    {effect : Stmt}
    (derived : DerivesEffect before effect after) :
    DerivesEffect (before ++ tail) effect (after ++ tail) := by
  cases derived with
  | intro derived semicolon => exact .intro (derived.behind tail) semicolon

/-- A variable declaration is derived in front of further tokens. -/
theorem DerivesVariable.behind
    {declaration : Stmt}
    (derived : DerivesVariable before declaration after) :
    DerivesVariable (before ++ tail) declaration (after ++ tail) := by
  cases derived with
  | plain named semicolon => exact .plain named semicolon
  | initialized named equals derived semicolon =>
      exact .initialized named equals (derived.behind tail) semicolon

/-- The first clause of a `for` loop is derived in front of further tokens. -/
theorem DerivesInitializer.behind
    {initializer : Option Stmt}
    (derived : DerivesInitializer before initializer after) :
    DerivesInitializer (before ++ tail) initializer (after ++ tail) := by
  cases derived with
  | absent semicolon => exact .absent semicolon
  | declared keyword derived => exact .declared keyword (derived.behind tail)
  | effect derived => exact .effect (derived.behind tail)

/-- Names are derived in front of further tokens. -/
theorem DerivesNames.behind
    {names : List Identifier}
    (derived : DerivesNames before names after) :
    DerivesNames (before ++ tail) names (after ++ tail) := by
  induction derived with
  | last named => exact .last named
  | more named comma _ inductionHypothesis => exact .more named comma inductionHypothesis

/-- Parameters are derived in front of further tokens. -/
theorem DerivesParameters.behind
    {names : List Identifier}
    (derived : DerivesParameters before names after) :
    DerivesParameters (before ++ tail) names (after ++ tail) := by
  cases derived with
  | none => exact .none
  | some derived few => exact .some (derived.behind tail) few

/-- A superclass is derived in front of further tokens. -/
theorem DerivesSuperclass.behind
    {superclass : Option Reference}
    (derived : DerivesSuperclass before superclass after) :
    DerivesSuperclass (before ++ tail) superclass (after ++ tail) := by
  cases derived with
  | absent => exact .absent
  | present less named => exact .present less named

end

mutual

/-- A derivation of a statement has any tokens behind it, also an `else`. -/
theorem DerivesStatement.behind (tail : List Token) :
    ∀ {ending before tree after},
      DerivesStatement ending before tree after →
      DerivesStatement ending (before ++ tail) tree (after ++ tail)
  | _, _, _, _, .effect derived => .effect (derived.behind tail)
  | _, _, _, _, .print kind value semicolon => .print kind (value.behind tail) semicolon
  | _, _, _, _, .returnValue kind value semicolon =>
      .returnValue kind (value.behind tail) semicolon
  | _, _, _, _, .block opening body closing => .block opening (body.behind tail) closing
  | _, _, _, _, .whileLoop kind condition body =>
      .whileLoop kind (condition.behind tail) (body.behind tail)
  | _, _, _, _, .ifThen kind condition consequent =>
      .ifThen kind (condition.behind tail) (consequent.behind tail)
  | _, _, _, _, .ifThenElse kind condition consequent separator alternative =>
      .ifThenElse kind (condition.behind tail) (consequent.behind tail) separator
        (alternative.behind tail)
  | _, _, _, _, .forLoop kind opening initializer condition semicolon increment closing body
      isLoop =>
      .forLoop kind opening (initializer.behind tail) (condition.behind tail) semicolon
        (increment.behind tail) closing (body.behind tail) isLoop

/-- A derivation of a declaration has any tokens behind it. -/
theorem DerivesDeclaration.behind (tail : List Token) :
    ∀ {before tree after},
      DerivesDeclaration before tree after →
      DerivesDeclaration (before ++ tail) tree (after ++ tail)
  | _, _, _, .classDeclaration kind named superclass opening methods closing =>
      .classDeclaration kind named (superclass.behind tail) opening (methods.behind tail)
        closing
  | _, _, _, .functionDeclaration kind function =>
      .functionDeclaration kind (function.behind tail)
  | _, _, _, .varDeclaration kind declaration =>
      .varDeclaration kind (declaration.behind tail)
  | _, _, _, .statement derived => .statement (derived.behind tail)

/-- Declarations in a row are derived in front of further tokens. -/
theorem DerivesDeclarations.behind (tail : List Token) :
    ∀ {before trees after},
      DerivesDeclarations before trees after →
      DerivesDeclarations (before ++ tail) trees (after ++ tail)
  | _, _, _, .none => .none
  | _, _, _, .more first rest => .more (first.behind tail) (rest.behind tail)

/-- A function is derived in front of further tokens. -/
theorem DerivesFunction.behind (tail : List Token) :
    ∀ {before tree after},
      DerivesFunction before tree after →
      DerivesFunction (before ++ tail) tree (after ++ tail)
  | _, _, _, .intro named opening parameters closing brace body closingBrace =>
      .intro named opening (parameters.behind tail) closing brace (body.behind tail)
        closingBrace

/-- Methods are derived in front of further tokens. -/
theorem DerivesMethods.behind (tail : List Token) :
    ∀ {before trees after},
      DerivesMethods before trees after →
      DerivesMethods (before ++ tail) trees (after ++ tail)
  | _, _, _, .none => .none
  | _, _, _, .more first rest => .more (first.behind tail) (rest.behind tail)

end

/-- Declarations and those behind them are declarations. -/
theorem DerivesDeclarations.append
    {before middle after : List Token}
    {trees others : List Stmt}
    (derived : DerivesDeclarations before trees middle)
    (rest : DerivesDeclarations middle others after) :
    DerivesDeclarations before (trees ++ others) after := by
  induction trees generalizing before with
  | nil =>
      cases derived with
      | none => exact rest
  | cons tree trees inductionHypothesis =>
      cases derived with
      | more first remaining => exact .more first (inductionHypothesis remaining)

/-- A program behind a program is one with the declarations of both. -/
theorem DerivesProgram.append
    {front rest : List Token}
    {trees others : List Stmt}
    (derived : DerivesProgram front trees)
    (derivedRest : DerivesProgram rest others) :
    DerivesProgram (front ++ rest) (trees ++ others) :=
  DerivesDeclarations.append (derived.behind rest) derivedRest

/-! ## Reading declarations in front of other tokens -/

/-- Rounds that give declarations, one for each of them. -/
theorem reportedBy_append_of_ok
    (found : List Stmt)
    (outcomes : List (Except SyntaxError Stmt)) :
    reportedBy (found.map .ok ++ outcomes) = reportedBy outcomes := by
  induction found with
  | nil => rfl
  | cons statement found inductionHypothesis => exact inductionHypothesis

/--
Derived declarations are read round by round, up to what follows them.  From there the
rounds go on as they would from the start.
-/
theorem DerivesDeclarations.rounds
    {before after : List Token}
    {trees : List Stmt}
    (derived : DerivesDeclarations before trees after)
    (lacking : Lacks (.keyword .elseWord) after)
    {reader : Reader}
    (shape : reader.rest = before) :
    ∃ (found : List Stmt) (middle : Reader),
      middle.rest = after ∧ Moves reader middle ∧
        ∀ {outcomes final}, Rounds middle outcomes final →
          Rounds reader (found.map .ok ++ outcomes) final := by
  induction trees generalizing before reader with
  | nil =>
      cases derived with
      | none => exact ⟨[], reader, shape, .refl, id⟩
  | cons tree trees inductionHypothesis =>
      cases derived with
      | @more _ _ rest _ _ first others =>
          have noElse := others.lacks_else lacking
          obtain ⟨statement, next, given, left, -⟩ :=
            first.complete before.length (Nat.le_refl _) noElse reader shape
          have round : Round reader (.ok statement) next := by
            refine .read ?_
            rw [← given, ← shape]
            rfl
          obtain ⟨found, middle, arrived, moves, goesOn⟩ := inductionHypothesis others left
          refine ⟨statement :: found, middle, arrived, round.moves.trans moves, ?_⟩
          intro outcomes final rounds
          have some : reader.rest ≠ [] := by
            intro ended
            have shorter := first.shorter
            rw [← shape, ended] at shorter
            exact Nat.not_lt_zero _ shorter
          exact .more some round (goesOn rounds)

/-- The first of some tokens is also the first one that a reader of them has. -/
theorem lacks_start
    {kind : TokenKind}
    {tokens : List Token}
    (lacking : Lacks kind tokens)
    (nextId : NodeId) :
    Lacks kind (Reader.start tokens nextId).rest := by
  intro token member
  refine lacking token ?_
  have first : (tokens.takeWhile (!Reader.isEnd ·)).head? = some token := member
  rw [List.head?_takeWhile, Option.filter_eq_some_iff] at first
  exact first.1

/-- Tokens in front of others stand in front of what a reader of these has. -/
theorem start_rest_append
    {front rest : List Token}
    (plain : ∀ token ∈ front, token.kind ≠ .endOfInput)
    (restId joinedId : NodeId) :
    (Reader.start (front ++ rest) joinedId).rest =
      front ++ (Reader.start rest restId).rest := by
  obtain ⟨reader, shape, -, whole⟩ := start_split plain rest joinedId restId
  rw [whole, Reader.followedBy_rest, shape]

section

variable {front rest : List Token} {first : List Stmt} {after : Reader} {frontId : NodeId}
  (plain : ∀ token ∈ front, token.kind ≠ .endOfInput)
  (accepted : program (Reader.start front frontId) = .ok first after)

include plain accepted

theorem derives_of_program : DerivesProgram front first := by
  obtain ⟨parsed, ended⟩ := program_reads accepted
  have derived := parsed.derived
  rwa [Reader.start_rest plain frontId, ended] at derived

/-- Behind an accepted program, the errors are those of what follows. -/
theorem errors_append
    (lacking : Lacks (.keyword .elseWord) rest)
    (restId joinedId : NodeId) :
    (readProgram (Reader.start (front ++ rest) joinedId)).errors =
      (readProgram (Reader.start rest restId)).errors := by
  have derived :
      DerivesDeclarations (front ++ (Reader.start rest restId).rest) first
        (Reader.start rest restId).rest :=
    (derives_of_program plain accepted).behind _
  obtain ⟨found, middle, arrived, moves, goesOn⟩ :=
    derived.rounds (lacks_start lacking restId)
      (start_rest_append plain restId joinedId)
  obtain ⟨outcomes, final, rounds⟩ := Rounds.exists middle
  have alone :
      (readProgram { middle with rest := (Reader.start rest restId).rest }).errors =
        (readProgram (Reader.start rest restId)).errors :=
    errors_behind plain joinedId restId (recedes_of_moves moves).endLine
  rw [← arrived] at alone
  calc
    (readProgram (Reader.start (front ++ rest) joinedId)).errors
        = reportedBy (found.map .ok ++ outcomes) := by
      rw [(goesOn rounds).readProgram_eq]
    _ = (readProgram middle).errors := by
      rw [reportedBy_append_of_ok, rounds.readProgram_eq]
    _ = (readProgram (Reader.start rest restId)).errors := alone

/-- Behind an accepted program, another one is read with its declarations. -/
theorem statements_append
    (restId joinedId : NodeId)
    {others : List Stmt}
    {final : Reader}
    (acceptedRest : program (Reader.start rest restId) = .ok others final) :
    ∃ statements ending,
      program (Reader.start (front ++ rest) joinedId) = .ok statements ending ∧
        Stmt.shapes statements = Stmt.shapes (first ++ others) := by
  obtain ⟨parsed, ended⟩ := program_reads acceptedRest
  have derivedRest : DerivesProgram (Reader.start rest restId).rest others := by
    have derived := parsed.derived
    rwa [ended] at derived
  have derived := (derives_of_program plain accepted).append derivedRest
  obtain ⟨statements, ending, given, likes⟩ :=
    derived.taken (start_rest_append plain restId joinedId)
  exact ⟨statements, ending, given, likes⟩

end

/-! ## The outcome of a program -/

/-- Whether a program is accepted, and with which error it is rejected, is up to its errors. -/
theorem program_eq_ok_iff {reader : Reader} :
    (∃ statements final, program reader = .ok statements final) ↔
      (readProgram reader).errors = [] := by
  constructor
  · rintro ⟨statements, final, given⟩
    cases faults : (readProgram reader).errors with
    | nil => rfl
    | cons error others => simp [program, ProgramReading.verdict, faults] at given
  · intro faultless
    exact ⟨_, _, program_of_faultless faultless⟩

/-- A program is rejected with the first of its errors. -/
theorem program_eq_error_iff {reader : Reader} {error : SyntaxError} :
    (∃ final, program reader = .error error final) ↔
      (readProgram reader).errors.head? = some error := by
  cases faults : (readProgram reader).errors with
  | nil => simp [program, ProgramReading.verdict, faults]
  | cons found others => simp [program, ProgramReading.verdict, faults]

/--
Behind an accepted program, tokens that do not begin with `else` are accepted exactly if
they are accepted by themselves, and then the declarations are those of the program
followed by theirs, up to identities.  In any case the errors that are reported are the
same in the same order, so that the two readings fail with the same error or not at all.
-/
theorem program_append
    {front rest : List Token}
    (plain : ∀ token ∈ front, token.kind ≠ .endOfInput)
    {frontId : NodeId}
    {first : List Stmt}
    {after : Reader}
    (accepted : program (Reader.start front frontId) = .ok first after)
    (lacking : Lacks (.keyword .elseWord) rest)
    (restId joinedId : NodeId) :
    ((∃ statements final,
          program (Reader.start (front ++ rest) joinedId) = .ok statements final) ↔
        ∃ others final, program (Reader.start rest restId) = .ok others final) ∧
      (∀ others final, program (Reader.start rest restId) = .ok others final →
        ∃ statements ending,
          program (Reader.start (front ++ rest) joinedId) = .ok statements ending ∧
            Stmt.shapes statements = Stmt.shapes (first ++ others)) ∧
      (readProgram (Reader.start (front ++ rest) joinedId)).errors =
        (readProgram (Reader.start rest restId)).errors ∧
      ∀ error,
        (∃ final, program (Reader.start (front ++ rest) joinedId) = .error error final) ↔
          ∃ final, program (Reader.start rest restId) = .error error final := by
  have errors := errors_append plain accepted lacking restId joinedId
  refine ⟨?accepts, ?statements, errors, ?rejects⟩
  case accepts => rw [program_eq_ok_iff, program_eq_ok_iff, errors]
  case statements =>
    intro others final acceptedRest
    exact statements_append plain accepted restId joinedId acceptedRest
  case rejects =>
    intro error
    rw [program_eq_error_iff, program_eq_error_iff, errors]

/-- Behind `if (a) b;`, the errors of `var ; c` are all that is reported. -/
theorem program_append_branch :
    let branch : List Token :=
      [⟨.keyword .ifWord, "if", 1⟩, ⟨.symbol .leftParen, "(", 1⟩, ⟨.identifier, "a", 1⟩,
        ⟨.symbol .rightParen, ")", 1⟩, ⟨.identifier, "b", 1⟩, ⟨.symbol .semicolon, ";", 1⟩]
    let rest : List Token :=
      [⟨.keyword .varWord, "var", 2⟩, ⟨.symbol .semicolon, ";", 2⟩, ⟨.identifier, "c", 3⟩]
    (∀ token ∈ branch, token.kind ≠ .endOfInput) ∧
      (∃ first after, program (Reader.start branch 0) = .ok first after) ∧
      Lacks (.keyword .elseWord) rest ∧
      (readProgram (Reader.start (branch ++ rest) 0)).errors =
        [⟨.variableNameExpected, some ";", 2, 2⟩, ⟨.expressionEndExpected, none, 3, 0⟩] := by
  intro branch rest
  have plain : ∀ token ∈ branch, token.kind ≠ .endOfInput := by decide
  have lacking : Lacks (.keyword .elseWord) rest := lacks_cons (by decide) _
  obtain ⟨first, after, accepted⟩ :
      ∃ first after, program (Reader.start branch 0) = .ok first after := ⟨_, _, rfl⟩
  have behind : (readProgram (Reader.start rest 0)).errors =
      [⟨.variableNameExpected, some ";", 2, 2⟩, ⟨.expressionEndExpected, none, 3, 0⟩] := rfl
  have errors := (program_append plain accepted lacking 0 0).2.2.1
  exact ⟨plain, ⟨first, after, accepted⟩, lacking, errors.trans behind⟩

end Lox.Grammar
