import Lox.Proofs.Grammar.ProgramComplete

namespace Lox.Grammar

/-!
# The program parser accepts exactly its grammar

A token list is read as a program without an error exactly if the grammar derives
it, and then every derivation gives the program that was read, up to identities.
Reading on after an error changes nothing about this: the error stays.
-/

/-- Declarations that were read to the end without an error are derived. -/
theorem readProgramWithin_reads
    (fuel : Nat)
    (reader : Reader)
    (covers : reader.rest.length ≤ fuel)
    (faultless : (readProgramWithin fuel reader).errors = []) :
    ParsesAs DerivesDeclarations (·.flatMap Stmt.ids) reader
        (readProgramWithin fuel reader).statements
        (readProgramWithin fuel reader).reader ∧
      (readProgramWithin fuel reader).reader.rest = [] := by
  induction fuel generalizing reader with
  | zero =>
      have ended : reader.rest = [] := List.eq_nil_of_length_eq_zero (by omega)
      exact ⟨⟨.none, .none (Nat.le_refl _)⟩, ended⟩
  | succ fuel inductionHypothesis =>
      unfold readProgramWithin at faultless ⊢
      cases ended : reader.rest.isEmpty with
      | true =>
          simp only [↓reduceIte]
          exact ⟨⟨.none, .none (Nat.le_refl _)⟩, List.isEmpty_iff.mp ended⟩
      | false =>
          rw [ended] at faultless
          simp only [Bool.false_eq_true, ↓reduceIte] at faultless ⊢
          cases step : declarationWithin (fuel + 1) reader with
          | error error next => simp [step] at faultless
          | ok first next =>
              rw [step] at faultless
              simp only at faultless ⊢
              obtain ⟨derived, fresh⟩ := (within_reads (fuel + 1)).2 step
              have shorter := derived.shorter
              obtain ⟨⟨othersDerived, othersFresh⟩, finished⟩ :=
                inductionHypothesis next (by omega) faultless
              refine ⟨⟨.more derived othersDerived, ?_⟩, finished⟩
              simpa using fresh.append othersFresh

/-- A reading without errors gives a program. -/
theorem program_of_faultless
    {reader : Reader}
    (faultless : (readProgram reader).errors = []) :
    program reader =
      .ok (readProgram reader).statements (readProgram reader).reader := by
  simp [program, ProgramReading.verdict, faultless]

/-- A program that was read is derived from all tokens. -/
theorem program_reads
    {reader final : Reader}
    {statements : List Stmt}
    (given : program reader = .ok statements final) :
    ParsesAs DerivesDeclarations (·.flatMap Stmt.ids) reader statements final ∧
      final.rest = [] := by
  unfold program ProgramReading.verdict at given
  cases faults : (readProgram reader).errors with
  | cons error others => simp [faults] at given
  | nil =>
      simp only [faults, List.head?_nil, EStateM.Result.ok.injEq] at given
      obtain ⟨rfl, rfl⟩ := given
      exact readProgramWithin_reads reader.rest.length reader (Nat.le_refl _) faults

/-- A token list that derives as a program is read as one. -/
theorem DerivesProgram.taken
    {tokens : List Token}
    {trees : List Stmt}
    (derived : DerivesProgram tokens trees)
    {reader : Reader}
    (shape : reader.rest = tokens) :
    ∃ statements final,
      program reader = .ok statements final ∧ LikeStatements trees statements := by
  obtain ⟨faultless, likes⟩ :=
    derived.read reader.rest.length (Nat.le_of_eq (by rw [shape])) reader shape
  exact ⟨_, _, program_of_faultless faultless, likes⟩

/--
A fresh reader of tokens accepts them as a program exactly if the grammar derives
them, with every `else` at the nearest branch and at most 255 parameters and
arguments.  What it gives is derived itself, and every derivation of the tokens
gives the same program up to identities.
-/
theorem program_exact
    (tokens : List Token)
    (nextId : NodeId)
    (plain : ∀ token ∈ tokens, token.kind ≠ .endOfInput) :
    ((∃ statements final,
          program (Reader.start tokens nextId) = .ok statements final) ↔
        ∃ trees, DerivesProgram tokens trees) ∧
      ∀ statements final,
        program (Reader.start tokens nextId) = .ok statements final →
        DerivesProgram tokens statements ∧
          ∀ trees, DerivesProgram tokens trees →
            Stmt.shapes trees = Stmt.shapes statements := by
  have start := Reader.start_rest plain nextId
  have sound :
      ∀ statements final,
        program (Reader.start tokens nextId) = .ok statements final →
        DerivesProgram tokens statements := by
    intro statements final given
    obtain ⟨parsed, ended⟩ := program_reads given
    have derived := parsed.derived
    rwa [start, ended] at derived
  refine ⟨⟨?_, ?_⟩, ?_⟩
  · rintro ⟨statements, final, given⟩
    exact ⟨statements, sound statements final given⟩
  · rintro ⟨trees, derived⟩
    obtain ⟨statements, final, given, -⟩ := derived.taken start
    exact ⟨statements, final, given⟩
  · intro statements final given
    refine ⟨sound statements final given, ?_⟩
    intro trees derived
    obtain ⟨found, ending, read, likes⟩ := derived.taken start
    rw [given] at read
    obtain ⟨rfl, -⟩ : statements = found ∧ final = ending := by simpa using read
    exact likes.symm

/-- The tokens of `if (a) if (b) {} else c;` are a program. -/
theorem program_exact_nested_branches :
    let tokens : List Token :=
      [⟨.keyword .ifWord, "if", 1⟩, ⟨.symbol .leftParen, "(", 1⟩,
        ⟨.identifier, "a", 1⟩, ⟨.symbol .rightParen, ")", 1⟩,
        ⟨.keyword .ifWord, "if", 1⟩, ⟨.symbol .leftParen, "(", 1⟩,
        ⟨.identifier, "b", 1⟩, ⟨.symbol .rightParen, ")", 1⟩,
        ⟨.symbol .leftBrace, "\x7b", 1⟩, ⟨.symbol .rightBrace, "\x7d", 1⟩,
        ⟨.keyword .elseWord, "else", 1⟩,
        ⟨.identifier, "c", 1⟩, ⟨.symbol .semicolon, ";", 1⟩]
    (∀ token ∈ tokens, token.kind ≠ .endOfInput) ∧
      ∃ trees, DerivesProgram tokens trees := by
  intro tokens
  have plain : ∀ token ∈ tokens, token.kind ≠ .endOfInput := by decide
  have faultless : (readProgram (Reader.start tokens 0)).errors = [] :=
    List.isEmpty_iff.mp (by decide +kernel)
  exact ⟨plain,
    (program_exact tokens 0 plain).1.mp ⟨_, _, program_of_faultless faultless⟩⟩

end Lox.Grammar
