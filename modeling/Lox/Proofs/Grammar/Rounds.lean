import Lox.Proofs.Grammar.Twins

namespace Lox.Grammar

/-!
# Reading a program goes round by round

The budgets of the parsers never run out, so they can be left out of what a parser does.
An expression, a statement or a declaration asks for nested ones only where fewer tokens
are left.  A program is read in rounds, each of which is a declaration or an error with
the tokens that are dropped after it.  Every round takes a token at least, so the rounds
come to the end of the input, and no token is reported twice.
-/

/-- A statement, with a budget that covers the tokens left. -/
def nextStatement : Parser Stmt := do
  statementWithin (← get).rest.length

/-- A declaration, with a budget that covers the tokens left. -/
def nextDeclaration : Parser Stmt := do
  declarationWithin (← get).rest.length

/-! ## Budgets -/

section

variable {reader : Reader} {size : Nat} (covers : reader.rest.length ≤ size)

include covers

/-- Every budget that covers the tokens left is as good as any other. -/
theorem expressionWithin_eq : expressionWithin size reader = expression reader :=
  (expressionWithin_twins [] (by simpa using covers)).eq (Nat.lt_succ_self _)

/-- A budget that covers the tokens reads the next statement. -/
theorem statementWithin_eq : statementWithin size reader = nextStatement reader :=
  (within_twins [] (by simpa using covers)).1.eq (Nat.lt_succ_self _)

/-- A budget that covers the tokens reads the next declaration. -/
theorem declarationWithin_eq : declarationWithin size reader = nextDeclaration reader :=
  (within_twins [] (by simpa using covers)).2.eq (Nat.lt_succ_self _)

/--
An expression is read by its rule in terms of expressions that are asked for where fewer
tokens are left; what the nested parser does elsewhere does not matter.
-/
theorem expression_guarded
    {inner : Parser Expr}
    (agrees : ∀ shorter : Reader, shorter.rest.length < reader.rest.length →
      inner shorter = expression shorter) :
    assignment inner size reader = expression reader := by
  have budget (shorter : Reader) (short : shorter.rest.length < reader.rest.length) :
      expressionWithin size shorter = expression shorter :=
    expressionWithin_eq (by omega)
  have nested : Twins [] reader.rest.length (expressionWithin size) inner :=
    .of_agrees (expressionWithin_forward size) fun shorter short => by
      rw [agrees shorter short, budget shorter short]
  have tied : Twins [] reader.rest.length (expressionWithin size) (expressionWithin size) :=
    .of_agrees (expressionWithin_forward size) fun _ _ => rfl
  calc
    assignment inner size reader
        = assignment (expressionWithin size) reader.rest.length reader :=
      (Twins.assignment nested (Nat.le_refl _) covers).eq (Nat.lt_succ_self _)
    _ = expressionWithin (size + 1) reader :=
      ((Twins.assignment tied (Nat.le_refl _) (Nat.le_succ_of_le covers)).eq
        (Nat.lt_succ_self _)).symm
    _ = expression reader := expressionWithin_eq (Nat.le_succ_of_le covers)

section

variable {statement declaration : Parser Stmt}

/-- The same for parsers that read statements and declarations where less is left. -/
theorem nested_twins
    (statements : ∀ shorter : Reader, shorter.rest.length < reader.rest.length →
      statement shorter = nextStatement shorter)
    (declarations : ∀ shorter : Reader, shorter.rest.length < reader.rest.length →
      declaration shorter = nextDeclaration shorter) :
    Twins [] reader.rest.length (statementWithin size) statement ∧
      Twins [] reader.rest.length (declarationWithin size) declaration := by
  constructor
  · refine .of_agrees (statementWithin_forward size) fun shorter short => ?_
    rw [statements shorter short, statementWithin_eq (by omega)]
  · refine .of_agrees (declarationWithin_forward size) fun shorter short => ?_
    rw [declarations shorter short, declarationWithin_eq (by omega)]

/--
Statements and declarations are read by their rules in terms of nested ones that are
asked for where fewer tokens are left.
-/
theorem statement_guarded
    (statements : ∀ shorter : Reader, shorter.rest.length < reader.rest.length →
      statement shorter = nextStatement shorter)
    (declarations : ∀ shorter : Reader, shorter.rest.length < reader.rest.length →
      declaration shorter = nextDeclaration shorter) :
    anyStatement statement declaration size reader = nextStatement reader := by
  have reads := (within_reads size).2
  obtain ⟨asked, declared⟩ := nested_twins covers statements declarations
  obtain ⟨tied, tied'⟩ := nested_twins covers
    (fun shorter short => statementWithin_eq (by omega : shorter.rest.length ≤ size))
    (fun shorter short => declarationWithin_eq (by omega : shorter.rest.length ≤ size))
  calc
    anyStatement statement declaration size reader
        = anyStatement (statementWithin size) (declarationWithin size)
            reader.rest.length reader :=
      (Twins.anyStatement asked declared reads (Nat.le_refl _) covers).eq
        (Nat.lt_succ_self _)
    _ = statementWithin (size + 1) reader :=
      ((Twins.anyStatement tied tied' reads (Nat.le_refl _)
        (Nat.le_succ_of_le covers)).eq (Nat.lt_succ_self _)).symm
    _ = nextStatement reader := statementWithin_eq (Nat.le_succ_of_le covers)

/-- A declaration depends on what is inside of it for fewer tokens only. -/
theorem declaration_guarded
    (statements : ∀ shorter : Reader, shorter.rest.length < reader.rest.length →
      statement shorter = nextStatement shorter)
    (declarations : ∀ shorter : Reader, shorter.rest.length < reader.rest.length →
      declaration shorter = nextDeclaration shorter) :
    anyDeclaration statement declaration size reader = nextDeclaration reader := by
  have reads := (within_reads size).2
  obtain ⟨asked, declared⟩ := nested_twins covers statements declarations
  obtain ⟨tied, tied'⟩ := nested_twins covers
    (fun shorter short => statementWithin_eq (by omega : shorter.rest.length ≤ size))
    (fun shorter short => declarationWithin_eq (by omega : shorter.rest.length ≤ size))
  calc
    anyDeclaration statement declaration size reader
        = anyDeclaration (statementWithin size) (declarationWithin size)
            reader.rest.length reader :=
      (Twins.anyDeclaration asked declared reads (Nat.le_refl _) covers).eq
        (Nat.lt_succ_self _)
    _ = declarationWithin (size + 1) reader :=
      ((Twins.anyDeclaration tied tied' reads (Nat.le_refl _)
        (Nat.le_succ_of_le covers)).eq (Nat.lt_succ_self _)).symm
    _ = nextDeclaration reader := declarationWithin_eq (Nat.le_succ_of_le covers)

end

end

/-! ## Rounds -/

/-- One round of reading a program, what it gives, and where it ends. -/
inductive Round : Reader → Except SyntaxError Stmt → Reader → Prop where
  | read {reader after : Reader} {statement : Stmt}
      (given : nextDeclaration reader = .ok statement after) :
      Round reader (.ok statement) after
  | failed {reader after : Reader} {error : SyntaxError}
      (stopped : nextDeclaration reader = .error error after) :
      Round reader (.error error) { after with rest := resynchronize after.rest }

/-- Rounds in a row up to the end of the input. -/
inductive Rounds : Reader → List (Except SyntaxError Stmt) → Reader → Prop where
  | done {reader : Reader} (ended : reader.rest = []) : Rounds reader [] reader
  | more {reader middle after : Reader} {outcome : Except SyntaxError Stmt}
      {outcomes : List (Except SyntaxError Stmt)}
      (left : reader.rest ≠ [])
      (round : Round reader outcome middle)
      (others : Rounds middle outcomes after) :
      Rounds reader (outcome :: outcomes) after

/-- The declarations that rounds have given. -/
def readBy : List (Except SyntaxError Stmt) → List Stmt
  | [] => []
  | .ok statement :: others => statement :: readBy others
  | .error _ :: others => readBy others

/-- The errors that rounds have reported. -/
def reportedBy : List (Except SyntaxError Stmt) → List SyntaxError
  | [] => []
  | .ok _ :: others => reportedBy others
  | .error error :: others => error :: reportedBy others

section

variable {reader after : Reader} {outcome : Except SyntaxError Stmt}

theorem nextDeclaration_forward : forward.Governs nextDeclaration := fun reader =>
  declarationWithin_forward reader.rest.length reader

theorem Round.exists (reader : Reader) : ∃ outcome after, Round reader outcome after := by
  cases step : nextDeclaration reader with
  | ok statement after => exact ⟨_, _, .read step⟩
  | error error after => exact ⟨_, _, .failed step⟩

/-- An error of a round is reported at a token that the round comes past. -/
theorem Round.reported
    {error : SyntaxError}
    (round : Round reader (.error error) after) :
    ReportedBetween reader error after := by
  cases round with
  | @failed middle _ stopped =>
      exact ((nextDeclaration_forward reader).2 error middle stopped).later
        (moves_resynchronize middle)

theorem Round.moves (round : Round reader outcome after) : Moves reader after := by
  cases round with
  | read given => exact (nextDeclaration_forward reader).1 _ _ given
  | failed stopped => exact (Round.failed stopped).reported.moves

/-- A round takes a token at least, also where a declaration fails without taking one. -/
theorem Round.shorter
    (round : Round reader outcome after)
    (left : reader.rest ≠ []) :
    after.rest.length < reader.rest.length := by
  cases round with
  | read given => exact ((within_reads reader.rest.length).2 given).1.shorter
  | @failed middle error stopped =>
      have moves := ((nextDeclaration_forward reader).2 error middle stopped).moves
      have before := (recedes_of_moves moves).rest.length_le
      have dropped := (resynchronize_suffix middle.rest).length_le
      have some := List.length_pos_iff.mpr left
      simp only [List.length_tail] at dropped ⊢
      omega

/-- The rounds from any reader come to the end of the input. -/
theorem Rounds.exists (reader : Reader) :
    ∃ outcomes after, Rounds reader outcomes after := by
  by_cases left : reader.rest = []
  · exact ⟨[], reader, .done left⟩
  · obtain ⟨outcome, middle, round⟩ := Round.exists reader
    have shorter := round.shorter left
    obtain ⟨outcomes, after, others⟩ := Rounds.exists middle
    exact ⟨outcome :: outcomes, after, .more left round others⟩
termination_by reader.rest.length

/-- With any fuel, nothing is read where the tokens have ended. -/
theorem readProgramWithin_ended
    (fuel : Nat)
    (ended : reader.rest = []) :
    readProgramWithin fuel reader = ⟨[], [], reader⟩ := by
  cases fuel with
  | zero => rfl
  | succ fuel => simp [readProgramWithin, ended]

variable {outcomes : List (Except SyntaxError Stmt)}

/-- With every budget that covers the tokens left, a program is what its rounds give. -/
theorem Rounds.readProgramWithin_eq
    (rounds : Rounds reader outcomes after)
    {fuel : Nat}
    (covers : reader.rest.length ≤ fuel) :
    readProgramWithin fuel reader = ⟨readBy outcomes, reportedBy outcomes, after⟩ := by
  induction rounds generalizing fuel with
  | done ended => exact readProgramWithin_ended fuel ended
  | @more reader middle after outcome outcomes left round others inductionHypothesis =>
      have some := List.length_pos_iff.mpr left
      have shorter := round.shorter left
      obtain ⟨fuel, rfl⟩ : ∃ less, fuel = less + 1 := ⟨fuel - 1, by omega⟩
      have rest := inductionHypothesis (by omega : middle.rest.length ≤ fuel)
      have declared := declarationWithin_eq covers
      unfold readProgramWithin
      rw [declared]
      cases round with
      | read given => simp [left, given, rest, readBy, reportedBy]
      | failed stopped => simp [left, stopped, rest, readBy, reportedBy]

/-- A program is read as the rounds tell. -/
theorem Rounds.readProgram_eq (rounds : Rounds reader outcomes after) :
    readProgram reader = ⟨readBy outcomes, reportedBy outcomes, after⟩ :=
  rounds.readProgramWithin_eq (Nat.le_refl _)

/-- The rounds of a program go on to the end of the tokens. -/
theorem Rounds.ended (rounds : Rounds reader outcomes after) : after.rest = [] := by
  induction rounds with
  | done ended => exact ended
  | more _ _ _ inductionHypothesis => exact inductionHypothesis

theorem Rounds.moves (rounds : Rounds reader outcomes after) : Moves reader after := by
  induction rounds with
  | done _ => exact .refl
  | more _ round _ inductionHypothesis => exact round.moves.trans inductionHypothesis

theorem endState_program (reader : Reader) :
    endState (program reader) = (readProgram reader).reader := by
  unfold program
  dsimp only
  cases (readProgram reader).verdict <;> rfl

/-- Wherever reading a program ends, tokens have been taken up to there. -/
theorem moves_program (reader : Reader) : Moves reader (endState (program reader)) := by
  obtain ⟨outcomes, after, rounds⟩ := Rounds.exists reader
  rw [endState_program, rounds.readProgram_eq]
  exact rounds.moves

/-! ## Errors -/

/-- Every error is reported between the start of the rounds and their end. -/
theorem Rounds.reported
    (rounds : Rounds reader outcomes after) :
    ∀ error ∈ reportedBy outcomes, ReportedBetween reader error after := by
  induction rounds with
  | done _ => simp [reportedBy]
  | more _ round others inductionHypothesis =>
      have later error (member : error ∈ reportedBy _) :=
        (inductionHypothesis error member).earlier round.moves
      cases round with
      | read given => exact later
      | failed stopped =>
          refine List.forall_mem_cons.mpr ⟨?_, later⟩
          exact (Round.failed stopped).reported.later others.moves

/-- What is left after a round that failed is less than at the token it reports. -/
theorem Round.before_error
    {error : SyntaxError}
    (round : Round reader (.error error) after) :
    after.rest = [] ∨ after.rest.length < error.remaining := by
  cases round with
  | @failed middle _ stopped =>
      have bounds := ((nextDeclaration_forward reader).2 error middle stopped).bounds
      have dropped := (resynchronize_suffix middle.rest).length_le
      simp only [List.length_tail] at dropped ⊢
      rw [← List.length_eq_zero_iff]
      omega

/-- Every error is reported further on than all errors before it. -/
theorem Rounds.reportedBy_descending
    (rounds : Rounds reader outcomes after) :
    (reportedBy outcomes).Pairwise fun earlier later =>
      later.remaining < earlier.remaining := by
  induction rounds with
  | done _ => exact .nil
  | @more reader middle after outcome outcomes left round others inductionHypothesis =>
      cases outcome with
      | ok statement => exact inductionHypothesis
      | error error =>
          refine .cons (fun later member => ?_) inductionHypothesis
          rcases round.before_error with ended | less
          · cases others with
            | done _ => simp [reportedBy] at member
            | more left _ _ => exact absurd ended left
          · exact Nat.lt_of_le_of_lt (others.reported later member).bounds.2 less

end

end Lox.Grammar
