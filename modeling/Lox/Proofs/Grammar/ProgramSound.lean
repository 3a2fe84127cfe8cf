import Lox.Grammar.Program
import Lox.Proofs.Grammar.ExpressionSound

namespace Lox.Grammar

/-!
# What the program parser reads is derivable

The parsers of statements and declarations are followed like those of
expressions.  A statement that could still take an `else` was read to a point
where none follows; this is what gives every `else` to the nearest branch.
-/

/-- A statement is derived, with no `else` behind it that it could still take. -/
def DerivesWhole (before : List Token) (tree : Stmt) (after : List Token) : Prop :=
  ∃ ending,
    DerivesStatement ending before tree after ∧
      (ending = .dangling → Lacks (.keyword .elseWord) after)

/-- A closed statement takes no `else`. -/
theorem DerivesWhole.of_closed
    {before after : List Token}
    {tree : Stmt}
    (derived : DerivesStatement .closed before tree after) :
    DerivesWhole before tree after :=
  ⟨.closed, derived, by simp⟩

/-! ## First tokens -/

/-- The statement that a token begins by the grammar. -/
inductive BeginsStatement : Token → StatementStart → Prop where
  | forLoop {token} :
      token.kind = .keyword .forWord → BeginsStatement token .forLoop
  | branch {token} :
      token.kind = .keyword .ifWord → BeginsStatement token .branch
  | print {token} :
      token.kind = .keyword .printWord → BeginsStatement token .print
  | returnValue {token} :
      token.kind = .keyword .returnWord →
      BeginsStatement token (.returnValue token.line)
  | loop {token} :
      token.kind = .keyword .whileWord → BeginsStatement token .loop
  | block {token} :
      token.kind = .symbol .leftBrace → BeginsStatement token .block

/-- The tokens that begin a statement of their own are those of the grammar. -/
theorem statementStart?_eq_some {token : Token} {start : StatementStart} :
    statementStart? token = some start ↔ BeginsStatement token start := by
  unfold statementStart?
  constructor
  · intro found
    split at found <;>
      simp only [Option.some.injEq, reduceCtorEq] at found
    all_goals
      subst found
      constructor
      assumption
  · intro begins
    cases begins <;> simp [*]

/-- The declaration that a token begins by the grammar. -/
inductive BeginsDeclaration : Token → DeclarationStart → Prop where
  | classDeclaration {token} :
      token.kind = .keyword .classWord → BeginsDeclaration token .classDeclaration
  | functionDeclaration {token} :
      token.kind = .keyword .funWord → BeginsDeclaration token .functionDeclaration
  | varDeclaration {token} :
      token.kind = .keyword .varWord → BeginsDeclaration token .varDeclaration

/-- The tokens that begin a declaration are those of the grammar. -/
theorem declarationStart?_eq_some {token : Token} {start : DeclarationStart} :
    declarationStart? token = some start ↔ BeginsDeclaration token start := by
  unfold declarationStart?
  constructor
  · intro found
    split at found <;>
      simp only [Option.some.injEq, reduceCtorEq] at found
    all_goals
      subst found
      constructor
      assumption
  · intro begins
    cases begins <;> simp [*]

/-- A keyword that was taken stood in front. -/
theorem next?_lineOf?_eq_ok
    {kind : TokenKind}
    {found : Option Nat}
    {reader final : Reader}
    (step : next? (lineOf? kind) reader = .ok found final) :
    (found.isSome = true ∧
        ∃ token rest,
          reader.rest = token :: rest ∧
            token.kind = kind ∧ final = { reader with rest := rest }) ∨
      (found.isSome = false ∧ final = reader ∧ Lacks kind reader.rest) := by
  cases found with
  | some line =>
      obtain ⟨token, rest, shape, readable, same⟩ := next?_eq_some step
      exact .inl ⟨rfl, token, rest, shape, (lineOf?_eq_some.mp readable).1, same⟩
  | none =>
      obtain ⟨same, unreadable⟩ := next?_eq_none step
      exact .inr ⟨rfl, same, fun token member =>
        lineOf?_eq_none.mp (unreadable token member)⟩

/-! ## Clauses -/

/-- What reads an expression that may be left out is one. -/
theorem optionalExpression_reads (size : Nat) (following : Symbol) :
    ReadsAs (optionalExpression size following) DerivesOptional Expr.idsOfOptional := by
  intro reader value final given
  unfold optionalExpression at given
  obtain ⟨isAbsent, _, lookStep, afterLook⟩ := bind_eq_ok_iff.mp given
  obtain ⟨rfl, -⟩ := upcoming_eq_ok lookStep
  cases isAbsent with
  | true =>
      simp only [↓reduceIte, pure_apply, EStateM.Result.ok.injEq] at afterLook
      obtain ⟨rfl, rfl⟩ := afterLook
      exact ⟨.absent, .none (Nat.le_refl _)⟩
  | false =>
      obtain ⟨found, taken, rfl⟩ := map_eq_ok_iff.mp afterLook
      obtain ⟨derived, fresh⟩ := expressionWithin_reads size taken
      exact ⟨.present derived, fresh⟩

/-- What reads an expression as a statement is one. -/
theorem expressionStatement_reads (size : Nat) :
    ReadsAs (expressionStatement size) DerivesEffect Stmt.ids := by
  intro reader tree final given
  obtain ⟨value, _, valueTaken, afterValue⟩ := bind_eq_ok_iff.mp given
  obtain ⟨derived, fresh⟩ := expressionWithin_reads size valueTaken
  obtain ⟨_, _, endTaken, result⟩ := bind_eq_ok_iff.mp afterValue
  obtain ⟨semicolon, _, shape, kind, rfl⟩ := discard_expectSymbol_eq_ok endTaken
  simp only [pure_apply, EStateM.Result.ok.injEq] at result
  obtain ⟨rfl, rfl⟩ := result
  rw [shape] at derived
  exact ⟨.intro derived kind, fresh⟩

/-- What reads a condition is one. -/
theorem parenthesized_reads (size : Nat) (opening closing : SyntaxFault) :
    ReadsAs (parenthesized size opening closing) DerivesCondition Expr.ids := by
  intro reader condition final given
  obtain ⟨_, _, openingTaken, afterOpening⟩ := bind_eq_ok_iff.mp given
  obtain ⟨_, _, openingShape, openingKind, rfl⟩ :=
    discard_expectSymbol_eq_ok openingTaken
  obtain ⟨value, _, valueTaken, afterValue⟩ := bind_eq_ok_iff.mp afterOpening
  obtain ⟨derived, fresh⟩ := expressionWithin_reads size valueTaken
  obtain ⟨_, _, closingTaken, result⟩ := bind_eq_ok_iff.mp afterValue
  obtain ⟨_, _, closingShape, closingKind, rfl⟩ :=
    discard_expectSymbol_eq_ok closingTaken
  simp only [pure_apply, EStateM.Result.ok.injEq] at result
  obtain ⟨rfl, rfl⟩ := result
  rw [closingShape] at derived
  exact ⟨by rw [openingShape]; exact .intro openingKind derived closingKind, fresh⟩

/-- What reads a variable declaration behind its keyword is one. -/
theorem varAfter_reads (size : Nat) :
    ReadsAs (varAfter size) DerivesVariable Stmt.ids := by
  intro reader tree final given
  obtain ⟨name, _, nameTaken, afterName⟩ := bind_eq_ok_iff.mp given
  obtain ⟨target, _, nameShape, named, rfl⟩ := expectName_eq_ok nameTaken
  obtain ⟨isInitialized, _, equalStep, afterEqual⟩ := bind_eq_ok_iff.mp afterName
  cases isInitialized with
  | true =>
      obtain ⟨equals, _, equalShape, equalKind, rfl⟩ := acceptSymbol_eq_true equalStep
      obtain ⟨initializer, _, initializerTaken, afterInitializer⟩ :=
        bind_eq_ok_iff.mp afterEqual
      obtain ⟨value, valueTaken, rfl⟩ := map_eq_ok_iff.mp initializerTaken
      obtain ⟨derived, fresh⟩ := expressionWithin_reads size valueTaken
      obtain ⟨_, _, endTaken, result⟩ := bind_eq_ok_iff.mp afterInitializer
      obtain ⟨semicolon, _, endShape, kind, rfl⟩ := discard_expectSymbol_eq_ok endTaken
      simp only [pure_apply, EStateM.Result.ok.injEq] at result
      obtain ⟨rfl, rfl⟩ := result
      rw [endShape] at derived
      simp only at equalShape
      exact ⟨by
        rw [nameShape, equalShape]
        exact .initialized named equalKind derived kind, fresh⟩
  | false =>
      obtain ⟨rfl, -⟩ := acceptSymbol_eq_false equalStep
      simp only [Bool.false_eq_true, ↓reduceIte] at afterEqual
      obtain ⟨_, _, nothing, afterInitializer⟩ := bind_eq_ok_iff.mp afterEqual
      simp only [pure_apply, EStateM.Result.ok.injEq] at nothing
      obtain ⟨rfl, rfl⟩ := nothing
      obtain ⟨_, _, endTaken, result⟩ := bind_eq_ok_iff.mp afterInitializer
      obtain ⟨semicolon, _, endShape, kind, rfl⟩ := discard_expectSymbol_eq_ok endTaken
      simp only [pure_apply, EStateM.Result.ok.injEq] at result
      obtain ⟨rfl, rfl⟩ := result
      simp only at endShape
      exact ⟨by rw [nameShape, endShape]; exact .plain named kind,
        .none (Nat.le_refl _)⟩

/-- The identities in a statement that may be absent. -/
def idsOfInitializer (initializer : Option Stmt) : List NodeId :=
  (initializer.map Stmt.ids).getD []

/-- What reads the first clause of a `for` loop is one. -/
theorem forInitializer_reads (size : Nat) :
    ReadsAs (forInitializer size) DerivesInitializer idsOfInitializer := by
  intro reader initializer final given
  unfold forInitializer at given
  obtain ⟨isAbsent, _, endStep, afterEnd⟩ := bind_eq_ok_iff.mp given
  cases isAbsent with
  | true =>
      obtain ⟨semicolon, _, shape, kind, rfl⟩ := acceptSymbol_eq_true endStep
      simp only [↓reduceIte, pure_apply, EStateM.Result.ok.injEq] at afterEnd
      obtain ⟨rfl, rfl⟩ := afterEnd
      exact ⟨by rw [shape]; exact .absent kind, .none (Nat.le_refl _)⟩
  | false =>
      obtain ⟨rfl, -⟩ := acceptSymbol_eq_false endStep
      simp only [Bool.false_eq_true, ↓reduceIte] at afterEnd
      obtain ⟨isVariable, _, keywordStep, afterKeyword⟩ := bind_eq_ok_iff.mp afterEnd
      rcases next?_lineOf?_eq_ok keywordStep with
        ⟨present, keyword, _, shape, kind, rfl⟩ | ⟨absent, rfl, -⟩
      · rw [if_pos present] at afterKeyword
        obtain ⟨declaration, taken, rfl⟩ := map_eq_ok_iff.mp afterKeyword
        obtain ⟨derived, fresh⟩ := varAfter_reads size taken
        exact ⟨by rw [shape]; exact .declared kind derived, fresh⟩
      · rw [absent, if_neg Bool.false_ne_true] at afterKeyword
        obtain ⟨effect, taken, rfl⟩ := map_eq_ok_iff.mp afterKeyword
        obtain ⟨derived, fresh⟩ := expressionStatement_reads size taken
        exact ⟨.effect derived, fresh⟩

/-! ## Functions and classes -/

/-- A token is a name. -/
def DerivesName (before : List Token) (name : Identifier) (after : List Token) : Prop :=
  ∃ target, before = target :: after ∧ Names target name

theorem expectName_reads (fault : SyntaxFault) :
    ReadsAs (expectName fault) DerivesName (fun _ => []) := by
  intro reader name final given
  obtain ⟨target, _, shape, named, rfl⟩ := expectName_eq_ok given
  exact ⟨⟨target, shape, named⟩, .none (Nat.le_refl _)⟩

/-- What is listed as parameters is. -/
theorem parameters_read
    {fault overflow : SyntaxFault}
    {reader final : Reader}
    {names : List Identifier}
    (given : listed (expectName fault) overflow reader = .ok names final) :
    DerivesParameters reader.rest names final.rest ∧ reader.nextId ≤ final.nextId := by
  have listing := listed_reads DerivesNames (expectName_reads fault)
    (fun ⟨target, shape, named⟩ => shape ▸ .last named)
    (fun ⟨target, shape, named⟩ kind others => shape ▸ .more named kind others)
    given
  rcases listing with ⟨rfl, rfl⟩ | ⟨⟨derived, fresh⟩, within⟩
  · exact ⟨.none, Nat.le_refl _⟩
  · exact ⟨.some derived within, fresh.ordered⟩

/-- Declarations are derived in front of a closing brace. -/
def DerivesBody (before : List Token) (body : List Stmt) (after : List Token) : Prop :=
  ∃ closing,
    DerivesDeclarations before body (closing :: after) ∧
      closing.kind = .symbol .rightBrace

section

variable {declaration : Parser Stmt}

/-- What reads the body of a block is one. -/
theorem blockBody_reads
    (reads : ReadsAs declaration DerivesDeclaration Stmt.ids)
    (size : Nat) :
    ReadsAs (blockBody declaration size) DerivesBody (·.flatMap Stmt.ids) := by
  intro reader body final given
  obtain ⟨statements, _, bodyTaken, afterBody⟩ := bind_eq_ok_iff.mp given
  obtain ⟨derived, fresh⟩ := untilBrace_reads DerivesDeclarations reads .none .more size bodyTaken
  obtain ⟨_, _, closingTaken, result⟩ := bind_eq_ok_iff.mp afterBody
  obtain ⟨closing, _, shape, kind, rfl⟩ := discard_expectSymbol_eq_ok closingTaken
  simp only [pure_apply, EStateM.Result.ok.injEq] at result
  obtain ⟨rfl, rfl⟩ := result
  rw [shape] at derived
  exact ⟨⟨closing, derived, kind⟩, fresh⟩

/-- What reads a function from its name on is one. -/
theorem functionAfter_reads
    (reads : ReadsAs declaration DerivesDeclaration Stmt.ids)
    (role : FunctionRole)
    (size : Nat) :
    ReadsAs (functionAfter role declaration size) DerivesFunction
      FunctionDeclaration.ids := by
  intro reader tree final given
  obtain ⟨name, _, nameTaken, afterName⟩ := bind_eq_ok_iff.mp given
  obtain ⟨target, _, nameShape, named, rfl⟩ := expectName_eq_ok nameTaken
  obtain ⟨_, _, openingTaken, afterOpening⟩ := bind_eq_ok_iff.mp afterName
  obtain ⟨opening, _, openingShape, openingKind, rfl⟩ :=
    discard_expectSymbol_eq_ok openingTaken
  obtain ⟨parameters, _, parametersTaken, afterParameters⟩ :=
    bind_eq_ok_iff.mp afterOpening
  obtain ⟨parametersDerived, ordered⟩ := parameters_read parametersTaken
  obtain ⟨_, _, closingTaken, afterClosing⟩ := bind_eq_ok_iff.mp afterParameters
  obtain ⟨closing, _, closingShape, closingKind, rfl⟩ :=
    discard_expectSymbol_eq_ok closingTaken
  obtain ⟨_, _, braceTaken, afterBrace⟩ := bind_eq_ok_iff.mp afterClosing
  obtain ⟨brace, _, braceShape, braceKind, rfl⟩ :=
    discard_expectSymbol_eq_ok braceTaken
  obtain ⟨body, _, bodyTaken, result⟩ := bind_eq_ok_iff.mp afterBrace
  obtain ⟨⟨last, bodyDerived, lastKind⟩, fresh⟩ :=
    blockBody_reads reads size bodyTaken
  simp only [pure_apply, EStateM.Result.ok.injEq] at result
  obtain ⟨rfl, rfl⟩ := result
  simp only at openingShape braceShape
  rw [closingShape, braceShape] at parametersDerived
  refine ⟨?_, ?_⟩
  · rw [nameShape, openingShape]
    exact .intro named openingKind parametersDerived closingKind braceKind bodyDerived
      lastKind
  · simpa [FunctionDeclaration.ids, FunctionDeclaration.occurrences] using
      fresh.from_earlier ordered

/-- The identity of a superclass, if there is one. -/
def idsOfSuperclass (superclass : Option Reference) : List NodeId :=
  (superclass.map (·.id)).toList

/-- What reads the superclass of a class is one. -/
theorem superclassClause_reads :
    ReadsAs superclassClause DerivesSuperclass idsOfSuperclass := by
  intro reader superclass final given
  unfold superclassClause at given
  obtain ⟨isPresent, _, lessStep, afterLess⟩ := bind_eq_ok_iff.mp given
  cases isPresent with
  | true =>
      obtain ⟨less, _, lessShape, lessKind, rfl⟩ := acceptSymbol_eq_true lessStep
      obtain ⟨name, _, nameTaken, afterName⟩ := bind_eq_ok_iff.mp afterLess
      obtain ⟨target, _, nameShape, named, rfl⟩ := expectName_eq_ok nameTaken
      simp only [freshId, bind_apply, pure_apply, EStateM.Result.ok.injEq] at afterName
      obtain ⟨rfl, rfl⟩ := afterName
      simp only at nameShape
      exact ⟨by rw [lessShape, nameShape]; exact .present lessKind named, .one _⟩
  | false =>
      obtain ⟨rfl, -⟩ := acceptSymbol_eq_false lessStep
      simp only [Bool.false_eq_true, ↓reduceIte, pure_apply,
        EStateM.Result.ok.injEq] at afterLess
      obtain ⟨rfl, rfl⟩ := afterLess
      exact ⟨.absent, .none (Nat.le_refl _)⟩

theorem ids_classDeclaration
    (name : Identifier)
    (superclass : Option Reference)
    (methods : List FunctionDeclaration) :
    (Stmt.classDeclaration name superclass methods).ids =
      idsOfSuperclass superclass ++ methods.flatMap FunctionDeclaration.ids := by
  cases superclass <;> simp [Stmt.ids, Stmt.occurrences, idsOfSuperclass]

/-- What reads a class from its name on is one. -/
theorem classAfter_reads
    (reads : ReadsAs declaration DerivesDeclaration Stmt.ids)
    (size : Nat)
    {keyword : Token}
    (kind : keyword.kind = .keyword .classWord) :
    ReadsAs (classAfter declaration size)
      (fun rest => DerivesDeclaration (keyword :: rest)) Stmt.ids := by
  intro reader tree final given
  obtain ⟨name, _, nameTaken, afterName⟩ := bind_eq_ok_iff.mp given
  obtain ⟨target, _, nameShape, named, rfl⟩ := expectName_eq_ok nameTaken
  obtain ⟨superclass, _, superclassTaken, afterSuperclass⟩ :=
    bind_eq_ok_iff.mp afterName
  obtain ⟨superclassDerived, superclassFresh⟩ := superclassClause_reads superclassTaken
  obtain ⟨_, _, openingTaken, afterOpening⟩ := bind_eq_ok_iff.mp afterSuperclass
  obtain ⟨opening, _, openingShape, openingKind, rfl⟩ :=
    discard_expectSymbol_eq_ok openingTaken
  obtain ⟨methods, _, methodsTaken, afterMethods⟩ := bind_eq_ok_iff.mp afterOpening
  obtain ⟨methodsDerived, methodsFresh⟩ :=
    untilBrace_reads DerivesMethods (functionAfter_reads reads .method size) .none .more
      size methodsTaken
  obtain ⟨_, _, closingTaken, result⟩ := bind_eq_ok_iff.mp afterMethods
  obtain ⟨closing, _, closingShape, closingKind, rfl⟩ :=
    discard_expectSymbol_eq_ok closingTaken
  simp only [pure_apply, EStateM.Result.ok.injEq] at result
  obtain ⟨rfl, rfl⟩ := result
  rw [openingShape] at superclassDerived
  rw [closingShape] at methodsDerived
  refine ⟨?_, ?_⟩
  · rw [nameShape]
    exact .classDeclaration kind named superclassDerived openingKind methodsDerived
      closingKind
  · rw [ids_classDeclaration]
    exact superclassFresh.append methodsFresh

end

/-! ## Statements -/

/-- The loop that the parser builds is the one that a `for` loop stands for. -/
theorem isForLoop_forLoop
    (initializer : Option Stmt)
    (condition increment : Option Expr)
    (body : Stmt) :
    IsForLoop initializer condition increment body
      (.forLoop initializer condition increment body) := by
  have whole : IsCondition condition (condition.getD (.literal (.bool true))) := by
    cases condition with
    | none => exact .always
    | some given => exact .given
  cases initializer with
  | none =>
      cases increment with
      | none => exact .intro whole .plain .plain
      | some step => exact .intro whole .stepped .plain
  | some first =>
      cases increment with
      | none => exact .intro whole .plain .first
      | some step => exact .intro whole .stepped .first

/-- The identities of a `for` loop are those of its parts in the order of its tree. -/
theorem ids_forLoop
    (initializer : Option Stmt)
    (condition increment : Option Expr)
    (body : Stmt) :
    (Stmt.forLoop initializer condition increment body).ids =
      idsOfInitializer initializer ++ Expr.idsOfOptional condition ++
        (body.ids ++ Expr.idsOfOptional increment) := by
  cases initializer <;> cases condition <;> cases increment <;>
    simp [Stmt.forLoop, Stmt.ids, idsOfInitializer, Expr.idsOfOptional,
      Stmt.occurrences, Stmt.occurrencesOfAll, Expr.occurrencesOfOptional,
      Expr.occurrences]

section

variable {statement declaration : Parser Stmt}

/-- What reads a `for` loop behind its keyword is one. -/
theorem forAfter_reads
    (reads : ReadsAs statement DerivesWhole Stmt.ids)
    (size : Nat)
    {keyword : Token}
    (kind : keyword.kind = .keyword .forWord) :
    ReadsAs (forAfter statement size) (fun rest => DerivesWhole (keyword :: rest))
      Stmt.ids := by
  intro reader tree final given
  obtain ⟨_, _, openingTaken, afterOpening⟩ := bind_eq_ok_iff.mp given
  obtain ⟨opening, _, openingShape, openingKind, rfl⟩ :=
    discard_expectSymbol_eq_ok openingTaken
  obtain ⟨initializer, _, initializerTaken, afterInitializer⟩ :=
    bind_eq_ok_iff.mp afterOpening
  obtain ⟨initializerDerived, initializerFresh⟩ :=
    forInitializer_reads size initializerTaken
  obtain ⟨condition, _, conditionTaken, afterCondition⟩ :=
    bind_eq_ok_iff.mp afterInitializer
  obtain ⟨conditionDerived, conditionFresh⟩ :=
    optionalExpression_reads size .semicolon conditionTaken
  obtain ⟨_, _, semicolonTaken, afterSemicolon⟩ := bind_eq_ok_iff.mp afterCondition
  obtain ⟨semicolon, _, semicolonShape, semicolonKind, rfl⟩ :=
    discard_expectSymbol_eq_ok semicolonTaken
  obtain ⟨increment, _, incrementTaken, afterIncrement⟩ :=
    bind_eq_ok_iff.mp afterSemicolon
  obtain ⟨incrementDerived, incrementFresh⟩ :=
    optionalExpression_reads size .rightParen incrementTaken
  obtain ⟨_, _, closingTaken, afterClosing⟩ := bind_eq_ok_iff.mp afterIncrement
  obtain ⟨closing, _, closingShape, closingKind, rfl⟩ :=
    discard_expectSymbol_eq_ok closingTaken
  obtain ⟨body, _, bodyTaken, result⟩ := bind_eq_ok_iff.mp afterClosing
  obtain ⟨⟨ending, bodyDerived, whole⟩, bodyFresh⟩ := reads bodyTaken
  simp only [pure_apply, EStateM.Result.ok.injEq] at result
  obtain ⟨rfl, rfl⟩ := result
  rw [semicolonShape] at conditionDerived
  rw [closingShape] at incrementDerived
  refine ⟨⟨ending, ?_, whole⟩, ?_⟩
  · rw [openingShape]
    exact .forLoop kind openingKind initializerDerived conditionDerived semicolonKind
      incrementDerived closingKind bodyDerived (isForLoop_forLoop ..)
  · rw [ids_forLoop]
    exact (initializerFresh.append conditionFresh).append
      (incrementFresh.append_swapped bodyFresh)

/-- What reads a `while` loop behind its keyword is one. -/
theorem loopAfter_reads
    (reads : ReadsAs statement DerivesWhole Stmt.ids)
    (size : Nat)
    {keyword : Token}
    (kind : keyword.kind = .keyword .whileWord) :
    ReadsAs (loopAfter statement size) (fun rest => DerivesWhole (keyword :: rest))
      Stmt.ids := by
  intro reader tree final given
  obtain ⟨condition, _, conditionTaken, afterCondition⟩ := bind_eq_ok_iff.mp given
  obtain ⟨conditionDerived, conditionFresh⟩ :=
    parenthesized_reads size _ _ conditionTaken
  obtain ⟨body, _, bodyTaken, result⟩ := bind_eq_ok_iff.mp afterCondition
  obtain ⟨⟨ending, bodyDerived, whole⟩, bodyFresh⟩ := reads bodyTaken
  simp only [pure_apply, EStateM.Result.ok.injEq] at result
  obtain ⟨rfl, rfl⟩ := result
  refine ⟨⟨ending, .whileLoop kind conditionDerived bodyDerived, whole⟩, ?_⟩
  simpa [Stmt.ids, Stmt.occurrences, Expr.ids] using conditionFresh.append bodyFresh

/--
What reads a branch behind its keyword is one.  A statement in front of an `else`
is closed: one that was dangling was read to a point without an `else`.
-/
theorem branchAfter_reads
    (reads : ReadsAs statement DerivesWhole Stmt.ids)
    (size : Nat)
    {keyword : Token}
    (kind : keyword.kind = .keyword .ifWord) :
    ReadsAs (branchAfter statement size) (fun rest => DerivesWhole (keyword :: rest))
      Stmt.ids := by
  intro reader tree final given
  obtain ⟨condition, _, conditionTaken, afterCondition⟩ := bind_eq_ok_iff.mp given
  obtain ⟨conditionDerived, conditionFresh⟩ :=
    parenthesized_reads size _ _ conditionTaken
  obtain ⟨consequent, _, consequentTaken, afterConsequent⟩ :=
    bind_eq_ok_iff.mp afterCondition
  obtain ⟨⟨ending, consequentDerived, whole⟩, consequentFresh⟩ := reads consequentTaken
  obtain ⟨found, _, elseStep, afterElse⟩ := bind_eq_ok_iff.mp afterConsequent
  rcases next?_lineOf?_eq_ok elseStep with
    ⟨present, separator, _, shape, elseKind, rfl⟩ | ⟨absent, rfl, lacking⟩
  · rw [if_pos present] at afterElse
    obtain ⟨_, _, alternativeTaken, result⟩ := bind_eq_ok_iff.mp afterElse
    obtain ⟨alternative, innerTaken, rfl⟩ := map_eq_ok_iff.mp alternativeTaken
    obtain ⟨⟨last, alternativeDerived, lastWhole⟩, alternativeFresh⟩ := reads innerTaken
    simp only [pure_apply, EStateM.Result.ok.injEq] at result
    obtain ⟨rfl, rfl⟩ := result
    rw [shape] at consequentDerived whole
    cases ending with
    | dangling => exact absurd elseKind (whole rfl separator (by simp))
    | closed =>
        refine ⟨⟨last, .ifThenElse kind conditionDerived consequentDerived elseKind
          alternativeDerived, lastWhole⟩, ?_⟩
        simpa [Stmt.ids, Stmt.occurrences, Expr.ids] using
          conditionFresh.append (consequentFresh.append alternativeFresh)
  · rw [absent, if_neg Bool.false_ne_true] at afterElse
    obtain ⟨_, _, nothing, result⟩ := bind_eq_ok_iff.mp afterElse
    simp only [pure_apply, EStateM.Result.ok.injEq] at nothing
    obtain ⟨rfl, rfl⟩ := nothing
    simp only [pure_apply, EStateM.Result.ok.injEq] at result
    obtain ⟨rfl, rfl⟩ := result
    refine ⟨⟨.dangling, .ifThen kind conditionDerived consequentDerived,
      fun _ => lacking⟩, ?_⟩
    simpa [Stmt.ids, Stmt.occurrences, Expr.ids] using
      conditionFresh.append consequentFresh

/-- What reads a statement behind its first token is one. -/
theorem statementAfter_reads
    (reads : ReadsAs statement DerivesWhole Stmt.ids)
    (declares : ReadsAs declaration DerivesDeclaration Stmt.ids)
    (size : Nat)
    {token : Token}
    {start : StatementStart}
    (begins : BeginsStatement token start) :
    ReadsAs (statementAfter statement declaration size start)
      (fun rest => DerivesWhole (token :: rest)) Stmt.ids := by
  cases begins with
  | forLoop kind => exact forAfter_reads reads size kind
  | branch kind => exact branchAfter_reads reads size kind
  | loop kind => exact loopAfter_reads reads size kind
  | block kind =>
      intro reader tree final given
      obtain ⟨body, taken, rfl⟩ := map_eq_ok_iff.mp given
      obtain ⟨⟨closing, derived, closingKind⟩, fresh⟩ :=
        blockBody_reads declares size taken
      refine ⟨.of_closed (.block kind derived closingKind), ?_⟩
      simpa [Stmt.ids, Stmt.occurrences] using fresh
  | print kind =>
      intro reader tree final given
      obtain ⟨value, _, valueTaken, afterValue⟩ := bind_eq_ok_iff.mp given
      obtain ⟨derived, fresh⟩ := expressionWithin_reads size valueTaken
      obtain ⟨_, _, endTaken, result⟩ := bind_eq_ok_iff.mp afterValue
      obtain ⟨semicolon, _, shape, endKind, rfl⟩ := discard_expectSymbol_eq_ok endTaken
      simp only [pure_apply, EStateM.Result.ok.injEq] at result
      obtain ⟨rfl, rfl⟩ := result
      rw [shape] at derived
      exact ⟨.of_closed (.print kind derived endKind), fresh⟩
  | returnValue kind =>
      intro reader tree final given
      obtain ⟨value, _, valueTaken, afterValue⟩ := bind_eq_ok_iff.mp given
      obtain ⟨derived, fresh⟩ := optionalExpression_reads size .semicolon valueTaken
      obtain ⟨_, _, endTaken, result⟩ := bind_eq_ok_iff.mp afterValue
      obtain ⟨semicolon, _, shape, endKind, rfl⟩ := discard_expectSymbol_eq_ok endTaken
      simp only [pure_apply, EStateM.Result.ok.injEq] at result
      obtain ⟨rfl, rfl⟩ := result
      rw [shape] at derived
      exact ⟨.of_closed (.returnValue kind derived endKind), fresh⟩

/-- What reads a statement is one, with no `else` left for it. -/
theorem anyStatement_reads
    (reads : ReadsAs statement DerivesWhole Stmt.ids)
    (declares : ReadsAs declaration DerivesDeclaration Stmt.ids)
    (size : Nat) :
    ReadsAs (anyStatement statement declaration size) DerivesWhole Stmt.ids := by
  intro reader tree final given
  obtain ⟨found, _, startStep, afterStart⟩ := bind_eq_ok_iff.mp given
  cases found with
  | some start =>
      obtain ⟨token, _, shape, readable, rfl⟩ := next?_eq_some startStep
      obtain ⟨derived, fresh⟩ := statementAfter_reads reads declares size
        (statementStart?_eq_some.mp readable) afterStart
      exact ⟨shape ▸ derived, fresh⟩
  | none =>
      obtain ⟨rfl, -⟩ := next?_eq_none startStep
      obtain ⟨derived, fresh⟩ := expressionStatement_reads size afterStart
      exact ⟨.of_closed (.effect derived), fresh⟩

/-- What reads a declaration behind its first token is one. -/
theorem declarationAfter_reads
    (declares : ReadsAs declaration DerivesDeclaration Stmt.ids)
    (size : Nat)
    {token : Token}
    {start : DeclarationStart}
    (begins : BeginsDeclaration token start) :
    ReadsAs (declarationAfter declaration size start)
      (fun rest => DerivesDeclaration (token :: rest)) Stmt.ids := by
  cases begins with
  | classDeclaration kind => exact classAfter_reads declares size kind
  | functionDeclaration kind =>
      intro reader tree final given
      obtain ⟨function, taken, rfl⟩ := map_eq_ok_iff.mp given
      obtain ⟨derived, fresh⟩ := functionAfter_reads declares .function size taken
      exact ⟨.functionDeclaration kind derived, fresh⟩
  | varDeclaration kind =>
      intro reader tree final given
      obtain ⟨derived, fresh⟩ := varAfter_reads size given
      exact ⟨.varDeclaration kind derived, fresh⟩

/-- What reads a declaration is one. -/
theorem anyDeclaration_reads
    (reads : ReadsAs statement DerivesWhole Stmt.ids)
    (declares : ReadsAs declaration DerivesDeclaration Stmt.ids)
    (size : Nat) :
    ReadsAs (anyDeclaration statement declaration size) DerivesDeclaration
      Stmt.ids := by
  intro reader tree final given
  obtain ⟨found, _, startStep, afterStart⟩ := bind_eq_ok_iff.mp given
  cases found with
  | some start =>
      obtain ⟨token, _, shape, readable, rfl⟩ := next?_eq_some startStep
      obtain ⟨derived, fresh⟩ := declarationAfter_reads declares size
        (declarationStart?_eq_some.mp readable) afterStart
      exact ⟨shape ▸ derived, fresh⟩
  | none =>
      obtain ⟨rfl, -⟩ := next?_eq_none startStep
      obtain ⟨⟨_, derived, _⟩, fresh⟩ :=
        anyStatement_reads reads declares size afterStart
      exact ⟨.statement derived, fresh⟩

end

/-- What reads statements and declarations within a bound is such. -/
theorem within_reads (size : Nat) :
    ReadsAs (statementWithin size) DerivesWhole Stmt.ids ∧
      ReadsAs (declarationWithin size) DerivesDeclaration Stmt.ids := by
  induction size with
  | zero =>
      constructor <;>
      · intro reader tree final given
        simp [statementWithin, declarationWithin, reject] at given
  | succ size inductionHypothesis =>
      obtain ⟨reads, declares⟩ := inductionHypothesis
      exact ⟨anyStatement_reads reads declares (size + 1),
        anyDeclaration_reads reads declares (size + 1)⟩

/-! ## Programs -/

end Lox.Grammar
