import Lox.Proofs.Grammar.ExpressionComplete
import Lox.Proofs.Grammar.ProgramSound

namespace Lox.Grammar

/-!
# What is derivable as a program is read

A statement ends by its own last token, except that one which could still take an
`else` must not stand in front of one.  Declarations in a row give that for free,
since none of them begins with `else`; so only branches have to look at what
follows.
-/

/-- Statements that differ at most in the identities of occurrences. -/
def LikeStatement (tree found : Stmt) : Prop :=
  found.shape = tree.shape

/-- Lists of statements that differ at most in the identities of occurrences. -/
def LikeStatements (trees found : List Stmt) : Prop :=
  Stmt.shapes found = Stmt.shapes trees

/-- Functions that differ at most in the identities of occurrences. -/
def LikeFunction (tree found : FunctionDeclaration) : Prop :=
  found.shape = tree.shape

/-- Lists of functions that differ at most in the identities of occurrences. -/
def LikeFunctions (trees found : List FunctionDeclaration) : Prop :=
  FunctionDeclaration.shapes found = FunctionDeclaration.shapes trees

/-- Optional expressions that differ at most in the identities of occurrences. -/
def LikeOptional (tree found : Option Expr) : Prop :=
  found.map Expr.shape = tree.map Expr.shape

/-- First clauses of loops that differ at most in the identities of occurrences. -/
def LikeInitializer (tree found : Option Stmt) : Prop :=
  found.map Stmt.shape = tree.map Stmt.shape

/-- Superclasses that differ at most in the identities of their occurrences. -/
def LikeSuperclass (tree found : Option Reference) : Prop :=
  found.map Reference.shape = tree.map Reference.shape

/-! ## First tokens -/

/-- The kinds of tokens that may stand at the front of a statement. -/
def opensStatement : TokenKind → Bool
  | .keyword .forWord => true
  | .keyword .ifWord => true
  | .keyword .printWord => true
  | .keyword .returnWord => true
  | .keyword .whileWord => true
  | .symbol .leftBrace => true
  | kind => opensExpression kind

/-- The kinds of tokens that may stand at the front of a declaration. -/
def opensDeclaration : TokenKind → Bool
  | .keyword .classWord => true
  | .keyword .funWord => true
  | .keyword .varWord => true
  | kind => opensStatement kind

theorem opensStatement_of_opensExpression
    {kind : TokenKind}
    (opens : opensExpression kind = true) :
    opensStatement kind = true := by
  unfold opensStatement
  split <;> first | rfl | exact opens

theorem opensDeclaration_of_opensStatement
    {kind : TokenKind}
    (opens : opensStatement kind = true) :
    opensDeclaration kind = true := by
  unfold opensDeclaration
  split <;> first | rfl | exact opens

/-- What opens an expression starts no other statement. -/
theorem statementStart?_eq_none
    {token : Token}
    (opens : opensExpression token.kind = true) :
    statementStart? token = none := by
  unfold statementStart?
  split <;> simp_all [opensExpression]

/-- What opens a statement starts no other declaration. -/
theorem declarationStart?_eq_none
    {token : Token}
    (opens : opensStatement token.kind = true) :
    declarationStart? token = none := by
  unfold declarationStart?
  split <;> simp_all [opensStatement, opensExpression]

/-- The first token of tokens has a kind that may stand there. -/
def StartsWith (opens : TokenKind → Bool) (tokens : List Token) : Prop :=
  ∃ token rest, tokens = token :: rest ∧ opens token.kind = true

namespace StartsWith

variable {opens : TokenKind → Bool} {tokens : List Token}

/-- A kind that may not stand in front is lacking. -/
theorem lacks
    (starts : StartsWith opens tokens)
    {kind : TokenKind}
    (other : opens kind = false) :
    Lacks kind tokens := by
  obtain ⟨token, rest, rfl, opening⟩ := starts
  refine lacks_cons ?_ rest
  rintro rfl
  rw [opening] at other
  exact Bool.noConfusion other

/-- What holds of every opening token holds of the first one. -/
theorem first
    (starts : StartsWith opens tokens)
    {good : Token → Prop}
    (fine : ∀ token, opens token.kind = true → good token) :
    ∀ token ∈ tokens.head?, good token := by
  obtain ⟨token, rest, rfl, opening⟩ := starts
  intro found member
  simp only [List.head?_cons, Option.mem_def, Option.some.injEq] at member
  exact member ▸ fine token opening

/-- What starts with an opening token starts with one of more kinds. -/
theorem weaken
    (starts : StartsWith opens tokens)
    {more : TokenKind → Bool}
    (implies : ∀ {kind}, opens kind = true → more kind = true) :
    StartsWith more tokens := by
  obtain ⟨token, rest, shape, opening⟩ := starts
  exact ⟨token, rest, shape, implies opening⟩

end StartsWith

/-- A derived expression starts with a token that opens an expression. -/
theorem Derives.starts
    {before after : List Token}
    {tree : Expr}
    (derived : Derives .expression before tree after) :
    StartsWith opensExpression before := by
  obtain ⟨token, rest, shape, opens⟩ := derived.opens
  exact ⟨token, rest, shape, opens.opensExpression⟩

/-- An effect starts with a token that opens an expression. -/
theorem DerivesEffect.starts
    {before after : List Token}
    {effect : Stmt}
    (derived : DerivesEffect before effect after) :
    StartsWith opensExpression before := by
  cases derived with
  | intro derived _ => exact derived.starts

/-- A statement starts with a token that may begin one. -/
theorem DerivesStatement.starts
    {ending : Ending}
    {before after : List Token}
    {tree : Stmt}
    (derived : DerivesStatement ending before tree after) :
    StartsWith opensStatement before := by
  cases derived with
  | effect derived => exact derived.starts.weaken opensStatement_of_opensExpression
  | print kind _ _ => exact ⟨_, _, rfl, by rw [kind]; rfl⟩
  | returnValue kind _ _ => exact ⟨_, _, rfl, by rw [kind]; rfl⟩
  | block kind _ _ => exact ⟨_, _, rfl, by rw [kind]; rfl⟩
  | whileLoop kind _ _ => exact ⟨_, _, rfl, by rw [kind]; rfl⟩
  | ifThen kind _ _ => exact ⟨_, _, rfl, by rw [kind]; rfl⟩
  | ifThenElse kind _ _ _ _ => exact ⟨_, _, rfl, by rw [kind]; rfl⟩
  | forLoop kind _ _ _ _ _ _ _ _ => exact ⟨_, _, rfl, by rw [kind]; rfl⟩

/-- A declaration starts with a token that may begin one. -/
theorem DerivesDeclaration.starts
    {before after : List Token}
    {tree : Stmt}
    (derived : DerivesDeclaration before tree after) :
    StartsWith opensDeclaration before := by
  cases derived with
  | classDeclaration kind _ _ _ _ _ => exact ⟨_, _, rfl, by rw [kind]; rfl⟩
  | functionDeclaration kind _ => exact ⟨_, _, rfl, by rw [kind]; rfl⟩
  | varDeclaration kind _ => exact ⟨_, _, rfl, by rw [kind]; rfl⟩
  | statement derived => exact derived.starts.weaken opensDeclaration_of_opensStatement

/-- A derived function starts with its name. -/
theorem DerivesFunction.starts
    {before after : List Token}
    {tree : FunctionDeclaration}
    (derived : DerivesFunction before tree after) :
    StartsWith (· == .identifier) before := by
  cases derived with
  | intro named _ _ _ _ _ _ => exact ⟨_, _, rfl, by simp [named.kind]⟩

/-- No declarations in a row begin with `else`, unless what follows them does. -/
theorem DerivesDeclarations.lacks_else
    {before after : List Token}
    {trees : List Stmt}
    (derived : DerivesDeclarations before trees after)
    (lacking : Lacks (.keyword .elseWord) after) :
    Lacks (.keyword .elseWord) before := by
  cases derived with
  | none => exact lacking
  | more first _ => exact first.starts.lacks rfl

/-! ## Clauses -/

namespace Takes

variable {after : List Token}

/-- A keyword in front is taken, with its line. -/
theorem next?_keyword {kind : TokenKind} {token : Token} (same : token.kind = kind) :
    Takes (next? (lineOf? kind)) (token :: after) (· = some token.line) after :=
  next?_some (lineOf?_eq_some.mpr ⟨same, rfl⟩)

/-- A keyword is not taken where there is another token. -/
theorem next?_lacking {kind : TokenKind} (lacking : Lacks kind after) :
    Takes (next? (lineOf? kind)) after (· = none) after :=
  next?_none fun token member => lineOf?_eq_none.mpr (lacking token member)

/-- A semicolon is taken, and dropped. -/
theorem semicolon
    {fault : SyntaxFault}
    {token : Token}
    (kind : token.kind = .symbol .semicolon) :
    Takes (discard (Grammar.expectSymbol .semicolon fault)) (token :: after)
      (fun _ => True) after :=
  (expectSymbol kind).dropped

/-- What is not left out is taken. -/
theorem present
    {α β : Type}
    {before : List Token}
    {parser : Parser α}
    {value : α}
    (shape : α → β)
    (taken : Takes parser before (fun found => shape found = shape value) after) :
    Takes (some <$> parser) before
      (fun found => found.map shape = (some value).map shape) after := by
  refine taken.map ?_
  intro found like
  simp only [Option.map_some]
  rw [like]

end Takes

/-- What closes an expression opens none. -/
theorem Closing.not_opensExpression {kind : TokenKind} (closing : Closing kind) :
    opensExpression kind = false := by
  cases closing <;> rfl

section

variable {before after : List Token} {size : Nat}

/-- An expression that may be left out is taken in front of its closing symbol. -/
theorem DerivesOptional.taken
    {value : Option Expr}
    {ending : Token}
    {following : Symbol}
    (derived : DerivesOptional before value (ending :: after))
    (kind : ending.kind = .symbol following)
    (closing : Closing (.symbol following))
    (bound : before.length ≤ size) :
    Takes (optionalExpression size following) before (LikeOptional value)
      (ending :: after) := by
  cases derived with
  | absent =>
      refine .bind (.upcoming_true kind) ?_
      rintro _ rfl
      exact .pure rfl
  | present derived =>
      refine .bind (.upcoming_false (derived.starts.lacks closing.not_opensExpression)) ?_
      rintro _ rfl
      exact .present Expr.shape (derived.taken bound (ends_of_closing (kind ▸ closing) after))

/-- An expression in parentheses is taken. -/
theorem DerivesCondition.taken
    {condition : Expr}
    (derived : DerivesCondition before condition after)
    (opening closing : SyntaxFault)
    (bound : before.length ≤ size) :
    Takes (parenthesized size opening closing) before (Like condition) after := by
  cases derived with
  | intro openingKind derived closingKind =>
      simp only [List.length_cons] at bound
      refine .bind (Takes.expectSymbol openingKind).dropped ?_
      intro _ _
      refine .bind (derived.taken (by omega)
        (ends_of_closing (closingKind ▸ .rightParen) after)) ?_
      intro found like
      refine .bind (Takes.expectSymbol closingKind).dropped ?_
      intro _ _
      exact .pure like

/-- An expression with a semicolon is taken. -/
theorem DerivesEffect.taken
    {effect : Stmt}
    (derived : DerivesEffect before effect after)
    (bound : before.length ≤ size) :
    Takes (expressionStatement size) before (LikeStatement effect) after := by
  cases derived with
  | intro derived kind =>
      refine .bind (derived.taken bound (ends_of_closing (kind ▸ .semicolon) after)) ?_
      intro found like
      refine .bind (.semicolon kind) ?_
      intro _ _
      refine .pure ?_
      simp only [LikeStatement, Stmt.shape]
      rw [like]

/-- A variable declaration behind its keyword is taken. -/
theorem DerivesVariable.taken
    {declaration : Stmt}
    (derived : DerivesVariable before declaration after)
    (bound : before.length ≤ size) :
    Takes (varAfter size) before (LikeStatement declaration) after := by
  cases derived with
  | plain named kind =>
      refine .bind (.expectName named) ?_
      rintro _ rfl
      refine .bind (.acceptSymbol_false (lacks_cons (by simp [kind]) after)) ?_
      rintro _ rfl
      refine .bind (.pure rfl) ?_
      rintro _ rfl
      refine .bind (.semicolon kind) ?_
      intro _ _
      exact .pure rfl
  | initialized named equalKind derived kind =>
      simp only [List.length_cons] at bound
      refine .bind (.expectName named) ?_
      rintro _ rfl
      refine .bind (.acceptSymbol_true equalKind) ?_
      rintro _ rfl
      refine .bind (.present Expr.shape (derived.taken (by omega)
        (ends_of_closing (kind ▸ .semicolon) after))) ?_
      intro found like
      refine .bind (.semicolon kind) ?_
      intro _ _
      refine .pure ?_
      simp only [LikeStatement, Stmt.shape]
      rw [like]

/-- The first clause of a `for` loop is taken. -/
theorem DerivesInitializer.taken
    {initializer : Option Stmt}
    (derived : DerivesInitializer before initializer after)
    (bound : before.length ≤ size) :
    Takes (forInitializer size) before (LikeInitializer initializer) after := by
  cases derived with
  | absent kind =>
      refine .bind (.acceptSymbol_true kind) ?_
      rintro _ rfl
      exact .pure rfl
  | declared kind derived =>
      simp only [List.length_cons] at bound
      refine .bind (.acceptSymbol_false (lacks_cons (by simp [kind]) _)) ?_
      rintro _ rfl
      refine .bind (.next?_keyword kind) ?_
      rintro _ rfl
      exact .present Stmt.shape (derived.taken (by omega))
  | effect derived =>
      refine .bind (.acceptSymbol_false (derived.starts.lacks rfl)) ?_
      rintro _ rfl
      refine .bind (.next?_lacking (derived.starts.lacks rfl)) ?_
      rintro _ rfl
      exact .present Stmt.shape (derived.taken bound)

/-! ## Names -/

/-- Names with commas between them are taken where there is room for them. -/
theorem DerivesNames.taken
    {names : List Identifier}
    (derived : DerivesNames before names after)
    (lacking : Lacks (.symbol .comma) after)
    (fault overflow : SyntaxFault)
    {room : Nat}
    (within : names.length ≤ room) :
    Takes (separated (expectName fault) overflow room) before (· = names) after := by
  induction derived generalizing room with
  | last named =>
      simp only [List.length_cons, List.length_nil] at within
      obtain ⟨less, rfl⟩ : ∃ less, room = less + 1 := ⟨room - 1, by omega⟩
      refine .bind (.expectName named) ?_
      rintro _ rfl
      refine .bind (.acceptSymbol_false lacking) ?_
      rintro _ rfl
      exact .pure rfl
  | more named kind _ inductionHypothesis =>
      simp only [List.length_cons] at within
      obtain ⟨less, rfl⟩ : ∃ less, room = less + 1 := ⟨room - 1, by omega⟩
      refine .bind (.expectName named) ?_
      rintro _ rfl
      refine .bind (.acceptSymbol_true kind) ?_
      rintro _ rfl
      refine .bind (inductionHypothesis lacking (by omega)) ?_
      rintro _ rfl
      exact .pure rfl

/-- Names do not begin with a closing parenthesis. -/
theorem DerivesNames.lacks_rightParen
    {names : List Identifier}
    (derived : DerivesNames before names after) :
    Lacks (.symbol .rightParen) before := by
  cases derived with
  | last named => exact lacks_cons (by simp [named.kind]) _
  | more named _ _ => exact lacks_cons (by simp [named.kind]) _

/-- Parameters are taken in front of the closing parenthesis. -/
theorem DerivesParameters.taken
    {names : List Identifier}
    {closing : Token}
    (derived : DerivesParameters before names (closing :: after))
    (kind : closing.kind = .symbol .rightParen)
    (fault overflow : SyntaxFault) :
    Takes (listed (expectName fault) overflow) before (· = names) (closing :: after) := by
  cases derived with
  | none => exact .listed_none kind
  | some derived within =>
      exact .listed_some derived.lacks_rightParen
        (derived.taken (lacks_cons (by simp [kind]) after) fault overflow within)

/-- A superclass is taken in front of the opening brace. -/
theorem DerivesSuperclass.taken
    {superclass : Option Reference}
    {opening : Token}
    (derived : DerivesSuperclass before superclass (opening :: after))
    (kind : opening.kind = .symbol .leftBrace) :
    Takes superclassClause before (LikeSuperclass superclass) (opening :: after) := by
  cases derived with
  | absent =>
      refine .bind (.acceptSymbol_false (lacks_cons (by simp [kind]) after)) ?_
      rintro _ rfl
      exact .pure rfl
  | present lessKind named =>
      refine .bind (.acceptSymbol_true lessKind) ?_
      rintro _ rfl
      refine .bind (.expectName named) ?_
      rintro _ rfl
      refine .bind .freshId ?_
      intro _ _
      exact .pure rfl

end

/-! ## Rows of elements -/

namespace Takes

variable {α : Type} {element : Parser α} {before rest after : List Token}

/-- In front of a closing brace, no element is taken. -/
theorem untilBrace_nil
    {closing : Token}
    (kind : closing.kind = .symbol .rightBrace)
    (fuel : Nat) :
    Takes (untilBrace element fuel) (closing :: after) (· = []) (closing :: after) := by
  cases fuel with
  | zero => exact .pure rfl
  | succ fuel =>
      refine .bind (.upcoming_true kind) ?_
      rintro _ rfl
      refine .bind (.atEnd) ?_
      rintro _ rfl
      exact .pure rfl

/-- Anywhere else, an element is taken, and then the others. -/
theorem untilBrace_cons
    {opens : TokenKind → Bool}
    {good : α → Prop}
    {better : List α → Prop}
    {fuel : Nat}
    (starts : StartsWith opens before)
    (other : opens (.symbol .rightBrace) = false)
    (taken : Takes element before good rest)
    (others : ∀ first, good first →
      Takes (untilBrace element fuel) rest (fun found => better (first :: found)) after) :
    Takes (untilBrace element (fuel + 1)) before better after := by
  refine .bind (.upcoming_false (starts.lacks other)) ?_
  rintro _ rfl
  refine .bind .atEnd ?_
  rintro _ rfl
  obtain ⟨token, tokens, rfl, -⟩ := starts
  refine .bind taken ?_
  intro first fine
  refine .bind (others first fine) ?_
  intro found finer
  exact .pure finer

end Takes

/-! ## What the parsers have to take -/

/-- The tree that a `for` loop stands for is the loop that the parser builds. -/
theorem IsForLoop.eq_forLoop
    {initializer : Option Stmt}
    {condition increment : Option Expr}
    {body tree : Stmt}
    (isLoop : IsForLoop initializer condition increment body tree) :
    tree = .forLoop initializer condition increment body := by
  obtain ⟨isCondition, isRound, isInitialized⟩ := isLoop
  cases isCondition <;> cases isRound <;> cases isInitialized <;> rfl


/-- The statement parser takes a statement, if no `else` follows a dangling one. -/
def CompleteStatement
    (ending : Ending)
    (before : List Token)
    (tree : Stmt)
    (after : List Token) :
    Prop :=
  ∀ size, before.length ≤ size →
    (ending = .dangling → Lacks (.keyword .elseWord) after) →
    Takes (statementWithin size) before (LikeStatement tree) after

/-- The declaration parser takes a declaration, if no `else` follows. -/
def CompleteDeclaration
    (before : List Token)
    (tree : Stmt)
    (after : List Token) :
    Prop :=
  ∀ size, before.length ≤ size →
    Lacks (.keyword .elseWord) after →
    Takes (declarationWithin size) before (LikeStatement tree) after

/-- Declarations are taken up to a closing brace. -/
def CompleteDeclarations
    (before : List Token)
    (trees : List Stmt)
    (after : List Token) :
    Prop :=
  ∀ size fuel, before.length ≤ size → before.length ≤ fuel →
    ∀ closing rest, after = closing :: rest →
    closing.kind = .symbol .rightBrace →
    Takes (untilBrace (declarationWithin size) fuel) before (LikeStatements trees) after

/-- A function is taken from its name on. -/
def CompleteFunction
    (before : List Token)
    (tree : FunctionDeclaration)
    (after : List Token) :
    Prop :=
  ∀ role size, before.length ≤ size →
    Takes (functionAfter role (declarationWithin size) (size + 1)) before
      (LikeFunction tree) after

/-- Methods are taken up to a closing brace. -/
def CompleteMethods
    (before : List Token)
    (trees : List FunctionDeclaration)
    (after : List Token) :
    Prop :=
  ∀ size fuel, before.length ≤ size → before.length ≤ fuel →
    ∀ closing rest, after = closing :: rest →
    closing.kind = .symbol .rightBrace →
    Takes (untilBrace (functionAfter .method (declarationWithin size) (size + 1)) fuel)
      before (LikeFunctions trees) after

/-- The body of a block is taken with its closing brace. -/
theorem CompleteDeclarations.blockBody
    {before after : List Token}
    {body : List Stmt}
    {closing : Token}
    (complete : CompleteDeclarations before body (closing :: after))
    (kind : closing.kind = .symbol .rightBrace)
    {size : Nat}
    (bound : before.length ≤ size) :
    Takes (blockBody (declarationWithin size) (size + 1)) before (LikeStatements body)
      after := by
  refine .bind (complete size (size + 1) bound (by omega) closing after rfl kind) ?_
  intro found like
  refine .bind (Takes.expectSymbol kind).dropped ?_
  intro _ _
  exact .pure like

/-! ## One lemma for each rule -/

namespace CompleteStatement

variable {before rest inner after : List Token} {ending : Ending}
  {keyword : Token} {tree body consequent alternative : Stmt} {condition : Expr}

/-- A statement with a first token of its own is taken if its rest is. -/
theorem of_start
    {start : StatementStart}
    (begins : BeginsStatement keyword start)
    (taken : ∀ size, rest.length ≤ size →
      (ending = .dangling → Lacks (.keyword .elseWord) after) →
      Takes (statementAfter (statementWithin size) (declarationWithin size) (size + 1)
        start) rest (LikeStatement tree) after) :
    CompleteStatement ending (keyword :: rest) tree after := by
  intro size bound whole
  simp only [List.length_cons] at bound
  obtain ⟨less, rfl⟩ : ∃ less, size = less + 1 := ⟨size - 1, by omega⟩
  refine .bind (.next?_some (statementStart?_eq_some.mpr begins)) ?_
  rintro _ rfl
  exact taken less (by omega) whole

/-- An expression statement is taken as a statement. -/
theorem effect (derived : DerivesEffect before tree after) :
    CompleteStatement .closed before tree after := by
  intro size bound _
  have shorter := derived.shorter
  obtain ⟨less, rfl⟩ : ∃ less, size = less + 1 := ⟨size - 1, by omega⟩
  refine .bind (.next?_none (derived.starts.first fun _ => statementStart?_eq_none)) ?_
  rintro _ rfl
  exact derived.taken bound

/-- A statement that prints. -/
theorem print
    {value : Expr}
    {semicolon : Token}
    (kind : keyword.kind = .keyword .printWord)
    (derived : Derives .expression rest value (semicolon :: after))
    (endKind : semicolon.kind = .symbol .semicolon) :
    CompleteStatement .closed (keyword :: rest) (.print value) after := by
  refine .of_start (.print kind) ?_
  intro size bound _
  refine .bind (derived.taken (by omega) (ends_of_closing (endKind ▸ .semicolon) after))
    ?_
  intro found like
  refine .bind (.semicolon endKind) ?_
  intro _ _
  refine .pure ?_
  simp only [LikeStatement, Stmt.shape]
  rw [like]

/-- A statement that returns. -/
theorem returnValue
    {value : Option Expr}
    {semicolon : Token}
    (kind : keyword.kind = .keyword .returnWord)
    (derived : DerivesOptional rest value (semicolon :: after))
    (endKind : semicolon.kind = .symbol .semicolon) :
    CompleteStatement .closed (keyword :: rest) (.returnValue keyword.line value)
      after := by
  refine .of_start (.returnValue kind) ?_
  intro size bound _
  refine .bind (derived.taken endKind .semicolon (by omega)) ?_
  intro found like
  refine .bind (.semicolon endKind) ?_
  intro _ _
  refine .pure ?_
  simp only [LikeStatement, Stmt.shape]
  rw [like]

/-- A block. -/
theorem block
    {trees : List Stmt}
    {opening closing : Token}
    (kind : opening.kind = .symbol .leftBrace)
    (complete : CompleteDeclarations rest trees (closing :: after))
    (closingKind : closing.kind = .symbol .rightBrace) :
    CompleteStatement .closed (opening :: rest) (.block trees) after := by
  refine .of_start (.block kind) ?_
  intro size bound _
  refine .map (complete.blockBody closingKind bound) ?_
  intro found like
  simp only [LikeStatement, Stmt.shape]
  rw [like]

/-- A `while` loop. -/
theorem whileLoop
    (kind : keyword.kind = .keyword .whileWord)
    (derived : DerivesCondition rest condition inner)
    (complete : CompleteStatement ending inner body after) :
    CompleteStatement ending (keyword :: rest) (.loop condition body) after := by
  refine .of_start (.loop kind) ?_
  intro size bound whole
  have shorter := derived.shorter
  refine .bind (derived.taken _ _ (by omega)) ?_
  intro foundCondition likeCondition
  refine .bind (complete size (by omega) whole) ?_
  intro foundBody likeBody
  refine .pure ?_
  simp only [LikeStatement, Stmt.shape]
  rw [likeCondition, likeBody]

/-- A branch without an `else`, where none follows. -/
theorem ifThen
    (kind : keyword.kind = .keyword .ifWord)
    (derived : DerivesCondition rest condition inner)
    (complete : CompleteStatement ending inner consequent after) :
    CompleteStatement .dangling (keyword :: rest) (.branch condition consequent none)
      after := by
  refine .of_start (.branch kind) ?_
  intro size bound whole
  have shorter := derived.shorter
  refine .bind (derived.taken _ _ (by omega)) ?_
  intro foundCondition likeCondition
  -- What is read may dangle itself, but here no `else` follows that it could take.
  refine .bind (complete size (by omega) fun _ => whole rfl) ?_
  intro foundConsequent likeConsequent
  refine .bind (.next?_lacking (whole rfl)) ?_
  rintro _ rfl
  refine .bind (.pure rfl) ?_
  rintro _ rfl
  refine .pure ?_
  simp only [LikeStatement, Stmt.shape]
  rw [likeCondition, likeConsequent]

/-- A branch with an `else`, in front of which a closed statement stands. -/
theorem ifThenElse
    {separator : Token}
    {others : List Token}
    (kind : keyword.kind = .keyword .ifWord)
    (derived : DerivesCondition rest condition inner)
    (consequentDerived :
      DerivesStatement .closed inner consequent (separator :: others))
    (consequentComplete :
      CompleteStatement .closed inner consequent (separator :: others))
    (elseKind : separator.kind = .keyword .elseWord)
    (alternativeComplete : CompleteStatement ending others alternative after) :
    CompleteStatement ending (keyword :: rest)
      (.branch condition consequent (some alternative)) after := by
  refine .of_start (.branch kind) ?_
  intro size bound whole
  have shorter := derived.shorter
  have later := consequentDerived.shorter
  simp only [List.length_cons] at later
  refine .bind (derived.taken _ _ (by omega)) ?_
  intro foundCondition likeCondition
  -- A closed statement leaves the `else` behind it alone.
  refine .bind (consequentComplete size (by omega) (by simp)) ?_
  intro foundConsequent likeConsequent
  refine .bind (.next?_keyword elseKind) ?_
  rintro _ rfl
  refine .bind (.present Stmt.shape (alternativeComplete size (by omega) whole)) ?_
  intro foundAlternative likeAlternative
  refine .pure ?_
  simp only [LikeStatement, Stmt.shape_branch]
  rw [likeCondition, likeConsequent, likeAlternative]

/-- A `for` loop. -/
theorem forLoop
    {opening semicolon closing : Token}
    {middle last : List Token}
    {initializer : Option Stmt}
    {first increment : Option Expr}
    (kind : keyword.kind = .keyword .forWord)
    (openingKind : opening.kind = .symbol .leftParen)
    (initializerDerived : DerivesInitializer rest initializer middle)
    (conditionDerived : DerivesOptional middle first (semicolon :: last))
    (semicolonKind : semicolon.kind = .symbol .semicolon)
    (incrementDerived : DerivesOptional last increment (closing :: inner))
    (closingKind : closing.kind = .symbol .rightParen)
    (complete : CompleteStatement ending inner body after)
    (isLoop : IsForLoop initializer first increment body tree) :
    CompleteStatement ending (keyword :: opening :: rest) tree after := by
  refine .of_start (.forLoop kind) ?_
  intro size bound whole
  have one := initializerDerived.shorter
  have two := conditionDerived.noLonger
  have three := incrementDerived.noLonger
  simp only [List.length_cons] at bound two three
  refine .bind (Takes.expectSymbol openingKind).dropped ?_
  intro _ _
  refine .bind (initializerDerived.taken (by omega)) ?_
  intro foundInitializer likeInitializer
  refine .bind (conditionDerived.taken semicolonKind .semicolon (by omega)) ?_
  intro foundCondition likeCondition
  refine .bind (.semicolon semicolonKind) ?_
  intro _ _
  refine .bind (incrementDerived.taken closingKind .rightParen (by omega)) ?_
  intro foundIncrement likeIncrement
  refine .bind (Takes.expectSymbol closingKind).dropped ?_
  intro _ _
  refine .bind (complete size (by omega) whole) ?_
  intro foundBody likeBody
  refine .pure ?_
  rw [isLoop.eq_forLoop]
  simp only [LikeStatement, Stmt.shape_forLoop]
  rw [likeInitializer, likeCondition, likeIncrement, likeBody]

end CompleteStatement

namespace CompleteDeclaration

variable {before rest after : List Token} {keyword : Token} {tree : Stmt}

/-- A declaration with a first token of its own is taken if its rest is. -/
theorem of_start
    {start : DeclarationStart}
    (begins : BeginsDeclaration keyword start)
    (taken : ∀ size, rest.length ≤ size →
      Takes (declarationAfter (declarationWithin size) (size + 1) start) rest
        (LikeStatement tree) after) :
    CompleteDeclaration (keyword :: rest) tree after := by
  intro size bound _
  simp only [List.length_cons] at bound
  obtain ⟨less, rfl⟩ : ∃ less, size = less + 1 := ⟨size - 1, by omega⟩
  refine .bind (.next?_some (declarationStart?_eq_some.mpr begins)) ?_
  rintro _ rfl
  exact taken less (by omega)

/-- A class. -/
theorem classDeclaration
    {target opening closing : Token}
    {name : Identifier}
    {superclass : Option Reference}
    {members : List Token}
    {methods : List FunctionDeclaration}
    (kind : keyword.kind = .keyword .classWord)
    (named : Names target name)
    (derived : DerivesSuperclass rest superclass (opening :: members))
    (openingKind : opening.kind = .symbol .leftBrace)
    (complete : CompleteMethods members methods (closing :: after))
    (closingKind : closing.kind = .symbol .rightBrace) :
    CompleteDeclaration (keyword :: target :: rest)
      (.classDeclaration name superclass methods) after := by
  refine .of_start (.classDeclaration kind) ?_
  intro size bound
  have noLonger := derived.noLonger
  simp only [List.length_cons] at bound noLonger
  refine .bind (.expectName named) ?_
  rintro _ rfl
  refine .bind (derived.taken openingKind) ?_
  intro foundSuperclass likeSuperclass
  refine .bind (Takes.expectSymbol openingKind).dropped ?_
  intro _ _
  refine .bind (complete size (size + 1) (by omega) (by omega) closing after rfl
    closingKind) ?_
  intro foundMethods likeMethods
  refine .bind (Takes.expectSymbol closingKind).dropped ?_
  intro _ _
  refine .pure ?_
  simp only [LikeStatement, Stmt.shape]
  rw [likeSuperclass, likeMethods]

/-- A function. -/
theorem functionDeclaration
    {function : FunctionDeclaration}
    (kind : keyword.kind = .keyword .funWord)
    (complete : CompleteFunction rest function after) :
    CompleteDeclaration (keyword :: rest) (.functionDeclaration function) after := by
  refine .of_start (.functionDeclaration kind) ?_
  intro size bound
  refine .map (complete .function size bound) ?_
  intro found like
  simp only [LikeStatement, Stmt.shape]
  rw [like]

/-- A variable declaration is taken behind its keyword. -/
theorem varDeclaration
    (kind : keyword.kind = .keyword .varWord)
    (derived : DerivesVariable rest tree after) :
    CompleteDeclaration (keyword :: rest) tree after := by
  refine .of_start (.varDeclaration kind) ?_
  intro size bound
  exact derived.taken (by omega)

/-- A statement. -/
theorem statement
    {ending : Ending}
    (derived : DerivesStatement ending before tree after)
    (complete : CompleteStatement ending before tree after) :
    CompleteDeclaration before tree after := by
  intro size bound lacking
  have shorter := derived.shorter
  obtain ⟨less, rfl⟩ : ∃ less, size = less + 1 := ⟨size - 1, by omega⟩
  refine .bind (.next?_none (derived.starts.first fun _ => declarationStart?_eq_none)) ?_
  rintro _ rfl
  exact complete (less + 1) bound fun _ => lacking

end CompleteDeclaration

theorem CompleteDeclarations.none (after : List Token) :
    CompleteDeclarations after [] after := by
  rintro size fuel - - closing rest rfl kind
  exact (Takes.untilBrace_nil kind fuel).weaken fun found isEmpty => isEmpty ▸ rfl

/-- One more declaration; what follows it does not begin with `else`. -/
theorem CompleteDeclarations.more
    {before rest after : List Token}
    {tree : Stmt}
    {trees : List Stmt}
    (derived : DerivesDeclaration before tree rest)
    (complete : CompleteDeclaration before tree rest)
    (othersDerived : DerivesDeclarations rest trees after)
    (others : CompleteDeclarations rest trees after) :
    CompleteDeclarations before (tree :: trees) after := by
  rintro size fuel bound covers closing tokens rfl kind
  have shorter := derived.shorter
  obtain ⟨less, rfl⟩ : ∃ less, fuel = less + 1 := ⟨fuel - 1, by omega⟩
  have lacking := othersDerived.lacks_else (lacks_cons (by simp [kind]) tokens)
  refine .untilBrace_cons derived.starts rfl (complete size bound lacking) ?_
  intro first like
  refine (others size less (by omega) (by omega) closing tokens rfl kind).weaken ?_
  intro found likes
  simp only [LikeStatements, Stmt.shapes] at likes ⊢
  rw [like, likes]

/-- A function from its name on. -/
theorem CompleteFunction.intro
    {rest inner after : List Token}
    {target opening closing brace closingBrace : Token}
    {name : Identifier}
    {parameters : List Identifier}
    {body : List Stmt}
    (named : Names target name)
    (openingKind : opening.kind = .symbol .leftParen)
    (derived : DerivesParameters rest parameters (closing :: brace :: inner))
    (closingKind : closing.kind = .symbol .rightParen)
    (braceKind : brace.kind = .symbol .leftBrace)
    (complete : CompleteDeclarations inner body (closingBrace :: after))
    (closingBraceKind : closingBrace.kind = .symbol .rightBrace) :
    CompleteFunction (target :: opening :: rest) (.intro name parameters body) after := by
  intro role size bound
  have noLonger := derived.noLonger
  simp only [List.length_cons] at bound noLonger
  refine .bind (.expectName named) ?_
  rintro _ rfl
  refine .bind (Takes.expectSymbol openingKind).dropped ?_
  intro _ _
  refine .bind (derived.taken closingKind _ _) ?_
  rintro _ rfl
  refine .bind (Takes.expectSymbol closingKind).dropped ?_
  intro _ _
  refine .bind (Takes.expectSymbol braceKind).dropped ?_
  intro _ _
  refine .bind (complete.blockBody closingBraceKind (by omega)) ?_
  intro found likes
  refine .pure ?_
  simp only [LikeFunction, FunctionDeclaration.shape]
  rw [likes]

theorem CompleteMethods.none (after : List Token) : CompleteMethods after [] after := by
  rintro size fuel - - closing rest rfl kind
  exact (Takes.untilBrace_nil kind fuel).weaken fun found isEmpty => isEmpty ▸ rfl

/-- One more method. -/
theorem CompleteMethods.more
    {before rest after : List Token}
    {tree : FunctionDeclaration}
    {trees : List FunctionDeclaration}
    (derived : DerivesFunction before tree rest)
    (complete : CompleteFunction before tree rest)
    (others : CompleteMethods rest trees after) :
    CompleteMethods before (tree :: trees) after := by
  rintro size fuel bound covers closing tokens rfl kind
  have shorter := derived.shorter
  obtain ⟨less, rfl⟩ : ∃ less, fuel = less + 1 := ⟨fuel - 1, by omega⟩
  refine .untilBrace_cons derived.starts rfl (complete .method size bound) ?_
  intro first like
  refine (others size less (by omega) (by omega) closing tokens rfl kind).weaken ?_
  intro found likes
  simp only [LikeFunctions, FunctionDeclaration.shapes] at likes ⊢
  rw [like, likes]

/-! ## The induction -/

mutual

/-- Every derivation of a statement is followed by the parsers. -/
theorem DerivesStatement.complete :
    ∀ {ending before tree after},
      DerivesStatement ending before tree after →
      CompleteStatement ending before tree after
  | _, _, _, _, .effect derived => .effect derived
  | _, _, _, _, .print kind value endKind => .print kind value endKind
  | _, _, _, _, .returnValue kind value endKind => .returnValue kind value endKind
  | _, _, _, _, .block kind body closingKind => .block kind body.complete closingKind
  | _, _, _, _, .whileLoop kind condition body => .whileLoop kind condition body.complete
  | _, _, _, _, .ifThen kind condition consequent =>
      .ifThen kind condition consequent.complete
  | _, _, _, _, .ifThenElse kind condition consequent elseKind alternative =>
      .ifThenElse kind condition consequent consequent.complete elseKind
        alternative.complete
  | _, _, _, _, .forLoop kind openingKind initializer condition semicolonKind increment
      closingKind body isLoop =>
      .forLoop kind openingKind initializer condition semicolonKind increment closingKind
        body.complete isLoop

/-- Derived declarations are taken by the parser. -/
theorem DerivesDeclaration.complete :
    ∀ {before tree after},
      DerivesDeclaration before tree after → CompleteDeclaration before tree after
  | _, _, _, .classDeclaration kind named superclass openingKind methods closingKind =>
      .classDeclaration kind named superclass openingKind methods.complete closingKind
  | _, _, _, .functionDeclaration kind function =>
      .functionDeclaration kind function.complete
  | _, _, _, .varDeclaration kind declaration => .varDeclaration kind declaration
  | _, _, _, .statement derived => .statement derived derived.complete

/-- Derived declarations in a row are taken by the parser. -/
theorem DerivesDeclarations.complete :
    ∀ {before trees after},
      DerivesDeclarations before trees after → CompleteDeclarations before trees after
  | _, _, _, .none => .none _
  | _, _, _, .more first rest => .more first first.complete rest rest.complete

/-- Derived functions are taken by the parser. -/
theorem DerivesFunction.complete :
    ∀ {before tree after},
      DerivesFunction before tree after → CompleteFunction before tree after
  | _, _, _, .intro named openingKind parameters closingKind braceKind body
      closingBraceKind =>
      .intro named openingKind parameters closingKind braceKind body.complete
        closingBraceKind

/-- Derived methods are taken by the parser. -/
theorem DerivesMethods.complete :
    ∀ {before trees after},
      DerivesMethods before trees after → CompleteMethods before trees after
  | _, _, _, .none => .none _
  | _, _, _, .more first rest => .more first first.complete rest.complete

end

/-- Whole declarations are taken by the reader of programs, without an error. -/
theorem DerivesProgram.read
    {tokens : List Token}
    {trees : List Stmt}
    (derived : DerivesProgram tokens trees)
    (fuel : Nat)
    (covers : tokens.length ≤ fuel)
    (reader : Reader)
    (shape : reader.rest = tokens) :
    (readProgramWithin fuel reader).errors = [] ∧
      LikeStatements trees (readProgramWithin fuel reader).statements := by
  induction fuel generalizing tokens trees reader with
  | zero =>
      obtain rfl : tokens = [] := List.eq_nil_of_length_eq_zero (by omega)
      cases derived with
      | none => exact ⟨rfl, rfl⟩
      | more first _ =>
          have shorter := first.shorter
          simp at shorter
  | succ fuel inductionHypothesis =>
      unfold readProgramWithin
      cases derived with
      | none => simp [shape, LikeStatements]
      | more first others =>
          have shorter := first.shorter
          have lacking := others.lacks_else (lacks_nil _)
          obtain ⟨found, next, given, left, like⟩ :=
            first.complete (fuel + 1) (by omega) lacking reader shape
          obtain ⟨faultless, likes⟩ := inductionHypothesis others (by omega) next left
          have nonempty : reader.rest.isEmpty = false := by
            rw [shape]
            cases tokens with
            | nil => simp at shorter
            | cons token rest => rfl
          rw [nonempty, given]
          refine ⟨faultless, ?_⟩
          simp only [LikeStatements, Stmt.shapes] at likes ⊢
          rw [← like, ← likes]
          rfl

end Lox.Grammar
