import Lox.Grammar.Program
import Lox.Proofs.Correspondence
import Lox.Proofs.Syntax.Copies

namespace Lox.Grammar

/-!
# Parsers of copies

A parser decides by the kinds and the texts of tokens.  On lists that agree in these, it
reads copies of one program, or reports one fault at the same token.  Only lines, and the
identities that it hands out, are taken over from where the two readers differ.
-/

variable (matching : Matching)

/-! ## Tokens and readers -/

/-- Tokens of one kind and text, on lines that stand for each other. -/
structure TokenCopies (left right : Token) : Prop where
  kind : left.kind = right.kind
  lexeme : left.lexeme = right.lexeme
  line : matching.lines left.line right.line

/--
Readers in front of copies of tokens.  The identities that they are going to hand out
stand for each other.
-/
structure ReaderCopies (left right : Reader) : Prop where
  rest : List.Forall₂ (TokenCopies matching) left.rest right.rest
  endLine : matching.lines left.endLine right.endLine
  nextId : ∀ count, matching.ids (left.nextId + count) (right.nextId + count)

/-- One fault at copies of a token. -/
structure SyntaxErrorCopies (left right : SyntaxError) : Prop where
  fault : left.fault = right.fault
  lexeme : left.lexeme = right.lexeme
  line : matching.lines left.line right.line
  remaining : left.remaining = right.remaining

/-- Parsers that end alike from readers in front of copies. -/
abbrev Mirror {α : Type} (matching : Matching) (values : α → α → Prop)
    (first second : Parser α) : Prop :=
  Mirrors (ReaderCopies matching) (SyntaxErrorCopies matching) values first second

variable {matching}

/-- Copies of an error are equal where all lines stand for themselves only. -/
theorem SyntaxErrorCopies.eq
    (lines : matching.KeepsLines)
    {error error' : SyntaxError}
    (copies : SyntaxErrorCopies matching error error') :
    error = error' := by
  obtain ⟨fault, lexeme, line, remaining⟩ := error
  obtain ⟨fault', lexeme', line', remaining'⟩ := error'
  obtain rfl : fault = fault' := copies.fault
  obtain rfl : lexeme = lexeme' := copies.lexeme
  obtain rfl : line = line' := lines copies.line
  obtain rfl : remaining = remaining' := copies.remaining
  rfl

/-- Tokens are copies of themselves if every line stands for itself. -/
theorem TokenCopies.allSelf
    (reflexive : ∀ line, matching.lines line line)
    (tokens : List Token) :
    List.Forall₂ (TokenCopies matching) tokens tokens :=
  List.forall₂_same.mpr fun token _ => ⟨rfl, rfl, reflexive token.line⟩

namespace ReaderCopies

variable {left right : Reader}

/-- A fault is reported at copies of one token, or at both ends. -/
theorem report (copies : ReaderCopies matching left right) (fault : SyntaxFault) :
    SyntaxErrorCopies matching (left.report fault) (right.report fault) := by
  obtain ⟨rest, endLine, nextId⟩ := left
  obtain ⟨rest', endLine', nextId'⟩ := right
  obtain ⟨tokens, ends, -⟩ := copies
  cases tokens with
  | nil => exact ⟨rfl, rfl, ends, rfl⟩
  | cons token others =>
      exact ⟨rfl, congrArg some token.lexeme, token.line,
        congrArg (· + 1) others.length_eq⟩

/-- Readers stay copies in front of other tokens that are copies. -/
theorem withRest
    (copies : ReaderCopies matching left right)
    {rest rest' : List Token}
    (tokens : List.Forall₂ (TokenCopies matching) rest rest') :
    ReaderCopies matching { left with rest := rest } { right with rest := rest' } :=
  { copies with rest := tokens }

end ReaderCopies

/-! ## Steps -/

section

variable {α : Type} {values : α → α → Prop}

theorem reject_mirror (fault : SyntaxFault) :
    Mirror matching values (reject fault) (reject fault) :=
  fun _ _ copies => .error (copies.report fault) copies

/-- Ways of reading a token that lead to values that stand for each other. -/
def ReadsAlike (matching : Matching) (values : α → α → Prop) (read : Token → Option α) :
    Prop :=
  ∀ token token', TokenCopies matching token token' →
    Option.Rel values (read token) (read token')

/-- Both parsers take a token, or neither does. -/
theorem next?_mirror
    {read : Token → Option α}
    (alike : ReadsAlike matching values read) :
    Mirror matching (Option.Rel values) (next? read) (next? read) := by
  intro left right copies
  obtain ⟨rest, endLine, nextId⟩ := left
  obtain ⟨rest', endLine', nextId'⟩ := right
  cases copies.rest with
  | nil => exact .ok .none copies
  | @cons token token' others others' same tokens =>
      have found := alike token token' same
      unfold next?
      dsimp only
      generalize read token = taken at found ⊢
      generalize read token' = taken' at found ⊢
      cases found with
      | none => exact .ok .none copies
      | some value => exact .ok (.some value) (copies.withRest tokens)

/-- A token that is required is required of its copy, with the same fault. -/
theorem require_mirror
    {read : Token → Option α}
    (alike : ReadsAlike matching values read)
    (fault : SyntaxFault) :
    Mirror matching values (require read fault) (require read fault) := by
  refine (next?_mirror alike).bind fun found found' related => ?_
  cases related with
  | none => exact reject_mirror fault
  | some value => exact .pure value

/-- The line of a token of some kind is read from its copy, where the copy stands. -/
theorem lineOf?_alike (kind : TokenKind) :
    ReadsAlike matching matching.lines (lineOf? kind) := by
  intro token token' same
  unfold lineOf?
  rw [same.kind]
  split
  · exact .some same.line
  · exact .none

/-- A name is read from the copy of its token. -/
theorem identifier?_alike : ReadsAlike matching (IdentifierCopies matching) identifier? := by
  intro token token' same
  unfold identifier?
  rw [same.kind]
  split
  · exact .some ⟨same.lexeme, same.line⟩
  · exact .none

theorem expectSymbol_mirror (symbol : Symbol) (fault : SyntaxFault) :
    Mirror matching matching.lines (expectSymbol symbol fault) (expectSymbol symbol fault) :=
  require_mirror (lineOf?_alike _) fault

theorem expectName_mirror (fault : SyntaxFault) :
    Mirror matching (IdentifierCopies matching) (expectName fault) (expectName fault) :=
  require_mirror identifier?_alike fault

/-- A copy is found where something is found. -/
theorem isSome_of_rel
    {found found' : Option α}
    (related : Option.Rel values found found') :
    found.isSome = found'.isSome := by
  cases related <;> rfl

theorem acceptSymbol_mirror (symbol : Symbol) :
    Mirror matching Eq (acceptSymbol symbol) (acceptSymbol symbol) :=
  (next?_mirror (lineOf?_alike _)).bind fun _ _ related => .pure (isSome_of_rel related)

/-- A symbol is upcoming in front of copies if it is upcoming at all. -/
theorem upcoming_mirror (symbol : Symbol) :
    Mirror matching Eq (upcoming symbol) (upcoming symbol) := by
  intro left right copies
  refine .ok ?_ copies
  generalize left.rest = tokens, right.rest = tokens', copies.rest = related
  cases related with
  | nil => rfl
  | cons same _ => simp [same.kind]

theorem atEnd_mirror : Mirror matching Eq atEnd atEnd := by
  intro left right copies
  refine .ok ?_ copies
  generalize left.rest = tokens, right.rest = tokens', copies.rest = related
  cases related <;> rfl

/-- Identities that are given out at the same point stand for each other. -/
theorem freshId_mirror : Mirror matching matching.ids freshId freshId := by
  intro left right copies
  refine .ok (copies.nextId 0) { copies with nextId := fun count => ?_ }
  have later := copies.nextId (1 + count)
  rwa [← Nat.add_assoc, ← Nat.add_assoc] at later

/-- Values that are extended alike. -/
theorem extend_mirror
    {step step' : α → Parser (Option α)}
    (steps : ∀ value value', values value value' →
      Mirror matching (Option.Rel values) (step value) (step' value')) :
    ∀ (fuel : Nat) {value value' : α}, values value value' →
      Mirror matching values (extend step fuel value) (extend step' fuel value')
  | 0, _, _, same => .pure same
  | fuel + 1, value, value', same => by
      refine (steps value value' same).bind fun found found' related => ?_
      cases related with
      | none => exact .pure same
      | some longer => exact extend_mirror steps fuel longer

section

variable {element element' : Parser α} (elements : Mirror matching values element element')

include elements

/-- Elements with commas between them are read from copies, one for one. -/
theorem separated_mirror (overflow : SyntaxFault) :
    ∀ room : Nat,
      Mirror matching (List.Forall₂ values) (separated element overflow room)
        (separated element' overflow room)
  | 0 => reject_mirror overflow
  | room + 1 => by
      refine elements.bind fun first first' same => ?_
      refine (acceptSymbol_mirror _).bind ?_
      rintro found _ rfl
      refine .either Iff.rfl ?_ (.pure (.cons same .nil))
      refine (separated_mirror overflow room).bind fun rest rest' others => ?_
      exact .pure (.cons same others)

/-- A list that may be empty is read from copies, one for one. -/
theorem listed_mirror (overflow : SyntaxFault) :
    Mirror matching (List.Forall₂ values) (listed element overflow)
      (listed element' overflow) := by
  refine (upcoming_mirror _).bind ?_
  rintro closing _ rfl
  exact .either Iff.rfl (.pure .nil) (separated_mirror elements overflow _)

/-- Elements up to a closing brace are read from copies, one for one. -/
theorem untilBrace_mirror :
    ∀ fuel : Nat,
      Mirror matching (List.Forall₂ values) (untilBrace element fuel)
        (untilBrace element' fuel)
  | 0 => .pure .nil
  | fuel + 1 => by
      refine (upcoming_mirror _).bind ?_
      rintro closing _ rfl
      refine atEnd_mirror.bind ?_
      rintro ended _ rfl
      refine .either Iff.rfl (.pure .nil) ?_
      refine elements.bind fun first first' same => ?_
      refine (untilBrace_mirror fuel).bind fun rest rest' others => ?_
      exact .pure (.cons same others)

end

/-- A token that only closes something is dropped. -/
theorem closing_mirror
    {β : Type}
    {results : β → β → Prop}
    (symbol : Symbol)
    (fault : SyntaxFault)
    {next next' : Parser β}
    (others : Mirror matching results next next') :
    Mirror matching results
      (do
        discard (expectSymbol symbol fault)
        next)
      (do
        discard (expectSymbol symbol fault)
        next') :=
  (expectSymbol_mirror symbol fault).discard.bind fun _ _ _ => others

end

/-! ## Operators -/

/-- Joins that make copies of copies. -/
def JoinCopies (matching : Matching) (join join' : Join) : Prop :=
  ∀ left left' right right',
    ExprCopies matching left left' → ExprCopies matching right right' →
      ExprCopies matching (join left right) (join' left' right')

/-- Operators with one operand that make copies of copies. -/
def PrefixCopies (matching : Matching) (apply apply' : Expr → Expr) : Prop :=
  ∀ operand operand', ExprCopies matching operand operand' →
    ExprCopies matching (apply operand) (apply' operand')

/-- An operator at a token makes copies of copies, on the line of the copied token. -/
theorem binaryJoin_copies
    {token token' : Token}
    (same : TokenCopies matching token token')
    (operator : BinaryOperator) :
    Option.Rel (JoinCopies matching) (binaryJoin operator token)
      (binaryJoin operator token') :=
  .some fun _ _ _ _ first second => .binary same.line first second

/-- A logical operator makes copies of copies, whatever its line. -/
theorem logicalJoin_copies (operator : LogicalOperator) :
    Option.Rel (JoinCopies matching) (some (.logical operator))
      (some (.logical operator)) :=
  .some fun _ _ _ _ first second => .logical first second

/-- The operators of every level are read alike from copies. -/
theorem disjunction?_alike : ReadsAlike matching (JoinCopies matching) disjunction? := by
  intro token token' same
  unfold disjunction?
  rw [same.kind]
  split
  · exact logicalJoin_copies .or
  · exact .none

theorem conjunction?_alike : ReadsAlike matching (JoinCopies matching) conjunction? := by
  intro token token' same
  unfold conjunction?
  rw [same.kind]
  split
  · exact logicalJoin_copies .and
  · exact .none

theorem equality?_alike : ReadsAlike matching (JoinCopies matching) equality? := by
  intro token token' same
  unfold equality?
  rw [same.kind]
  split
  · exact binaryJoin_copies same .notEqual
  · exact binaryJoin_copies same .equal
  · exact .none

theorem comparison?_alike : ReadsAlike matching (JoinCopies matching) comparison? := by
  intro token token' same
  unfold comparison?
  rw [same.kind]
  split
  · exact binaryJoin_copies same .greater
  · exact binaryJoin_copies same .greaterEqual
  · exact binaryJoin_copies same .less
  · exact binaryJoin_copies same .lessEqual
  · exact .none

theorem sum?_alike : ReadsAlike matching (JoinCopies matching) sum? := by
  intro token token' same
  unfold sum?
  rw [same.kind]
  split
  · exact binaryJoin_copies same .subtract
  · exact binaryJoin_copies same .add
  · exact .none

theorem product?_alike : ReadsAlike matching (JoinCopies matching) product? := by
  intro token token' same
  unfold product?
  rw [same.kind]
  split
  · exact binaryJoin_copies same .divide
  · exact binaryJoin_copies same .multiply
  · exact .none

/-- An operator in front of its operand is read alike from copies. -/
theorem unary?_alike : ReadsAlike matching (PrefixCopies matching) unary? := by
  intro token token' same
  unfold unary?
  rw [same.kind]
  split
  · exact .some fun _ _ operand => .unary same.line operand
  · exact .some fun _ _ operand => .unary same.line operand
  · exact .none

/-! ## Expressions -/

/-- Starts of copies of a primary expression. -/
inductive PrimaryStartCopies (matching : Matching) : PrimaryStart → PrimaryStart → Prop where
  | literal {value} : PrimaryStartCopies matching (.literal value) (.literal value)
  | name {name name'} :
      IdentifierCopies matching name name' →
      PrimaryStartCopies matching (.name name) (.name name')
  | this {line line'} :
      matching.lines line line' →
      PrimaryStartCopies matching (.this line) (.this line')
  | super {line line'} :
      matching.lines line line' →
      PrimaryStartCopies matching (.super line) (.super line')
  | group : PrimaryStartCopies matching .group .group

/-- Copies of a token start copies of a primary expression. -/
theorem primaryStart?_alike :
    ReadsAlike matching (PrimaryStartCopies matching) primaryStart? := by
  intro token token' same
  unfold primaryStart?
  rw [same.kind]
  split
  · exact .some .literal
  · exact .some .literal
  · exact .some .literal
  · exact .some .literal
  · exact .some .literal
  · exact .some (.this same.line)
  · exact .some (.super same.line)
  · exact .some (.name ⟨same.lexeme, same.line⟩)
  · exact .some .group
  · exact .none

section

variable {inner inner' : Parser Expr}
  (nested : Mirror matching (ExprCopies matching) inner inner')

include nested

/-- Copies of a primary expression are read from copies of its tokens. -/
theorem primary_mirror :
    Mirror matching (ExprCopies matching) (primary inner) (primary inner') := by
  refine (next?_mirror primaryStart?_alike).bind fun start start' related => ?_
  cases related with
  | none => exact reject_mirror _
  | some same =>
      cases same with
      | literal => exact .pure .literal
      | name name =>
          exact freshId_mirror.bind fun _ _ ids => .pure (.reference ⟨ids, name⟩)
      | this line => exact freshId_mirror.bind fun _ _ ids => .pure (.this ids line)
      | super line =>
          refine closing_mirror _ _ ?_
          refine (expectName_mirror _).bind fun _ _ method => ?_
          exact freshId_mirror.bind fun _ _ ids => .pure (.super ids line method)
      | group =>
          refine nested.bind fun _ _ expression => ?_
          exact closing_mirror _ _ (.pure (.grouping expression))

/-- Copies of a call or of a property are read behind copies of their subject. -/
theorem callOrProperty_mirror
    {subject subject' : Expr}
    (same : ExprCopies matching subject subject') :
    Mirror matching (Option.Rel (ExprCopies matching)) (callOrProperty inner subject)
      (callOrProperty inner' subject') := by
  refine (acceptSymbol_mirror _).bind ?_
  rintro called _ rfl
  refine .either Iff.rfl ?_ ?_
  · refine (listed_mirror nested _).bind fun _ _ arguments => ?_
    exact (expectSymbol_mirror _ _).bind fun _ _ line =>
      .pure (.some (.call same arguments line))
  · refine (acceptSymbol_mirror _).bind ?_
    rintro dotted _ rfl
    refine .either Iff.rfl ?_ (.pure .none)
    exact (expectName_mirror _).bind fun _ _ name => .pure (.some (.property same name))

/-- Copies of calls and properties in a row are read behind copies of their subject. -/
theorem callChain_mirror (size : Nat) :
    Mirror matching (ExprCopies matching) (callChain inner size) (callChain inner' size) :=
  (primary_mirror nested).bind fun _ _ subject =>
    extend_mirror (fun _ _ same => callOrProperty_mirror nested same) size subject

omit nested in
/-- Copies of operators in front are read, and put before copies of their operand. -/
theorem unaryChain_mirror
    {operand operand' : Parser Expr}
    (operands : Mirror matching (ExprCopies matching) operand operand') :
    ∀ size : Nat,
      Mirror matching (ExprCopies matching) (unaryChain operand size)
        (unaryChain operand' size)
  | 0 => operands
  | size + 1 => by
      refine (next?_mirror unary?_alike).bind fun apply apply' related => ?_
      cases related with
      | none => exact operands
      | some same =>
          exact (unaryChain_mirror operands size).bind fun _ _ operand =>
            .pure (same _ _ operand)

omit nested in
/-- Copies of operands are joined alike by copies of the operators between them. -/
theorem joinedChain_mirror
    {join? : Token → Option Join}
    (alike : ReadsAlike matching (JoinCopies matching) join?)
    {operand operand' : Parser Expr}
    (operands : Mirror matching (ExprCopies matching) operand operand')
    (size : Nat) :
    Mirror matching (ExprCopies matching) (joinedChain join? operand size)
      (joinedChain join? operand' size) := by
  refine operands.bind fun _ _ first => extend_mirror (fun left left' same => ?_) size first
  refine (next?_mirror alike).bind fun join join' related => ?_
  cases related with
  | none => exact .pure .none
  | some joins => exact operands.bind fun _ _ right => .pure (.some (joins _ _ _ _ same right))

/-- Copies of an expression without an assignment are read from copies of its tokens. -/
theorem operation_mirror (size : Nat) :
    Mirror matching (ExprCopies matching) (operation inner size) (operation inner' size) := by
  have factor := unaryChain_mirror (callChain_mirror nested size) size
  have term := joinedChain_mirror product?_alike factor size
  have operand := joinedChain_mirror sum?_alike term size
  have compared := joinedChain_mirror comparison?_alike operand size
  have equated := joinedChain_mirror equality?_alike compared size
  have joined := joinedChain_mirror conjunction?_alike equated size
  exact joinedChain_mirror disjunction?_alike joined size

/-- Copies of an assignment are read from copies of its tokens, or rejected alike. -/
theorem assignment_mirror (size : Nat) :
    Mirror matching (ExprCopies matching) (assignment inner size)
      (assignment inner' size) := by
  refine (operation_mirror nested size).bind fun target target' same => ?_
  refine .get fun atEqual atEqual' readers => ?_
  refine (acceptSymbol_mirror _).bind ?_
  rintro assigned _ rfl
  refine .either Iff.rfl (nested.bind fun value value' values => ?_) (.pure same)
  cases same with
  | reference occurrence =>
      exact freshId_mirror.bind fun _ _ ids => .pure (.assign ⟨ids, occurrence.name⟩ values)
  | property object name => exact .pure (.setProperty object name values)
  | _ => exact .throw (readers.report _)

end

/-- Copies of an expression are read from copies of its tokens, within one budget. -/
theorem expressionWithin_mirror :
    ∀ size : Nat,
      Mirror matching (ExprCopies matching) (expressionWithin size) (expressionWithin size)
  | 0 => reject_mirror _
  | size + 1 => assignment_mirror (expressionWithin_mirror size) (size + 1)

/-- An expression that is read where one may stand. -/
theorem someExpression_mirror (size : Nat) :
    Mirror matching (Option.Rel (ExprCopies matching)) (some <$> expressionWithin size)
      (some <$> expressionWithin size) :=
  (expressionWithin_mirror size).map fun _ _ => .some

/-- An expression is left out in front of copies of one symbol. -/
theorem optionalExpression_mirror (size : Nat) (following : Symbol) :
    Mirror matching (Option.Rel (ExprCopies matching)) (optionalExpression size following)
      (optionalExpression size following) := by
  refine (upcoming_mirror following).bind ?_
  rintro absent _ rfl
  exact .either Iff.rfl (.pure .none) (someExpression_mirror size)

/-! ## Statements and declarations -/

theorem expressionStatement_mirror (size : Nat) :
    Mirror matching (StmtCopies matching) (expressionStatement size)
      (expressionStatement size) :=
  (expressionWithin_mirror size).bind fun _ _ value =>
    closing_mirror _ _ (.pure (.expression value))

/-- Copies of a condition are read, with the same faults at its parentheses. -/
theorem parenthesized_mirror (size : Nat) (opening closing : SyntaxFault) :
    Mirror matching (ExprCopies matching) (parenthesized size opening closing)
      (parenthesized size opening closing) := by
  refine closing_mirror _ _ ?_
  refine (expressionWithin_mirror size).bind fun _ _ condition => ?_
  exact closing_mirror _ _ (.pure condition)

/-- Copies of a variable declaration are read from copies of its tokens. -/
theorem varAfter_mirror (size : Nat) :
    Mirror matching (StmtCopies matching) (varAfter size) (varAfter size) := by
  refine (expectName_mirror _).bind fun name name' names => ?_
  refine (acceptSymbol_mirror _).bind ?_
  rintro initialized _ rfl
  have ending : ∀ initializer initializer',
      Option.Rel (ExprCopies matching) initializer initializer' →
      Mirror matching (StmtCopies matching)
        (do
          discard (expectSymbol .semicolon .declarationEndExpected)
          return Stmt.varDeclaration name initializer)
        (do
          discard (expectSymbol .semicolon .declarationEndExpected)
          return Stmt.varDeclaration name' initializer') :=
    fun _ _ same => closing_mirror _ _ (.pure (.varDeclaration names same))
  exact .either Iff.rfl ((someExpression_mirror size).bind ending) (ending _ _ .none)

/-- Copies of a superclass are read from copies of its tokens, or none on both sides. -/
theorem superclassClause_mirror :
    Mirror matching (Option.Rel (ReferenceCopies matching)) superclassClause
      superclassClause := by
  refine (acceptSymbol_mirror _).bind ?_
  rintro inherits _ rfl
  refine .either Iff.rfl ?_ (.pure .none)
  refine (expectName_mirror _).bind fun _ _ name => ?_
  exact freshId_mirror.bind fun _ _ ids => .pure (.some ⟨ids, name⟩)

/-- Starts of copies of a statement. -/
inductive StatementStartCopies (matching : Matching) :
    StatementStart → StatementStart → Prop where
  | forLoop : StatementStartCopies matching .forLoop .forLoop
  | branch : StatementStartCopies matching .branch .branch
  | print : StatementStartCopies matching .print .print
  | returnValue {line line'} :
      matching.lines line line' →
      StatementStartCopies matching (.returnValue line) (.returnValue line')
  | loop : StatementStartCopies matching .loop .loop
  | block : StatementStartCopies matching .block .block

/-- Copies of a token start the same kind of statement. -/
theorem statementStart?_alike :
    ReadsAlike matching (StatementStartCopies matching) statementStart? := by
  intro token token' same
  unfold statementStart?
  rw [same.kind]
  split
  · exact .some .forLoop
  · exact .some .branch
  · exact .some .print
  · exact .some (.returnValue same.line)
  · exact .some .loop
  · exact .some .block
  · exact .none

/-- Copies of a token start the same kind of declaration. -/
theorem declarationStart?_alike : ReadsAlike matching Eq declarationStart? := by
  intro token token' same
  unfold declarationStart?
  rw [same.kind]
  split
  · exact .some rfl
  · exact .some rfl
  · exact .some rfl
  · exact .none

/-- Copies of `for` loops, in terms of the other statements. -/
theorem forLoop_copies
    {initializer initializer' : Option Stmt}
    {condition condition' increment increment' : Option Expr}
    {body body' : Stmt}
    (initializers : Option.Rel (StmtCopies matching) initializer initializer')
    (conditions : Option.Rel (ExprCopies matching) condition condition')
    (increments : Option.Rel (ExprCopies matching) increment increment')
    (bodies : StmtCopies matching body body') :
    StmtCopies matching (.forLoop initializer condition increment body)
      (.forLoop initializer' condition' increment' body') := by
  have known : ExprCopies matching (condition.getD (.literal (.bool true)))
      (condition'.getD (.literal (.bool true))) := by
    cases conditions with
    | none => exact .literal
    | some condition => exact condition
  have loops : ∀ round round', StmtCopies matching round round' →
      StmtCopies matching (.forLoop initializer condition none round)
        (.forLoop initializer' condition' none round') := by
    intro round round' rounds
    cases initializers with
    | none => exact .loop known rounds
    | some first => exact .block (.cons first (.cons (.loop known rounds) .nil))
  cases increments with
  | none => exact loops _ _ bodies
  | some step => exact loops _ _ (.block (.cons bodies (.cons (.expression step) .nil)))

section

variable {statement statement' declaration declaration' : Parser Stmt}
  (statements : Mirror matching (StmtCopies matching) statement statement')
  (declarations : Mirror matching (StmtCopies matching) declaration declaration')

include declarations in
/-- Copies of the declarations of a block are read from copies of its tokens. -/
theorem blockBody_mirror (size : Nat) :
    Mirror matching (List.Forall₂ (StmtCopies matching)) (blockBody declaration size)
      (blockBody declaration' size) :=
  (untilBrace_mirror declarations size).bind fun _ _ body =>
    closing_mirror _ _ (.pure body)

include declarations in
/-- Copies of a function are read from copies of its tokens, for the same use of it. -/
theorem functionAfter_mirror (role : FunctionRole) (size : Nat) :
    Mirror matching (FunctionCopies matching) (functionAfter role declaration size)
      (functionAfter role declaration' size) := by
  refine (expectName_mirror _).bind fun _ _ name => closing_mirror _ _ ?_
  refine (listed_mirror (expectName_mirror _) _).bind fun _ _ parameters => ?_
  refine closing_mirror _ _ (closing_mirror _ _ ?_)
  exact (blockBody_mirror declarations size).bind fun _ _ body =>
    .pure (.intro name parameters body)

include declarations in
/-- Copies of a class are read from copies of its tokens. -/
theorem classAfter_mirror (size : Nat) :
    Mirror matching (StmtCopies matching) (classAfter declaration size)
      (classAfter declaration' size) := by
  refine (expectName_mirror _).bind fun _ _ name => ?_
  refine superclassClause_mirror.bind fun _ _ superclass => closing_mirror _ _ ?_
  refine (untilBrace_mirror (functionAfter_mirror declarations _ size) _).bind
    fun _ _ methods => ?_
  exact closing_mirror _ _ (.pure (.classDeclaration name superclass methods))

/-- Copies of the first clause of a `for` loop are read from copies of its tokens. -/
theorem forInitializer_mirror (size : Nat) :
    Mirror matching (Option.Rel (StmtCopies matching)) (forInitializer size)
      (forInitializer size) := by
  refine (acceptSymbol_mirror _).bind ?_
  rintro absent _ rfl
  refine .either Iff.rfl (.pure .none) ?_
  refine (next?_mirror (lineOf?_alike _)).bind fun found found' related => ?_
  rw [isSome_of_rel related]
  refine .either Iff.rfl ?_ ?_
  · exact (varAfter_mirror size).map fun _ _ => .some
  · exact (expressionStatement_mirror size).map fun _ _ => .some

include statements in
/-- Copies of a `for` loop are read, and taken apart into the same simpler statements. -/
theorem forAfter_mirror (size : Nat) :
    Mirror matching (StmtCopies matching) (forAfter statement size)
      (forAfter statement' size) := by
  refine closing_mirror _ _ ?_
  refine (forInitializer_mirror size).bind fun _ _ initializer => ?_
  refine (optionalExpression_mirror size _).bind fun _ _ condition => closing_mirror _ _ ?_
  refine (optionalExpression_mirror size _).bind fun _ _ increment => closing_mirror _ _ ?_
  exact statements.bind fun _ _ body =>
    .pure (forLoop_copies initializer condition increment body)

include statements in
/-- Copies of a conditional statement are read from copies of its tokens. -/
theorem branchAfter_mirror (size : Nat) :
    Mirror matching (StmtCopies matching) (branchAfter statement size)
      (branchAfter statement' size) := by
  refine (parenthesized_mirror size _ _).bind fun _ _ condition => ?_
  refine statements.bind fun _ _ consequent => ?_
  refine (next?_mirror (lineOf?_alike _)).bind fun found found' related => ?_
  rw [isSome_of_rel related]
  refine .either Iff.rfl ?_ (.pure (.branch condition consequent .none))
  refine (statements.map fun _ _ => Option.Rel.some).bind fun _ _ alternative => ?_
  exact .pure (.branch condition consequent alternative)

include statements declarations in
/-- Copies of a statement are read from copies of its tokens. -/
theorem anyStatement_mirror (size : Nat) :
    Mirror matching (StmtCopies matching) (anyStatement statement declaration size)
      (anyStatement statement' declaration' size) := by
  refine (next?_mirror statementStart?_alike).bind fun start start' related => ?_
  cases related with
  | none => exact expressionStatement_mirror size
  | some same =>
      cases same with
      | forLoop => exact forAfter_mirror statements size
      | branch => exact branchAfter_mirror statements size
      | print =>
          exact (expressionWithin_mirror size).bind fun _ _ value =>
            closing_mirror _ _ (.pure (.print value))
      | returnValue line =>
          exact (optionalExpression_mirror size _).bind fun _ _ value =>
            closing_mirror _ _ (.pure (.returnValue line value))
      | loop =>
          refine (parenthesized_mirror size _ _).bind fun _ _ condition => ?_
          exact statements.bind fun _ _ body => .pure (.loop condition body)
      | block => exact (blockBody_mirror declarations size).map fun _ _ => .block

include statements declarations in
/-- Copies of a declaration are read from copies of its tokens. -/
theorem anyDeclaration_mirror (size : Nat) :
    Mirror matching (StmtCopies matching) (anyDeclaration statement declaration size)
      (anyDeclaration statement' declaration' size) := by
  refine (next?_mirror declarationStart?_alike).bind fun start start' related => ?_
  cases related with
  | none => exact anyStatement_mirror statements declarations size
  | @some start _ same =>
      obtain rfl := same
      cases start with
      | classDeclaration => exact classAfter_mirror declarations size
      | functionDeclaration =>
          exact (functionAfter_mirror declarations _ size).map fun _ _ =>
            .functionDeclaration
      | varDeclaration => exact varAfter_mirror size

end

/-- Copies of statements and of declarations are read, within one budget. -/
theorem within_mirror (size : Nat) :
    Mirror matching (StmtCopies matching) (statementWithin size) (statementWithin size) ∧
      Mirror matching (StmtCopies matching) (declarationWithin size)
        (declarationWithin size) := by
  induction size with
  | zero => exact ⟨reject_mirror _, reject_mirror _⟩
  | succ size inductionHypothesis =>
      obtain ⟨statements, declarations⟩ := inductionHypothesis
      exact ⟨anyStatement_mirror statements declarations _,
        anyDeclaration_mirror statements declarations _⟩

/-! ## Programs -/

/-- Both readers go on behind copies of one token. -/
theorem resumeAfter_copies
    {rest rest' : List Token}
    (tokens : List.Forall₂ (TokenCopies matching) rest rest')
    {dropped dropped' : Token}
    (same : TokenCopies matching dropped dropped') :
    List.Forall₂ (TokenCopies matching) (resumeAfter dropped rest)
      (resumeAfter dropped' rest') := by
  induction tokens generalizing dropped dropped' with
  | nil => exact .nil
  | @cons token token' others others' first tokens inductionHypothesis =>
      have starts : startsStatement token = startsStatement token' := by
        unfold startsStatement
        rw [first.kind]
      unfold resumeAfter
      rw [same.kind, starts]
      split
      · exact .cons first tokens
      · exact inductionHypothesis first

/-- Copies of tokens are dropped up to copies of the token at which reading goes on. -/
theorem resynchronize_copies
    {rest rest' : List Token}
    (tokens : List.Forall₂ (TokenCopies matching) rest rest') :
    List.Forall₂ (TokenCopies matching) (resynchronize rest) (resynchronize rest') := by
  cases tokens with
  | nil => exact .nil
  | cons same others => exact resumeAfter_copies others same

/-- Readings of copies, with the same errors between copies of statements. -/
structure ReadingCopies (matching : Matching) (left right : ProgramReading) : Prop where
  statements : List.Forall₂ (StmtCopies matching) left.statements right.statements
  errors : List.Forall₂ (SyntaxErrorCopies matching) left.errors right.errors
  reader : ReaderCopies matching left.reader right.reader

/-- Copies of a whole program are read round for round, with copies of its errors. -/
theorem readProgramWithin_copies
    (fuel : Nat)
    {left right : Reader}
    (copies : ReaderCopies matching left right) :
    ReadingCopies matching (readProgramWithin fuel left) (readProgramWithin fuel right) := by
  induction fuel generalizing left right with
  | zero => exact ⟨.nil, .nil, copies⟩
  | succ fuel inductionHypothesis =>
      have ended : left.rest.isEmpty = right.rest.isEmpty := by
        generalize left.rest = tokens, right.rest = tokens', copies.rest = related
        cases related <;> rfl
      unfold readProgramWithin
      rw [ended]
      by_cases atEnd : right.rest.isEmpty
      · rw [if_pos atEnd, if_pos atEnd]
        exact ⟨.nil, .nil, copies⟩
      rw [if_neg atEnd, if_neg atEnd]
      have read := (within_mirror (fuel + 1)).2 left right copies
      generalize declarationWithin (fuel + 1) left = outcome at read ⊢
      generalize declarationWithin (fuel + 1) right = outcome' at read ⊢
      cases read with
      | ok statement further =>
          have others := inductionHypothesis further
          exact { others with statements := .cons statement others.statements }
      | error alike further =>
          have others := inductionHypothesis
            (further.withRest (resynchronize_copies further.rest))
          exact { others with errors := .cons alike others.errors }

/-- Programs are read alike from copies of their tokens. -/
theorem program_mirror :
    Mirror matching (List.Forall₂ (StmtCopies matching)) program program := by
  intro left right copies
  have read := readProgramWithin_copies left.rest.length copies
  unfold program readProgram ProgramReading.verdict
  rw [← copies.rest.length_eq]
  dsimp only
  generalize readProgramWithin left.rest.length left = reading at read ⊢
  generalize readProgramWithin left.rest.length right = reading' at read ⊢
  obtain ⟨statements, errors, reader⟩ := reading
  obtain ⟨statements', errors', reader'⟩ := reading'
  obtain ⟨sameStatements, sameErrors, further⟩ := read
  cases sameErrors with
  | nil => exact .ok sameStatements further
  | cons error _ => exact .error error further

/-- The end of the input is marked in both copies or in none. -/
theorem isEnd_eq
    {token token' : Token}
    (same : TokenCopies matching token token') :
    Reader.isEnd token = Reader.isEnd token' := by
  unfold Reader.isEnd
  rw [same.kind]

section

variable {tokens tokens' : List Token}
  (same : List.Forall₂ (TokenCopies matching) tokens tokens')

include same

/-- The tokens in front of the end are copies. -/
theorem beforeEnd_copies :
    List.Forall₂ (TokenCopies matching) (tokens.takeWhile (!Reader.isEnd ·))
      (tokens'.takeWhile (!Reader.isEnd ·)) := by
  induction same with
  | nil => exact .nil
  | cons first _ inductionHypothesis =>
      rw [List.takeWhile_cons, List.takeWhile_cons, isEnd_eq first]
      split
      · exact .cons first inductionHypothesis
      · exact .nil

/-- The tokens that mark the end are copies. -/
theorem endMarker_copies :
    Option.Rel (TokenCopies matching) (tokens.find? Reader.isEnd)
      (tokens'.find? Reader.isEnd) := by
  induction same with
  | nil => exact .none
  | cons first _ inductionHypothesis =>
      rw [List.find?_cons, List.find?_cons, isEnd_eq first]
      split
      · exact .some first
      · exact inductionHypothesis

/-- The last tokens are on lines that stand for each other, or there are none. -/
theorem lastLine_copies (firstLine : matching.lines 1 1) :
    matching.lines ((tokens.getLast?.map (·.line)).getD 1)
      ((tokens'.getLast?.map (·.line)).getD 1) := by
  induction same with
  | nil => exact firstLine
  | cons first others inductionHypothesis =>
      cases others with
      | nil => exact first.line
      | cons _ _ => simpa [List.getLast?_cons_cons] using inductionHypothesis

/-- The readers at the start of copies of tokens. -/
theorem start_copies
    (firstLine : matching.lines 1 1)
    {nextId nextId' : NodeId}
    (next : ∀ count, matching.ids (nextId + count) (nextId' + count)) :
    ReaderCopies matching (Reader.start tokens nextId) (Reader.start tokens' nextId') := by
  refine ⟨beforeEnd_copies same, ?_, next⟩
  have marked := endMarker_copies same
  unfold Reader.start
  dsimp only
  generalize tokens.find? Reader.isEnd = marker at marked ⊢
  generalize tokens'.find? Reader.isEnd = marker' at marked ⊢
  cases marked with
  | none => exact lastLine_copies same firstLine
  | some marker => exact marker.line

end

end Lox.Grammar
