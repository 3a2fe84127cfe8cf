import Lox.Syntax.Tree

namespace Lox.Grammar

/-!
# The grammar as derivations

The grammar of the language, written down apart from the parsers:

```text
expression  → ( call "." )? IDENT "=" expression | disjunction ;
disjunction → conjunction ( "or" conjunction )* ;
conjunction → equality ( "and" equality )* ;
equality    → comparison ( ( "!=" | "==" ) comparison )* ;
comparison  → sum ( ( ">" | ">=" | "<" | "<=" ) sum )* ;
sum         → product ( ( "-" | "+" ) product )* ;
product     → unary ( ( "/" | "*" ) unary )* ;
unary       → ( "!" | "-" ) unary | call ;
call        → primary ( "(" arguments? ")" | "." IDENT )* ;

program     → declaration* ;
declaration → "class" IDENT ( "<" IDENT )? "{" function* "}"
            | "fun" function | variable | statement ;
function    → IDENT "(" parameters? ")" block ;
variable    → "var" IDENT ( "=" expression )? ";" ;
statement   → expression ";" | "print" expression ";"
            | "return" expression? ";" | block
            | "while" "(" expression ")" statement
            | "if" "(" expression ")" statement ( "else" statement )?
            | "for" "(" ( variable | expression ";" | ";" )
              expression? ";" expression? ")" statement ;
block       → "{" declaration* "}" ;
```

A derivation relates a token list, the tree that its first tokens spell, and the
tokens left after them.  The repetitions are read from the left, so each of them
gives a tree that leans to the left.  The identities of occurrences are free.  An
`else` belongs to the nearest branch without one, so what stands in front of it
must not end in such a branch.
-/

/-- The levels of operators with two operands, from the loosest to the tightest. -/
inductive Level where
  | disjunction
  | conjunction
  | equality
  | comparison
  | sum
  | product
  deriving Repr, DecidableEq

/-- The kinds of expressions that the grammar tells apart. -/
inductive Nonterminal where
  | expression
  | operation (level : Level)
  | unary
  | call
  | primary
  deriving Repr, DecidableEq

/-- What stands between the operators of a level. -/
def Level.operand : Level → Nonterminal
  | .disjunction => .operation .conjunction
  | .conjunction => .operation .equality
  | .equality => .operation .comparison
  | .comparison => .operation .sum
  | .sum => .operation .product
  | .product => .unary

/-- The tree of two operands with a token of a level between them. -/
inductive Joins : Level → Token → Expr → Expr → Expr → Prop where
  | or {token left right} :
      token.kind = .keyword .orWord →
      Joins .disjunction token left right (.logical .or left right)
  | and {token left right} :
      token.kind = .keyword .andWord →
      Joins .conjunction token left right (.logical .and left right)
  | notEqual {token left right} :
      token.kind = .symbol .bangEqual →
      Joins .equality token left right (.binary .notEqual token.line left right)
  | equal {token left right} :
      token.kind = .symbol .equalEqual →
      Joins .equality token left right (.binary .equal token.line left right)
  | greater {token left right} :
      token.kind = .symbol .greater →
      Joins .comparison token left right (.binary .greater token.line left right)
  | greaterEqual {token left right} :
      token.kind = .symbol .greaterEqual →
      Joins .comparison token left right
        (.binary .greaterEqual token.line left right)
  | less {token left right} :
      token.kind = .symbol .less →
      Joins .comparison token left right (.binary .less token.line left right)
  | lessEqual {token left right} :
      token.kind = .symbol .lessEqual →
      Joins .comparison token left right (.binary .lessEqual token.line left right)
  | subtract {token left right} :
      token.kind = .symbol .minus →
      Joins .sum token left right (.binary .subtract token.line left right)
  | add {token left right} :
      token.kind = .symbol .plus →
      Joins .sum token left right (.binary .add token.line left right)
  | divide {token left right} :
      token.kind = .symbol .slash →
      Joins .product token left right (.binary .divide token.line left right)
  | multiply {token left right} :
      token.kind = .symbol .star →
      Joins .product token left right (.binary .multiply token.line left right)

/-- The tokens in front of an operand. -/
inductive Signs : TokenKind → UnaryOperator → Prop where
  | not : Signs (.symbol .bang) .not
  | negate : Signs (.symbol .minus) .negate

/-- The tokens that are literals, and their values. -/
inductive Denotes : TokenKind → Literal → Prop where
  | number (value : Number) : Denotes (.number value) (.number value)
  | string (contents : String) : Denotes (.string contents) (.string contents)
  | true : Denotes (.keyword .trueWord) (.bool true)
  | false : Denotes (.keyword .falseWord) (.bool false)
  | nil : Denotes (.keyword .nilWord) .nil

/-- The identifier that a token is. -/
structure Names (token : Token) (name : Identifier) : Prop where
  kind : token.kind = .identifier
  text : name.text = token.lexeme
  line : name.line = token.line

/-- The greatest number of arguments of a call and of parameters of a function. -/
def mostArguments : Nat :=
  255

mutual

/-- The derivations of expressions. -/
inductive Derives : Nonterminal → List Token → Expr → List Token → Prop where
  | assignment {target name equals rest id value after} :
      Names target name →
      equals.kind = .symbol .equal →
      Derives .expression rest value after →
      Derives .expression (target :: equals :: rest)
        (.assign ⟨id, name⟩ value) after
  | propertyAssignment {before object dot target name equals rest value after} :
      Derives .call before object (dot :: target :: equals :: rest) →
      dot.kind = .symbol .dot →
      Names target name →
      equals.kind = .symbol .equal →
      Derives .expression rest value after →
      Derives .expression before (.setProperty object name value) after
  | operation {before value after} :
      Derives (.operation .disjunction) before value after →
      Derives .expression before value after
  | operand {level before value after} :
      Derives (Level.operand level) before value after →
      Derives (.operation level) before value after
  | joined {level before left operator rest right whole after} :
      Derives (.operation level) before left (operator :: rest) →
      Joins level operator left right whole →
      Derives (Level.operand level) rest right after →
      Derives (.operation level) before whole after
  | signed {sign operator rest operand after} :
      Signs sign.kind operator →
      Derives .unary rest operand after →
      Derives .unary (sign :: rest) (.unary operator sign.line operand) after
  | unsigned {before value after} :
      Derives .call before value after →
      Derives .unary before value after
  | uncalled {before value after} :
      Derives .primary before value after →
      Derives .call before value after
  | emptyCall {before callee opening closing after} :
      Derives .call before callee (opening :: closing :: after) →
      opening.kind = .symbol .leftParen →
      closing.kind = .symbol .rightParen →
      Derives .call before (.call callee [] closing.line) after
  | call {before callee opening rest arguments closing after} :
      Derives .call before callee (opening :: rest) →
      opening.kind = .symbol .leftParen →
      DerivesArguments rest arguments (closing :: after) →
      arguments.length ≤ mostArguments →
      closing.kind = .symbol .rightParen →
      Derives .call before (.call callee arguments closing.line) after
  | property {before object dot target name after} :
      Derives .call before object (dot :: target :: after) →
      dot.kind = .symbol .dot →
      Names target name →
      Derives .call before (.property object name) after
  | literal {token value after} :
      Denotes token.kind value →
      Derives .primary (token :: after) (.literal value) after
  | reference {token name id after} :
      Names token name →
      Derives .primary (token :: after) (.reference ⟨id, name⟩) after
  | this {token id after} :
      token.kind = .keyword .thisWord →
      Derives .primary (token :: after) (.this id token.line) after
  | super {token dot target name id after} :
      token.kind = .keyword .superWord →
      dot.kind = .symbol .dot →
      Names target name →
      Derives .primary (token :: dot :: target :: after)
        (.super id token.line name) after
  | grouping {opening rest inner closing after} :
      opening.kind = .symbol .leftParen →
      Derives .expression rest inner (closing :: after) →
      closing.kind = .symbol .rightParen →
      Derives .primary (opening :: rest) (.grouping inner) after

/-- The derivations of one or more arguments with commas between them. -/
inductive DerivesArguments : List Token → List Expr → List Token → Prop where
  | last {before value after} :
      Derives .expression before value after →
      DerivesArguments before [value] after
  | more {before value comma rest values after} :
      Derives .expression before value (comma :: rest) →
      comma.kind = .symbol .comma →
      DerivesArguments rest values after →
      DerivesArguments before (value :: values) after

end

/-! ## Parts of statements -/

/-- The derivations of an expression that may be left out. -/
inductive DerivesOptional : List Token → Option Expr → List Token → Prop where
  | absent {after} : DerivesOptional after none after
  | present {before value after} :
      Derives .expression before value after →
      DerivesOptional before (some value) after

/-- The derivations of an expression in parentheses. -/
inductive DerivesCondition : List Token → Expr → List Token → Prop where
  | intro {opening rest condition closing after} :
      opening.kind = .symbol .leftParen →
      Derives .expression rest condition (closing :: after) →
      closing.kind = .symbol .rightParen →
      DerivesCondition (opening :: rest) condition after

/-- The derivations of an expression with a semicolon. -/
inductive DerivesEffect : List Token → Stmt → List Token → Prop where
  | intro {before value semicolon after} :
      Derives .expression before value (semicolon :: after) →
      semicolon.kind = .symbol .semicolon →
      DerivesEffect before (.expression value) after

/-- The derivations of a variable declaration behind its keyword. -/
inductive DerivesVariable : List Token → Stmt → List Token → Prop where
  | plain {target name semicolon after} :
      Names target name →
      semicolon.kind = .symbol .semicolon →
      DerivesVariable (target :: semicolon :: after) (.varDeclaration name none) after
  | initialized {target name equals rest value semicolon after} :
      Names target name →
      equals.kind = .symbol .equal →
      Derives .expression rest value (semicolon :: after) →
      semicolon.kind = .symbol .semicolon →
      DerivesVariable (target :: equals :: rest)
        (.varDeclaration name (some value)) after

/-- The derivations of the first clause of a `for` loop with its semicolon. -/
inductive DerivesInitializer : List Token → Option Stmt → List Token → Prop where
  | absent {semicolon after} :
      semicolon.kind = .symbol .semicolon →
      DerivesInitializer (semicolon :: after) none after
  | declared {keyword rest declaration after} :
      keyword.kind = .keyword .varWord →
      DerivesVariable rest declaration after →
      DerivesInitializer (keyword :: rest) (some declaration) after
  | effect {before effect after} :
      DerivesEffect before effect after →
      DerivesInitializer before (some effect) after

/-- The derivations of one or more names with commas between them. -/
inductive DerivesNames : List Token → List Identifier → List Token → Prop where
  | last {target name after} :
      Names target name →
      DerivesNames (target :: after) [name] after
  | more {target name comma rest names after} :
      Names target name →
      comma.kind = .symbol .comma →
      DerivesNames rest names after →
      DerivesNames (target :: comma :: rest) (name :: names) after

/-- The derivations of a list of parameters, which may be empty but not too long. -/
inductive DerivesParameters : List Token → List Identifier → List Token → Prop where
  | none {after} : DerivesParameters after [] after
  | some {before names after} :
      DerivesNames before names after →
      names.length ≤ mostArguments →
      DerivesParameters before names after

/-- The derivations of the superclass that a class may name. -/
inductive DerivesSuperclass : List Token → Option Reference → List Token → Prop where
  | absent {after} : DerivesSuperclass after none after
  | present {less target name id after} :
      less.kind = .symbol .less →
      Names target name →
      DerivesSuperclass (less :: target :: after) (some ⟨id, name⟩) after

/-- What a round of a `for` loop runs: the body, and then the increment if there is one. -/
inductive IsRound : Stmt → Option Expr → Stmt → Prop where
  | plain {body} : IsRound body none body
  | stepped {body step} : IsRound body (some step) (.block [body, .expression step])

/-- A loop behind the initializer, if there is one, in a block of their own. -/
inductive IsInitialized : Option Stmt → Stmt → Stmt → Prop where
  | plain {loop} : IsInitialized none loop loop
  | first {initializer loop} :
      IsInitialized (some initializer) loop (.block [initializer, loop])

/-- The condition of a `for` loop; a missing one is always true. -/
inductive IsCondition : Option Expr → Expr → Prop where
  | always : IsCondition none (.literal (.bool true))
  | given {condition} : IsCondition (some condition) condition

/-- The tree that a `for` loop stands for. -/
inductive IsForLoop :
    Option Stmt → Option Expr → Option Expr → Stmt → Stmt → Prop where
  | intro {initializer condition whole increment body round tree} :
      IsCondition condition whole →
      IsRound body increment round →
      IsInitialized initializer (.loop whole round) tree →
      IsForLoop initializer condition increment body tree

/-- Whether a statement ends in a branch that could still take an `else`. -/
inductive Ending where
  | closed
  | dangling
  deriving Repr, DecidableEq

/-! ## Statements and declarations -/

mutual

/-- The derivations of statements. -/
inductive DerivesStatement : Ending → List Token → Stmt → List Token → Prop where
  | effect {before effect after} :
      DerivesEffect before effect after →
      DerivesStatement .closed before effect after
  | print {keyword rest value semicolon after} :
      keyword.kind = .keyword .printWord →
      Derives .expression rest value (semicolon :: after) →
      semicolon.kind = .symbol .semicolon →
      DerivesStatement .closed (keyword :: rest) (.print value) after
  | returnValue {keyword rest value semicolon after} :
      keyword.kind = .keyword .returnWord →
      DerivesOptional rest value (semicolon :: after) →
      semicolon.kind = .symbol .semicolon →
      DerivesStatement .closed (keyword :: rest) (.returnValue keyword.line value)
        after
  | block {opening rest body closing after} :
      opening.kind = .symbol .leftBrace →
      DerivesDeclarations rest body (closing :: after) →
      closing.kind = .symbol .rightBrace →
      DerivesStatement .closed (opening :: rest) (.block body) after
  | whileLoop {keyword rest condition inner ending body after} :
      keyword.kind = .keyword .whileWord →
      DerivesCondition rest condition inner →
      DerivesStatement ending inner body after →
      DerivesStatement ending (keyword :: rest) (.loop condition body) after
  | ifThen {keyword rest condition inner ending consequent after} :
      keyword.kind = .keyword .ifWord →
      DerivesCondition rest condition inner →
      DerivesStatement ending inner consequent after →
      DerivesStatement .dangling (keyword :: rest) (.branch condition consequent none)
        after
  | ifThenElse {keyword rest condition inner consequent separator others ending
        alternative after} :
      keyword.kind = .keyword .ifWord →
      DerivesCondition rest condition inner →
      DerivesStatement .closed inner consequent (separator :: others) →
      separator.kind = .keyword .elseWord →
      DerivesStatement ending others alternative after →
      DerivesStatement ending (keyword :: rest)
        (.branch condition consequent (some alternative)) after
  | forLoop {keyword opening rest initializer middle condition semicolon last
        increment closing inner ending body tree after} :
      keyword.kind = .keyword .forWord →
      opening.kind = .symbol .leftParen →
      DerivesInitializer rest initializer middle →
      DerivesOptional middle condition (semicolon :: last) →
      semicolon.kind = .symbol .semicolon →
      DerivesOptional last increment (closing :: inner) →
      closing.kind = .symbol .rightParen →
      DerivesStatement ending inner body after →
      IsForLoop initializer condition increment body tree →
      DerivesStatement ending (keyword :: opening :: rest) tree after

/-- The derivations of declarations, with statements among them. -/
inductive DerivesDeclaration : List Token → Stmt → List Token → Prop where
  | classDeclaration {keyword target name rest superclass opening members methods
        closing after} :
      keyword.kind = .keyword .classWord →
      Names target name →
      DerivesSuperclass rest superclass (opening :: members) →
      opening.kind = .symbol .leftBrace →
      DerivesMethods members methods (closing :: after) →
      closing.kind = .symbol .rightBrace →
      DerivesDeclaration (keyword :: target :: rest)
        (.classDeclaration name superclass methods) after
  | functionDeclaration {keyword rest declaration after} :
      keyword.kind = .keyword .funWord →
      DerivesFunction rest declaration after →
      DerivesDeclaration (keyword :: rest) (.functionDeclaration declaration) after
  | varDeclaration {keyword rest declaration after} :
      keyword.kind = .keyword .varWord →
      DerivesVariable rest declaration after →
      DerivesDeclaration (keyword :: rest) declaration after
  | statement {ending before tree after} :
      DerivesStatement ending before tree after →
      DerivesDeclaration before tree after

/-- The derivations of any number of declarations. -/
inductive DerivesDeclarations : List Token → List Stmt → List Token → Prop where
  | none {after} : DerivesDeclarations after [] after
  | more {before tree rest trees after} :
      DerivesDeclaration before tree rest →
      DerivesDeclarations rest trees after →
      DerivesDeclarations before (tree :: trees) after

/-- The derivations of functions and methods from their names on. -/
inductive DerivesFunction :
    List Token → FunctionDeclaration → List Token → Prop where
  | intro {target name opening rest parameters closing brace inner body
        closingBrace after} :
      Names target name →
      opening.kind = .symbol .leftParen →
      DerivesParameters rest parameters (closing :: brace :: inner) →
      closing.kind = .symbol .rightParen →
      brace.kind = .symbol .leftBrace →
      DerivesDeclarations inner body (closingBrace :: after) →
      closingBrace.kind = .symbol .rightBrace →
      DerivesFunction (target :: opening :: rest) (.intro name parameters body) after

/-- The derivations of any number of methods. -/
inductive DerivesMethods :
    List Token → List FunctionDeclaration → List Token → Prop where
  | none {after} : DerivesMethods after [] after
  | more {before tree rest trees after} :
      DerivesFunction before tree rest →
      DerivesMethods rest trees after →
      DerivesMethods before (tree :: trees) after

end

/-- A token list is a program: declarations that leave nothing over. -/
def DerivesProgram (tokens : List Token) (program : List Stmt) : Prop :=
  DerivesDeclarations tokens program []

/-! ## Lengths of derivations of expressions -/

mutual

/-- A derivation of an expression takes a token at least. -/
theorem Derives.shorter :
    ∀ {nonterminal before tree after},
      Derives nonterminal before tree after → after.length < before.length
  | _, _, _, _, .assignment _ _ value => by
      have shorter := value.shorter
      simp only [List.length_cons]
      omega
  | _, _, _, _, .propertyAssignment object _ _ _ value => by
      have shorter := object.shorter
      have later := value.shorter
      simp only [List.length_cons] at shorter
      omega
  | _, _, _, _, .operation derived => derived.shorter
  | _, _, _, _, .operand derived => derived.shorter
  | _, _, _, _, .joined left _ right => by
      have shorter := left.shorter
      have later := right.shorter
      simp only [List.length_cons] at shorter
      omega
  | _, _, _, _, .signed _ operand => by
      have shorter := operand.shorter
      simp only [List.length_cons]
      omega
  | _, _, _, _, .unsigned derived => derived.shorter
  | _, _, _, _, .uncalled derived => derived.shorter
  | _, _, _, _, .emptyCall callee _ _ => by
      have shorter := callee.shorter
      simp only [List.length_cons] at shorter
      omega
  | _, _, _, _, .call callee _ arguments _ _ => by
      have shorter := callee.shorter
      have later := arguments.shorter
      simp only [List.length_cons] at shorter later
      omega
  | _, _, _, _, .property object _ _ => by
      have shorter := object.shorter
      simp only [List.length_cons] at shorter
      omega
  | _, _, _, _, .literal _ => by simp
  | _, _, _, _, .reference _ => by simp
  | _, _, _, _, .this _ => by simp
  | _, _, _, _, .super _ _ _ => by simp only [List.length_cons]; omega
  | _, _, _, _, .grouping _ inner _ => by
      have shorter := inner.shorter
      simp only [List.length_cons] at shorter ⊢
      omega

theorem DerivesArguments.shorter :
    ∀ {before trees after},
      DerivesArguments before trees after → after.length < before.length
  | _, _, _, .last derived => derived.shorter
  | _, _, _, .more first _ rest => by
      have shorter := first.shorter
      have later := rest.shorter
      simp only [List.length_cons] at shorter
      omega

end

/-! ## Lengths of derivations of statements -/

theorem DerivesOptional.noLonger
    {before after : List Token}
    {value : Option Expr}
    (derived : DerivesOptional before value after) :
    after.length ≤ before.length := by
  cases derived with
  | absent => exact Nat.le_refl _
  | present derived => exact Nat.le_of_lt derived.shorter

/-- A derivation of a condition takes a token at least. -/
theorem DerivesCondition.shorter
    {before after : List Token}
    {condition : Expr}
    (derived : DerivesCondition before condition after) :
    after.length < before.length := by
  cases derived with
  | intro _ derived _ =>
      have shorter := derived.shorter
      simp only [List.length_cons] at shorter ⊢
      omega

/-- A derivation of an expression with a semicolon takes a token at least. -/
theorem DerivesEffect.shorter
    {before after : List Token}
    {effect : Stmt}
    (derived : DerivesEffect before effect after) :
    after.length < before.length := by
  cases derived with
  | intro derived _ =>
      have shorter := derived.shorter
      simp only [List.length_cons] at shorter
      omega

/-- A derivation of a variable declaration takes a token at least. -/
theorem DerivesVariable.shorter
    {before after : List Token}
    {declaration : Stmt}
    (derived : DerivesVariable before declaration after) :
    after.length < before.length := by
  cases derived with
  | plain _ _ =>
      simp only [List.length_cons]
      omega
  | initialized _ _ derived _ =>
      have shorter := derived.shorter
      simp only [List.length_cons] at shorter ⊢
      omega

/-- A derivation of the first clause of a `for` loop takes a token at least. -/
theorem DerivesInitializer.shorter
    {before after : List Token}
    {initializer : Option Stmt}
    (derived : DerivesInitializer before initializer after) :
    after.length < before.length := by
  cases derived with
  | absent _ => simp
  | declared _ derived =>
      have shorter := derived.shorter
      simp only [List.length_cons]
      omega
  | effect derived => exact derived.shorter

/-- A derivation of names takes a token at least. -/
theorem DerivesNames.shorter
    {before after : List Token}
    {names : List Identifier}
    (derived : DerivesNames before names after) :
    after.length < before.length := by
  induction derived with
  | last _ => simp
  | more _ _ _ inductionHypothesis =>
      simp only [List.length_cons]
      omega

theorem DerivesParameters.noLonger
    {before after : List Token}
    {names : List Identifier}
    (derived : DerivesParameters before names after) :
    after.length ≤ before.length := by
  cases derived with
  | none => exact Nat.le_refl _
  | some derived _ => exact Nat.le_of_lt derived.shorter

/-- A superclass takes tokens or none. -/
theorem DerivesSuperclass.noLonger
    {before after : List Token}
    {superclass : Option Reference}
    (derived : DerivesSuperclass before superclass after) :
    after.length ≤ before.length := by
  cases derived with
  | absent => exact Nat.le_refl _
  | present _ _ =>
      simp only [List.length_cons]
      omega

mutual

/-- A derivation of a statement takes a token at least. -/
theorem DerivesStatement.shorter :
    ∀ {ending before tree after},
      DerivesStatement ending before tree after → after.length < before.length
  | _, _, _, _, .effect derived => derived.shorter
  | _, _, _, _, .print _ value _ => by
      have shorter := value.shorter
      simp only [List.length_cons] at shorter ⊢
      omega
  | _, _, _, _, .returnValue _ value _ => by
      have noLonger := value.noLonger
      simp only [List.length_cons] at noLonger ⊢
      omega
  | _, _, _, _, .block _ body _ => by
      have noLonger := body.noLonger
      simp only [List.length_cons] at noLonger ⊢
      omega
  | _, _, _, _, .whileLoop _ condition body => by
      have shorter := condition.shorter
      have later := body.shorter
      simp only [List.length_cons]
      omega
  | _, _, _, _, .ifThen _ condition consequent => by
      have shorter := condition.shorter
      have later := consequent.shorter
      simp only [List.length_cons]
      omega
  | _, _, _, _, .ifThenElse _ condition consequent _ alternative => by
      have shorter := condition.shorter
      have later := consequent.shorter
      have last := alternative.shorter
      simp only [List.length_cons] at later ⊢
      omega
  | _, _, _, _, .forLoop _ _ initializer condition _ increment _ body _ => by
      have first := initializer.shorter
      have second := condition.noLonger
      have third := increment.noLonger
      have last := body.shorter
      simp only [List.length_cons] at second third ⊢
      omega

/-- A derivation of a declaration takes a token at least. -/
theorem DerivesDeclaration.shorter :
    ∀ {before tree after},
      DerivesDeclaration before tree after → after.length < before.length
  | _, _, _, .classDeclaration _ _ superclass _ methods _ => by
      have first := superclass.noLonger
      have second := methods.noLonger
      simp only [List.length_cons] at first second ⊢
      omega
  | _, _, _, .functionDeclaration _ function => by
      have shorter := function.shorter
      simp only [List.length_cons]
      omega
  | _, _, _, .varDeclaration _ declaration => by
      have shorter := declaration.shorter
      simp only [List.length_cons]
      omega
  | _, _, _, .statement derived => derived.shorter

theorem DerivesDeclarations.noLonger :
    ∀ {before trees after},
      DerivesDeclarations before trees after → after.length ≤ before.length
  | _, _, _, .none => Nat.le_refl _
  | _, _, _, .more first rest =>
      Nat.le_trans rest.noLonger (Nat.le_of_lt first.shorter)

theorem DerivesFunction.shorter :
    ∀ {before tree after},
      DerivesFunction before tree after → after.length < before.length
  | _, _, _, .intro _ _ parameters _ _ body _ => by
      have first := parameters.noLonger
      have second := body.noLonger
      simp only [List.length_cons] at first second ⊢
      omega

theorem DerivesMethods.noLonger :
    ∀ {before trees after},
      DerivesMethods before trees after → after.length ≤ before.length
  | _, _, _, .none => Nat.le_refl _
  | _, _, _, .more first rest =>
      Nat.le_trans rest.noLonger (Nat.le_of_lt first.shorter)

end

end Lox.Grammar
