import Lox.Proofs.Grammar.ExpressionExact
import Lox.Proofs.Grammar.Positions
import Lox.Proofs.Grammar.ProgramExact
import Lox.Proofs.Syntax.Parts

namespace Lox

/-!
# Well-formed trees

What evaluation relies on in the trees that a parser gives.  Every operator stands for a
token that evaluation knows as this operator, every name is an identifier, calls and
functions are not too long, and what a branch or a loop runs is no declaration.  No two
occurrences have the same identity, in one tree or in all trees that were ever read.
-/

/-- Whether a statement binds a name in the scope in which it is run. -/
def Stmt.IsDeclaration : Stmt → Prop
  | .varDeclaration _ _ => True
  | .functionDeclaration _ => True
  | .classDeclaration _ _ _ => True
  | _ => False

namespace Grammar

/-! ## What operators stand for -/

/-- The operator that a kind of token is in front of an operand; no other kind has a meaning. -/
def unaryOperator? : TokenKind → Option UnaryOperator
  | .symbol .bang => some .not
  | .symbol .minus => some .negate
  | _ => none

/-- The operator that a kind of token is between operands that are both evaluated. -/
def binaryOperator? : TokenKind → Option BinaryOperator
  | .symbol .plus => some .add
  | .symbol .minus => some .subtract
  | .symbol .star => some .multiply
  | .symbol .slash => some .divide
  | .symbol .greater => some .greater
  | .symbol .greaterEqual => some .greaterEqual
  | .symbol .less => some .less
  | .symbol .lessEqual => some .lessEqual
  | .symbol .equalEqual => some .equal
  | .symbol .bangEqual => some .notEqual
  | _ => none

/-- The operator that a kind of token is between operands of which the second may be left out. -/
def logicalOperator? : TokenKind → Option LogicalOperator
  | .keyword .andWord => some .and
  | .keyword .orWord => some .or
  | _ => none

/-- A sign in front of an operand has the meaning that evaluation gives it. -/
theorem Signs.unaryOperator?_eq
    {kind : TokenKind}
    {operator : UnaryOperator}
    (signs : Signs kind operator) :
    unaryOperator? kind = some operator := by
  cases signs <;> rfl

/-! ## Nodes and trees -/

/-- A name is an identifier among some tokens. -/
def NamedIn (tokens : List Token) (name : Identifier) : Prop :=
  ∃ token ∈ tokens, Names token name

/-- A token of some kind is on a line. -/
def StandsOn (tokens : List Token) (kind : TokenKind) (line : Nat) : Prop :=
  ∃ token ∈ tokens, token.kind = kind ∧ token.line = line

/-- What an expression says itself, apart from its parts, comes from some tokens. -/
def FormsExpression (tokens : List Token) : Expr → Prop
  | .literal _ => True
  | .grouping _ => True
  | .unary operator line _ =>
      ∃ token ∈ tokens, unaryOperator? token.kind = some operator ∧ token.line = line
  | .binary operator line _ _ =>
      ∃ token ∈ tokens, binaryOperator? token.kind = some operator ∧ token.line = line
  | .logical operator _ _ =>
      ∃ token ∈ tokens, logicalOperator? token.kind = some operator
  | .reference occurrence => NamedIn tokens occurrence.name
  | .assign target _ => NamedIn tokens target.name
  | .call _ arguments line =>
      arguments.length ≤ 255 ∧ StandsOn tokens (.symbol .rightParen) line
  | .property _ name => NamedIn tokens name
  | .setProperty _ name _ => NamedIn tokens name
  | .this _ line => StandsOn tokens (.keyword .thisWord) line
  | .super _ line method =>
      StandsOn tokens (.keyword .superWord) line ∧ NamedIn tokens method

/-- What a statement says itself comes from some tokens, and no declaration is conditional. -/
def FormsStatement (tokens : List Token) : Stmt → Prop
  | .expression _ => True
  | .print _ => True
  | .varDeclaration name _ => NamedIn tokens name
  | .block _ => True
  | .branch _ consequent alternative =>
      ¬ consequent.IsDeclaration ∧ ∀ other ∈ alternative, ¬ other.IsDeclaration
  | .loop _ body => ¬ body.IsDeclaration
  | .functionDeclaration _ => True
  | .returnValue line _ => StandsOn tokens (.keyword .returnWord) line
  | .classDeclaration name _ _ => NamedIn tokens name

/-- The name and the parameters of a function come from some tokens, and are not too many. -/
structure FormsFunction (tokens : List Token) (declaration : FunctionDeclaration) : Prop where
  name : NamedIn tokens declaration.name
  parameters : ∀ parameter ∈ declaration.parameters, NamedIn tokens parameter
  arity : declaration.arity ≤ 255

/-- What a node says itself comes from some tokens. -/
def Forms (tokens : List Token) : Node → Prop
  | .expression value => FormsExpression tokens value
  | .statement single => FormsStatement tokens single
  | .function declaration => FormsFunction tokens declaration

/-- All nodes of a tree come from some tokens. -/
def WellFormed (tokens : List Token) (tree : Node) : Prop :=
  tree.Everywhere (Forms tokens)

/-! ## Derived expressions -/

section

variable {tokens : List Token}

/-- What an operator joins is well formed if its operands are and its token is among the tokens. -/
theorem Joins.wellFormed
    {level : Level}
    {operator : Token}
    {left right whole : Expr}
    (joins : Joins level operator left right whole)
    (among : operator ∈ tokens)
    (formedLeft : WellFormed tokens (.expression left))
    (formedRight : WellFormed tokens (.expression right)) :
    WellFormed tokens (.expression whole) := by
  cases joins with
  | or kind =>
      refine .of_parts ⟨operator, among, by rw [kind]; rfl⟩ fun
        | _, .leftCondition => formedLeft
        | _, .rightCondition => formedRight
  | and kind =>
      refine .of_parts ⟨operator, among, by rw [kind]; rfl⟩ fun
        | _, .leftCondition => formedLeft
        | _, .rightCondition => formedRight
  | _ kind =>
      refine .of_parts ⟨operator, among, by rw [kind]; rfl, rfl⟩ fun
        | _, .leftOperand => formedLeft
        | _, .rightOperand => formedRight

mutual

/-- A derived expression is well formed, and what follows it is among the same tokens. -/
theorem Derives.wellFormed :
    ∀ {nonterminal before tree after},
      Derives nonterminal before tree after →
      before ⊆ tokens → WellFormed tokens (.expression tree) ∧ after ⊆ tokens
  | _, _, _, _, .assignment named _ value, among => by
      obtain ⟨isTarget, rest⟩ := List.cons_subset.mp among
      obtain ⟨formed, behind⟩ := value.wellFormed (List.subset_of_cons_subset rest)
      refine ⟨.of_parts ⟨_, isTarget, named⟩ fun part isPart => ?_, behind⟩
      cases isPart with
      | assigned => exact formed
  | _, _, _, _, .propertyAssignment object _ named _ value, among => by
      obtain ⟨formedObject, left⟩ := object.wellFormed among
      obtain ⟨isTarget, rest⟩ := List.cons_subset.mp (List.subset_of_cons_subset left)
      obtain ⟨formedValue, behind⟩ := value.wellFormed (List.subset_of_cons_subset rest)
      refine ⟨.of_parts ⟨_, isTarget, named⟩ fun part isPart => ?_, behind⟩
      cases isPart with
      | owner => exact formedObject
      | field => exact formedValue
  | _, _, _, _, .operation derived, among => derived.wellFormed among
  | _, _, _, _, .operand derived, among => derived.wellFormed among
  | _, _, _, _, .joined left joins right, among => by
      obtain ⟨formedLeft, between⟩ := left.wellFormed among
      obtain ⟨isOperator, rest⟩ := List.cons_subset.mp between
      obtain ⟨formedRight, behind⟩ := right.wellFormed rest
      exact ⟨joins.wellFormed isOperator formedLeft formedRight, behind⟩
  | _, _, _, _, .signed signs operand, among => by
      obtain ⟨isSign, rest⟩ := List.cons_subset.mp among
      obtain ⟨formed, behind⟩ := operand.wellFormed rest
      refine ⟨.of_parts ⟨_, isSign, signs.unaryOperator?_eq, rfl⟩ fun part isPart => ?_, behind⟩
      cases isPart with
      | operand => exact formed
  | _, _, _, _, .unsigned derived, among => derived.wellFormed among
  | _, _, _, _, .uncalled derived, among => derived.wellFormed among
  | _, _, _, _, .emptyCall callee _ closing, among => by
      obtain ⟨formed, left⟩ := callee.wellFormed among
      obtain ⟨isClosing, behind⟩ := List.cons_subset.mp (List.subset_of_cons_subset left)
      refine ⟨.of_parts ⟨Nat.zero_le _, _, isClosing, closing, rfl⟩ fun part isPart => ?_, behind⟩
      cases isPart with
      | callee => exact formed
      | argument member => exact absurd member List.not_mem_nil
  | _, _, _, _, .call callee _ arguments few closing, among => by
      obtain ⟨formedCallee, left⟩ := callee.wellFormed among
      obtain ⟨formedArguments, rest⟩ := arguments.wellFormed (List.subset_of_cons_subset left)
      obtain ⟨isClosing, behind⟩ := List.cons_subset.mp rest
      refine ⟨.of_parts ⟨few, _, isClosing, closing, rfl⟩ fun part isPart => ?_, behind⟩
      cases isPart with
      | callee => exact formedCallee
      | argument member => exact formedArguments _ member
  | _, _, _, _, .property object _ named, among => by
      obtain ⟨formed, left⟩ := object.wellFormed among
      obtain ⟨isTarget, behind⟩ := List.cons_subset.mp (List.subset_of_cons_subset left)
      refine ⟨.of_parts ⟨_, isTarget, named⟩ fun part isPart => ?_, behind⟩
      cases isPart with
      | object => exact formed
  | _, _, _, _, .literal _, among =>
      ⟨.of_parts trivial nofun, List.subset_of_cons_subset among⟩
  | _, _, _, _, .reference named, among => by
      obtain ⟨isName, behind⟩ := List.cons_subset.mp among
      exact ⟨.of_parts ⟨_, isName, named⟩ nofun, behind⟩
  | _, _, _, _, .this kind, among => by
      obtain ⟨isKeyword, behind⟩ := List.cons_subset.mp among
      exact ⟨.of_parts ⟨_, isKeyword, kind, rfl⟩ nofun, behind⟩
  | _, _, _, _, .super kind _ named, among => by
      obtain ⟨isKeyword, rest⟩ := List.cons_subset.mp among
      obtain ⟨isMethod, behind⟩ := List.cons_subset.mp (List.subset_of_cons_subset rest)
      exact ⟨.of_parts ⟨⟨_, isKeyword, kind, rfl⟩, _, isMethod, named⟩ nofun, behind⟩
  | _, _, _, _, .grouping _ inner _, among => by
      obtain ⟨formed, left⟩ := inner.wellFormed (List.subset_of_cons_subset among)
      refine ⟨.of_parts trivial fun part isPart => ?_, List.subset_of_cons_subset left⟩
      cases isPart with
      | grouped => exact formed

/-- Derived arguments are well formed, and what follows them is among the same tokens. -/
theorem DerivesArguments.wellFormed :
    ∀ {before trees after},
      DerivesArguments before trees after →
      before ⊆ tokens →
        (∀ tree ∈ trees, WellFormed tokens (.expression tree)) ∧ after ⊆ tokens
  | _, _, _, .last derived, among => by
      obtain ⟨formed, behind⟩ := derived.wellFormed among
      exact ⟨by simpa using formed, behind⟩
  | _, _, _, .more first _ rest, among => by
      obtain ⟨formed, left⟩ := first.wellFormed among
      obtain ⟨others, behind⟩ := rest.wellFormed (List.subset_of_cons_subset left)
      exact ⟨List.forall_mem_cons.mpr ⟨formed, others⟩, behind⟩

end

/-! ## Parts of statements -/

section

variable {before after : List Token}

/-- An expression that may be left out is well formed where there is one. -/
theorem DerivesOptional.wellFormed
    {value : Option Expr}
    (derived : DerivesOptional before value after)
    (among : before ⊆ tokens) :
    (∀ present ∈ value, WellFormed tokens (.expression present)) ∧ after ⊆ tokens := by
  cases derived with
  | absent => exact ⟨nofun, among⟩
  | present derived =>
      obtain ⟨formed, behind⟩ := derived.wellFormed among
      exact ⟨by simpa using formed, behind⟩

/-- A derived condition in parentheses is well formed. -/
theorem DerivesCondition.wellFormed
    {condition : Expr}
    (derived : DerivesCondition before condition after)
    (among : before ⊆ tokens) :
    WellFormed tokens (.expression condition) ∧ after ⊆ tokens := by
  cases derived with
  | intro _ derived _ =>
      obtain ⟨formed, left⟩ := derived.wellFormed (List.subset_of_cons_subset among)
      exact ⟨formed, List.subset_of_cons_subset left⟩

/-- An expression that is run for its effect is well formed, and no declaration. -/
theorem DerivesEffect.wellFormed
    {effect : Stmt}
    (derived : DerivesEffect before effect after)
    (among : before ⊆ tokens) :
    (WellFormed tokens (.statement effect) ∧ ¬ effect.IsDeclaration) ∧ after ⊆ tokens := by
  cases derived with
  | intro derived _ =>
      obtain ⟨formed, left⟩ := derived.wellFormed among
      refine ⟨⟨.of_parts trivial fun part isPart => ?_, id⟩, List.subset_of_cons_subset left⟩
      cases isPart with
      | effect => exact formed

/-- A derived variable declaration is well formed. -/
theorem DerivesVariable.wellFormed
    {declaration : Stmt}
    (derived : DerivesVariable before declaration after)
    (among : before ⊆ tokens) :
    WellFormed tokens (.statement declaration) ∧ after ⊆ tokens := by
  cases derived with
  | plain named _ =>
      obtain ⟨isTarget, rest⟩ := List.cons_subset.mp among
      exact ⟨.of_parts ⟨_, isTarget, named⟩ nofun, List.subset_of_cons_subset rest⟩
  | initialized named _ derived _ =>
      obtain ⟨isTarget, rest⟩ := List.cons_subset.mp among
      obtain ⟨formed, left⟩ := derived.wellFormed (List.subset_of_cons_subset rest)
      refine ⟨.of_parts ⟨_, isTarget, named⟩ fun part isPart => ?_, List.subset_of_cons_subset left⟩
      cases isPart with
      | initializer => exact formed

/-- A derived first clause of a `for` loop is well formed. -/
theorem DerivesInitializer.wellFormed
    {initializer : Option Stmt}
    (derived : DerivesInitializer before initializer after)
    (among : before ⊆ tokens) :
    (∀ first ∈ initializer, WellFormed tokens (.statement first)) ∧ after ⊆ tokens := by
  cases derived with
  | absent _ => exact ⟨nofun, List.subset_of_cons_subset among⟩
  | declared _ derived =>
      obtain ⟨formed, behind⟩ := derived.wellFormed (List.subset_of_cons_subset among)
      exact ⟨by simpa using formed, behind⟩
  | effect derived =>
      obtain ⟨⟨formed, -⟩, behind⟩ := derived.wellFormed among
      exact ⟨by simpa using formed, behind⟩

/-- Derived names are identifiers among the tokens. -/
theorem DerivesNames.namedIn
    {names : List Identifier}
    (derived : DerivesNames before names after)
    (among : before ⊆ tokens) :
    (∀ name ∈ names, NamedIn tokens name) ∧ after ⊆ tokens := by
  induction derived with
  | last named =>
      obtain ⟨isName, behind⟩ := List.cons_subset.mp among
      exact ⟨by simpa using ⟨_, isName, named⟩, behind⟩
  | more named _ _ inductionHypothesis =>
      obtain ⟨isName, rest⟩ := List.cons_subset.mp among
      obtain ⟨others, behind⟩ := inductionHypothesis (List.subset_of_cons_subset rest)
      exact ⟨List.forall_mem_cons.mpr ⟨⟨_, isName, named⟩, others⟩, behind⟩

/-- Derived parameters are identifiers among the tokens, and not too many. -/
theorem DerivesParameters.namedIn
    {names : List Identifier}
    (derived : DerivesParameters before names after)
    (among : before ⊆ tokens) :
    ((∀ name ∈ names, NamedIn tokens name) ∧ names.length ≤ mostArguments) ∧
      after ⊆ tokens := by
  cases derived with
  | none => exact ⟨⟨nofun, Nat.zero_le _⟩, among⟩
  | some derived few =>
      obtain ⟨named, behind⟩ := derived.namedIn among
      exact ⟨⟨named, few⟩, behind⟩

/-- A derived superclass is named by an identifier among the tokens. -/
theorem DerivesSuperclass.namedIn
    {superclass : Option Reference}
    (derived : DerivesSuperclass before superclass after)
    (among : before ⊆ tokens) :
    (∀ parent ∈ superclass, NamedIn tokens parent.name) ∧ after ⊆ tokens := by
  cases derived with
  | absent => exact ⟨nofun, among⟩
  | present _ named =>
      obtain ⟨isName, behind⟩ := List.cons_subset.mp (List.subset_of_cons_subset among)
      exact ⟨by simpa using ⟨_, isName, named⟩, behind⟩

end

/-- The condition of a `for` loop is well formed, also where it is left out. -/
theorem IsCondition.wellFormed
    {condition : Option Expr}
    {whole : Expr}
    (isCondition : IsCondition condition whole)
    (formed : ∀ present ∈ condition, WellFormed tokens (.expression present)) :
    WellFormed tokens (.expression whole) := by
  cases isCondition with
  | always => exact .of_parts trivial nofun
  | given => exact formed _ rfl

/-- A round of a `for` loop is well formed, and no declaration. -/
theorem IsRound.wellFormed
    {increment : Option Expr}
    {body round : Stmt}
    (isRound : IsRound body increment round)
    (formedIncrement : ∀ step ∈ increment, WellFormed tokens (.expression step))
    (formedBody : WellFormed tokens (.statement body) ∧ ¬ body.IsDeclaration) :
    WellFormed tokens (.statement round) ∧ ¬ round.IsDeclaration := by
  cases isRound with
  | plain => exact formedBody
  | @stepped step =>
      have formedStep : WellFormed tokens (.statement (.expression step)) :=
        .of_parts trivial fun | _, .effect => formedIncrement _ rfl
      have formed : ∀ single ∈ [body, .expression step],
          WellFormed tokens (.statement single) := by
        simpa using ⟨formedBody.1, formedStep⟩
      refine ⟨.of_parts trivial fun part isPart => ?_, id⟩
      cases isPart with
      | member isMember => exact formed _ isMember

/-- A loop behind an initializer is well formed, and no declaration. -/
theorem IsInitialized.wellFormed
    {initializer : Option Stmt}
    {loop tree : Stmt}
    (isInitialized : IsInitialized initializer loop tree)
    (formedInitializer : ∀ first ∈ initializer, WellFormed tokens (.statement first))
    (formedLoop : WellFormed tokens (.statement loop) ∧ ¬ loop.IsDeclaration) :
    WellFormed tokens (.statement tree) ∧ ¬ tree.IsDeclaration := by
  cases isInitialized with
  | plain => exact formedLoop
  | @first initializer =>
      have formed : ∀ single ∈ [initializer, loop], WellFormed tokens (.statement single) := by
        simpa using ⟨formedInitializer _ rfl, formedLoop.1⟩
      refine ⟨.of_parts trivial fun part isPart => ?_, id⟩
      cases isPart with
      | member isMember => exact formed _ isMember

/-! ## Derived statements and declarations -/

mutual

/-- A derived statement is well formed, and no declaration. -/
theorem DerivesStatement.wellFormed :
    ∀ {ending before tree after},
      DerivesStatement ending before tree after →
      before ⊆ tokens →
        (WellFormed tokens (.statement tree) ∧ ¬ tree.IsDeclaration) ∧ after ⊆ tokens
  | _, _, _, _, .effect derived, among => derived.wellFormed among
  | _, _, _, _, .print _ value _, among => by
      obtain ⟨formed, left⟩ := value.wellFormed (List.subset_of_cons_subset among)
      refine ⟨⟨.of_parts trivial fun part isPart => ?_, id⟩, List.subset_of_cons_subset left⟩
      cases isPart with
      | printed => exact formed
  | _, _, _, _, .returnValue kind value _, among => by
      obtain ⟨isKeyword, rest⟩ := List.cons_subset.mp among
      obtain ⟨formed, left⟩ := value.wellFormed rest
      refine ⟨⟨.of_parts ⟨_, isKeyword, kind, rfl⟩ fun part isPart => ?_, id⟩,
        List.subset_of_cons_subset left⟩
      cases isPart with
      | returned => exact formed _ rfl
  | _, _, _, _, .block _ body _, among => by
      obtain ⟨formed, left⟩ := body.wellFormed (List.subset_of_cons_subset among)
      refine ⟨⟨.of_parts trivial fun part isPart => ?_, id⟩, List.subset_of_cons_subset left⟩
      cases isPart with
      | member isMember => exact formed _ isMember
  | _, _, _, _, .whileLoop _ condition body, among => by
      obtain ⟨formedCondition, left⟩ := condition.wellFormed (List.subset_of_cons_subset among)
      obtain ⟨⟨formedBody, plain⟩, behind⟩ := body.wellFormed left
      refine ⟨⟨.of_parts plain fun part isPart => ?_, id⟩, behind⟩
      cases isPart with
      | loopCondition => exact formedCondition
      | round => exact formedBody
  | _, _, _, _, .ifThen _ condition consequent, among => by
      obtain ⟨formedCondition, left⟩ := condition.wellFormed (List.subset_of_cons_subset among)
      obtain ⟨⟨formedConsequent, plain⟩, behind⟩ := consequent.wellFormed left
      refine ⟨⟨.of_parts ⟨plain, nofun⟩ fun part isPart => ?_, id⟩, behind⟩
      cases isPart with
      | condition => exact formedCondition
      | consequent => exact formedConsequent
  | _, _, _, _, .ifThenElse _ condition consequent _ alternative, among => by
      obtain ⟨formedCondition, left⟩ := condition.wellFormed (List.subset_of_cons_subset among)
      obtain ⟨⟨formedConsequent, plain⟩, between⟩ := consequent.wellFormed left
      obtain ⟨⟨formedAlternative, plainOther⟩, behind⟩ :=
        alternative.wellFormed (List.subset_of_cons_subset between)
      refine ⟨⟨.of_parts ⟨plain, by simpa using plainOther⟩ fun part isPart => ?_, id⟩, behind⟩
      cases isPart with
      | condition => exact formedCondition
      | consequent => exact formedConsequent
      | alternative => exact formedAlternative
  | _, _, _, _, .forLoop _ _ initializer condition _ increment _ body isLoop, among => by
      obtain ⟨formedInitializer, first⟩ :=
        initializer.wellFormed (List.subset_of_cons_subset (List.subset_of_cons_subset among))
      obtain ⟨formedCondition, second⟩ := condition.wellFormed first
      obtain ⟨formedIncrement, third⟩ := increment.wellFormed (List.subset_of_cons_subset second)
      obtain ⟨formedBody, behind⟩ := body.wellFormed (List.subset_of_cons_subset third)
      obtain ⟨isCondition, isRound, isInitialized⟩ := isLoop
      obtain ⟨formedRound, plain⟩ := isRound.wellFormed formedIncrement formedBody
      exact ⟨isInitialized.wellFormed formedInitializer ⟨.of_parts plain fun
        | _, .loopCondition => isCondition.wellFormed formedCondition
        | _, .round => formedRound, id⟩, behind⟩

/-- A derived declaration is well formed. -/
theorem DerivesDeclaration.wellFormed :
    ∀ {before tree after},
      DerivesDeclaration before tree after →
      before ⊆ tokens → WellFormed tokens (.statement tree) ∧ after ⊆ tokens
  | _, _, _, .classDeclaration _ named superclass _ methods _, among => by
      obtain ⟨isName, rest⟩ := List.cons_subset.mp (List.subset_of_cons_subset among)
      obtain ⟨namedParent, members⟩ := superclass.namedIn rest
      obtain ⟨formed, left⟩ := methods.wellFormed (List.subset_of_cons_subset members)
      refine ⟨.of_parts ⟨_, isName, named⟩ fun part isPart => ?_, List.subset_of_cons_subset left⟩
      cases isPart with
      | superclass => exact .of_parts (namedParent _ rfl) nofun
      | method isMethod => exact formed _ isMethod
  | _, _, _, .functionDeclaration _ function, among => by
      obtain ⟨formed, behind⟩ := function.wellFormed (List.subset_of_cons_subset among)
      refine ⟨.of_parts trivial fun part isPart => ?_, behind⟩
      cases isPart with
      | declared => exact formed
  | _, _, _, .varDeclaration _ declaration, among =>
      declaration.wellFormed (List.subset_of_cons_subset among)
  | _, _, _, .statement derived, among => by
      obtain ⟨⟨formed, -⟩, behind⟩ := derived.wellFormed among
      exact ⟨formed, behind⟩

/-- Derived declarations are well formed, and what follows them is among the same tokens. -/
theorem DerivesDeclarations.wellFormed :
    ∀ {before trees after},
      DerivesDeclarations before trees after →
      before ⊆ tokens →
        (∀ tree ∈ trees, WellFormed tokens (.statement tree)) ∧ after ⊆ tokens
  | _, _, _, .none, among => ⟨nofun, among⟩
  | _, _, _, .more first rest, among => by
      obtain ⟨formed, left⟩ := first.wellFormed among
      obtain ⟨others, behind⟩ := rest.wellFormed left
      exact ⟨List.forall_mem_cons.mpr ⟨formed, others⟩, behind⟩

/-- A derived function is well formed, and what follows it is among the same tokens. -/
theorem DerivesFunction.wellFormed :
    ∀ {before tree after},
      DerivesFunction before tree after →
      before ⊆ tokens → WellFormed tokens (.function tree) ∧ after ⊆ tokens
  | _, _, _, .intro named _ parameters _ _ body _, among => by
      obtain ⟨isName, rest⟩ := List.cons_subset.mp among
      obtain ⟨⟨namedParameters, few⟩, left⟩ := parameters.namedIn (List.subset_of_cons_subset rest)
      obtain ⟨formed, behind⟩ :=
        body.wellFormed (List.subset_of_cons_subset (List.subset_of_cons_subset left))
      refine ⟨.of_parts ⟨⟨_, isName, named⟩, namedParameters, few⟩ fun part isPart => ?_,
        List.subset_of_cons_subset behind⟩
      cases isPart with
      | run isMember => exact formed _ isMember

/-- Derived methods are well formed, and what follows them is among the same tokens. -/
theorem DerivesMethods.wellFormed :
    ∀ {before trees after},
      DerivesMethods before trees after →
      before ⊆ tokens →
        (∀ tree ∈ trees, WellFormed tokens (.function tree)) ∧ after ⊆ tokens
  | _, _, _, .none, among => ⟨nofun, among⟩
  | _, _, _, .more first rest, among => by
      obtain ⟨formed, left⟩ := first.wellFormed among
      obtain ⟨others, behind⟩ := rest.wellFormed left
      exact ⟨List.forall_mem_cons.mpr ⟨formed, others⟩, behind⟩

end

end

/-! ## Trees of calls in a row -/

/-- The trees that a call gives; a call that fails gives none. -/
def Call.trees : Call → Reader → List Node
  | .program, reader =>
      match Grammar.program reader with
      | .ok statements _ => statements.map .statement
      | .error _ _ => []
  | .expression, reader =>
      match wholeExpression reader with
      | .ok value _ => [.expression value]
      | .error _ _ => []

/--
The trees of calls in a row, each with a reader of its own.  Only the identities go on
from one call to the next, also behind a call that fails.
-/
def treesOf : List (Call × Reader) → NodeId → List Node
  | [], _ => []
  | (call, reader) :: others, nextId =>
      let begun := { reader with nextId := nextId }
      call.trees begun ++ treesOf others (call.after begun).nextId

/-- The tokens that calls in a row find in front of them. -/
def tokensOf (calls : List (Call × Reader)) : List Token :=
  calls.flatMap (·.2.rest)

/-- Every tree that a call gives is well formed. -/
theorem Call.trees_wellFormed
    (call : Call)
    {reader : Reader}
    {tokens : List Token}
    (among : reader.rest ⊆ tokens) :
    ∀ tree ∈ call.trees reader, WellFormed tokens tree := by
  intro tree member
  cases call with
  | program =>
      cases given : Grammar.program reader with
      | ok statements final =>
          rw [trees, given] at member
          obtain ⟨single, isMember, rfl⟩ := List.mem_map.mp member
          exact ((program_reads given).1.derived.wellFormed among).1 single isMember
      | error _ _ =>
          rw [trees, given] at member
          cases member
  | expression =>
      cases given : wholeExpression reader with
      | ok value final =>
          rw [trees, given] at member
          obtain rfl := List.mem_singleton.mp member
          exact ((wholeExpression_reads given).1.derived.wellFormed among).1
      | error _ _ =>
          rw [trees, given] at member
          cases member

/-- The identities in what a call gives are distinct, and handed out by this call. -/
theorem Call.trees_fresh (call : Call) (reader : Reader) :
    FreshIds ((call.trees reader).flatMap Node.ids) reader.nextId
      (call.after reader).nextId := by
  have failed : FreshIds ([] : List NodeId) reader.nextId (call.after reader).nextId :=
    .none (recedes_of_moves (call.moves reader)).nextId
  cases call with
  | program =>
      cases given : Grammar.program reader with
      | ok statements final =>
          have fresh := (program_reads given).1.fresh
          have ended : Call.program.after reader = final := by rw [after, given]; rfl
          rw [trees, given, ended]
          simpa [List.flatMap_map, Node.ids] using fresh
      | error _ _ =>
          rw [trees, given]
          exact failed
  | expression =>
      cases given : wholeExpression reader with
      | ok value final =>
          have fresh := (wholeExpression_reads given).1.fresh
          have ended : Call.expression.after reader = final := by rw [after, given]; rfl
          rw [trees, given, ended]
          simpa [Node.ids] using fresh
      | error _ _ =>
          rw [trees, given]
          exact failed

/-- The trees of calls in a row number their nodes without a repetition. -/
theorem treesOf_fresh (calls : List (Call × Reader)) (nextId : NodeId) :
    ∃ next, FreshIds ((treesOf calls nextId).flatMap Node.ids) nextId next := by
  induction calls generalizing nextId with
  | nil => exact ⟨nextId, .none (Nat.le_refl _)⟩
  | cons first others inductionHypothesis =>
      obtain ⟨call, reader⟩ := first
      have fresh := call.trees_fresh { reader with nextId := nextId }
      obtain ⟨next, later⟩ := inductionHypothesis (call.after { reader with nextId }).nextId
      exact ⟨next, by simpa [treesOf] using fresh.append later⟩

/-- Every tree that calls in a row give is well formed over the tokens of all of these calls. -/
theorem treesOf_wellFormed
    {calls : List (Call × Reader)}
    {tokens : List Token}
    (among : tokensOf calls ⊆ tokens)
    (nextId : NodeId) :
    ∀ tree ∈ treesOf calls nextId, WellFormed tokens tree := by
  induction calls generalizing nextId with
  | nil => exact nofun
  | cons first others inductionHypothesis =>
      obtain ⟨call, reader⟩ := first
      have parts : reader.rest ++ tokensOf others ⊆ tokens := by simpa [tokensOf] using among
      obtain ⟨here, later⟩ := List.append_subset.mp parts
      intro tree member
      rcases List.mem_append.mp member with given | behind
      · have begun : ({ reader with nextId := nextId } : Reader).rest ⊆ tokens := here
        exact call.trees_wellFormed begun tree given
      · exact inductionHypothesis later _ tree behind

end Grammar

end Lox
