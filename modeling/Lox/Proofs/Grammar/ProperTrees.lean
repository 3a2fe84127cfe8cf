import Lox.Proofs.Grammar.ProgramExact
import Lox.Proofs.Scoping.Proper

namespace Lox.Grammar

/-!
# Derived trees are proper

Where no identifier is spelled like the keywords `this` and `super`, what the
grammar derives has legible names only; and by the grammar itself a branch or a
loop runs a statement, which declares nothing.
-/

/-- No identifier among tokens is spelled like a keyword that scopes hold. -/
def LegibleTokens (tokens : List Token) : Prop :=
  ∀ token ∈ tokens, token.kind = .identifier →
    token.lexeme ≠ receiverName ∧ token.lexeme ≠ superclassName

namespace LegibleTokens

variable {token : Token} {rest : List Token}

theorem tail (legible : LegibleTokens (token :: rest)) : LegibleTokens rest :=
  fun found member => legible found (List.mem_cons_of_mem token member)

/-- A name that is read from a legible token is legible. -/
theorem name
    (legible : LegibleTokens (token :: rest))
    {name : Identifier}
    (named : Names token name) :
    name.Legible := by
  unfold Identifier.Legible
  rw [named.text]
  exact legible token (by simp) named.kind

end LegibleTokens

/-! ## Expressions -/

/-- What an operator joins is proper if its operands are. -/
theorem Joins.proper
    {level : Level}
    {operator : Token}
    {left right whole : Expr}
    (joins : Joins level operator left right whole)
    (properLeft : left.Proper)
    (properRight : right.Proper) :
    whole.Proper := by
  cases joins <;> exact ⟨properLeft, properRight⟩

mutual

/-- A derived expression is proper, and what follows it is legible. -/
theorem Derives.proper :
    ∀ {nonterminal before tree after},
      Derives nonterminal before tree after →
      LegibleTokens before → tree.Proper ∧ LegibleTokens after
  | _, _, _, _, .assignment named _ value, legible => by
      obtain ⟨proper, behind⟩ := value.proper legible.tail.tail
      exact ⟨⟨legible.name named, proper⟩, behind⟩
  | _, _, _, _, .propertyAssignment object _ _ _ value, legible => by
      obtain ⟨properObject, left⟩ := object.proper legible
      obtain ⟨properValue, behind⟩ := value.proper left.tail.tail.tail
      exact ⟨⟨properObject, properValue⟩, behind⟩
  | _, _, _, _, .operation derived, legible => derived.proper legible
  | _, _, _, _, .operand derived, legible => derived.proper legible
  | _, _, _, _, .joined left joins right, legible => by
      obtain ⟨properLeft, between⟩ := left.proper legible
      obtain ⟨properRight, behind⟩ := right.proper between.tail
      exact ⟨joins.proper properLeft properRight, behind⟩
  | _, _, _, _, .signed _ operand, legible => operand.proper legible.tail
  | _, _, _, _, .unsigned derived, legible => derived.proper legible
  | _, _, _, _, .uncalled derived, legible => derived.proper legible
  | _, _, _, _, .emptyCall callee _ _, legible => by
      obtain ⟨proper, left⟩ := callee.proper legible
      exact ⟨⟨proper, trivial⟩, left.tail.tail⟩
  | _, _, _, _, .call callee _ arguments _ _, legible => by
      obtain ⟨properCallee, left⟩ := callee.proper legible
      obtain ⟨properArguments, behind⟩ := arguments.proper left.tail
      exact ⟨⟨properCallee, properArguments⟩, behind.tail⟩
  | _, _, _, _, .property object _ _, legible => by
      obtain ⟨proper, left⟩ := object.proper legible
      exact ⟨proper, left.tail.tail⟩
  | _, _, _, _, .literal _, legible => ⟨trivial, legible.tail⟩
  | _, _, _, _, .reference _, legible => ⟨trivial, legible.tail⟩
  | _, _, _, _, .this _, legible => ⟨trivial, legible.tail⟩
  | _, _, _, _, .super _ _ _, legible => ⟨trivial, legible.tail.tail.tail⟩
  | _, _, _, _, .grouping _ inner _, legible => by
      obtain ⟨proper, left⟩ := inner.proper legible.tail
      exact ⟨proper, left.tail⟩

/-- Derived arguments are proper, and what follows them is legible. -/
theorem DerivesArguments.proper :
    ∀ {before trees after},
      DerivesArguments before trees after →
      LegibleTokens before → Expr.AllProper trees ∧ LegibleTokens after
  | _, _, _, .last derived, legible => by
      obtain ⟨proper, behind⟩ := derived.proper legible
      exact ⟨⟨proper, trivial⟩, behind⟩
  | _, _, _, .more first _ rest, legible => by
      obtain ⟨proper, left⟩ := first.proper legible
      obtain ⟨others, behind⟩ := rest.proper left.tail
      exact ⟨⟨proper, others⟩, behind⟩

end

/-! ## Parts of statements -/

section

variable {before after : List Token}

/-- An expression that may be left out is proper where there is one. -/
theorem DerivesOptional.proper
    {value : Option Expr}
    (derived : DerivesOptional before value after)
    (legible : LegibleTokens before) :
    Expr.OptionalProper value ∧ LegibleTokens after := by
  cases derived with
  | absent => exact ⟨trivial, legible⟩
  | present derived => exact derived.proper legible

/-- A derived condition in parentheses is proper. -/
theorem DerivesCondition.proper
    {condition : Expr}
    (derived : DerivesCondition before condition after)
    (legible : LegibleTokens before) :
    condition.Proper ∧ LegibleTokens after := by
  cases derived with
  | intro _ derived _ =>
      obtain ⟨proper, left⟩ := derived.proper legible.tail
      exact ⟨proper, left.tail⟩

/-- An effect is proper, and declares nothing. -/
theorem DerivesEffect.proper
    {effect : Stmt}
    (derived : DerivesEffect before effect after)
    (legible : LegibleTokens before) :
    (effect.Proper ∧ effect.declared = []) ∧ LegibleTokens after := by
  cases derived with
  | intro derived _ =>
      obtain ⟨proper, left⟩ := derived.proper legible
      exact ⟨⟨proper, rfl⟩, left.tail⟩

/-- A derived variable declaration is proper. -/
theorem DerivesVariable.proper
    {declaration : Stmt}
    (derived : DerivesVariable before declaration after)
    (legible : LegibleTokens before) :
    declaration.Proper ∧ LegibleTokens after := by
  cases derived with
  | plain named _ => exact ⟨⟨legible.name named, trivial⟩, legible.tail.tail⟩
  | initialized named _ derived _ =>
      obtain ⟨proper, left⟩ := derived.proper legible.tail.tail
      exact ⟨⟨legible.name named, proper⟩, left.tail⟩

/-- A derived first clause of a `for` loop is proper. -/
theorem DerivesInitializer.proper
    {initializer : Option Stmt}
    (derived : DerivesInitializer before initializer after)
    (legible : LegibleTokens before) :
    (∀ first ∈ initializer, first.Proper) ∧ LegibleTokens after := by
  cases derived with
  | absent _ => exact ⟨by simp, legible.tail⟩
  | declared _ derived =>
      obtain ⟨proper, behind⟩ := derived.proper legible.tail
      exact ⟨by simpa using proper, behind⟩
  | effect derived =>
      obtain ⟨⟨proper, -⟩, behind⟩ := derived.proper legible
      exact ⟨by simpa using proper, behind⟩

/-- Derived names are legible. -/
theorem DerivesNames.legible
    {names : List Identifier}
    (derived : DerivesNames before names after)
    (legible : LegibleTokens before) :
    (∀ name ∈ names, name.Legible) ∧ LegibleTokens after := by
  induction derived with
  | last named => exact ⟨by simpa using legible.name named, legible.tail⟩
  | more named _ _ inductionHypothesis =>
      obtain ⟨others, behind⟩ := inductionHypothesis legible.tail.tail
      exact ⟨by simpa using ⟨legible.name named, others⟩, behind⟩

/-- Derived parameters are legible names. -/
theorem DerivesParameters.legible
    {names : List Identifier}
    (derived : DerivesParameters before names after)
    (legible : LegibleTokens before) :
    (∀ name ∈ names, name.Legible) ∧ LegibleTokens after := by
  cases derived with
  | none => exact ⟨by simp, legible⟩
  | some derived _ => exact derived.legible legible

theorem DerivesSuperclass.legible
    {superclass : Option Reference}
    (derived : DerivesSuperclass before superclass after)
    (legible : LegibleTokens before) :
    LegibleTokens after := by
  cases derived with
  | absent => exact legible
  | present _ _ => exact legible.tail.tail

end

/-- The condition of a `for` loop is proper, also where it is left out. -/
theorem IsCondition.proper
    {condition : Option Expr}
    {whole : Expr}
    (isCondition : IsCondition condition whole)
    (proper : Expr.OptionalProper condition) :
    whole.Proper := by
  cases isCondition with
  | always => trivial
  | given => exact proper

/-- A round of a `for` loop is proper, and declares nothing. -/
theorem IsRound.proper
    {increment : Option Expr}
    {body round : Stmt}
    (isRound : IsRound body increment round)
    (properIncrement : Expr.OptionalProper increment)
    (properBody : body.Proper ∧ body.declared = []) :
    round.Proper ∧ round.declared = [] := by
  cases isRound with
  | plain => exact properBody
  | stepped => exact ⟨⟨properBody.1, properIncrement, trivial⟩, rfl⟩

/-- A loop behind an initializer is proper, and declares nothing. -/
theorem IsInitialized.proper
    {initializer : Option Stmt}
    {loop tree : Stmt}
    (isInitialized : IsInitialized initializer loop tree)
    (properInitializer : ∀ first ∈ initializer, first.Proper)
    (properLoop : loop.Proper ∧ loop.declared = []) :
    tree.Proper ∧ tree.declared = [] := by
  cases isInitialized with
  | plain => exact properLoop
  | first => exact ⟨⟨properInitializer _ rfl, properLoop.1, trivial⟩, rfl⟩

/-! ## Statements and declarations -/

mutual

/-- A derived statement is proper and declares nothing. -/
theorem DerivesStatement.proper :
    ∀ {ending before tree after},
      DerivesStatement ending before tree after →
      LegibleTokens before →
        (tree.Proper ∧ tree.declared = []) ∧ LegibleTokens after
  | _, _, _, _, .effect derived, legible => derived.proper legible
  | _, _, _, _, .print _ value _, legible => by
      obtain ⟨proper, left⟩ := value.proper legible.tail
      exact ⟨⟨proper, rfl⟩, left.tail⟩
  | _, _, _, _, .returnValue _ value _, legible => by
      obtain ⟨proper, left⟩ := value.proper legible.tail
      exact ⟨⟨proper, rfl⟩, left.tail⟩
  | _, _, _, _, .block _ body _, legible => by
      obtain ⟨proper, left⟩ := body.proper legible.tail
      exact ⟨⟨proper, rfl⟩, left.tail⟩
  | _, _, _, _, .whileLoop _ condition body, legible => by
      obtain ⟨properCondition, left⟩ := condition.proper legible.tail
      obtain ⟨properBody, behind⟩ := body.proper left
      exact ⟨⟨⟨properCondition, properBody⟩, properBody.2⟩, behind⟩
  | _, _, _, _, .ifThen _ condition consequent, legible => by
      obtain ⟨properCondition, left⟩ := condition.proper legible.tail
      obtain ⟨properConsequent, behind⟩ := consequent.proper left
      exact ⟨⟨⟨properCondition, properConsequent⟩, properConsequent.2⟩, behind⟩
  | _, _, _, _, .ifThenElse _ condition consequent _ alternative, legible => by
      obtain ⟨properCondition, left⟩ := condition.proper legible.tail
      obtain ⟨properConsequent, between⟩ := consequent.proper left
      obtain ⟨properAlternative, behind⟩ := alternative.proper between.tail
      refine ⟨⟨⟨properCondition, properConsequent, properAlternative⟩, ?_⟩, behind⟩
      rw [Stmt.declared, properConsequent.2, properAlternative.2]
      rfl
  | _, _, _, _, .forLoop _ _ initializer condition _ increment _ body isLoop, legible => by
      obtain ⟨properInitializer, first⟩ := initializer.proper legible.tail.tail
      obtain ⟨properCondition, second⟩ := condition.proper first
      obtain ⟨properIncrement, third⟩ := increment.proper second.tail
      obtain ⟨properBody, behind⟩ := body.proper third.tail
      obtain ⟨isCondition, isRound, isInitialized⟩ := isLoop
      have properRound := isRound.proper properIncrement properBody
      exact ⟨isInitialized.proper properInitializer
        ⟨⟨isCondition.proper properCondition, properRound⟩, properRound.2⟩, behind⟩

/-- A derived declaration is proper. -/
theorem DerivesDeclaration.proper :
    ∀ {before tree after},
      DerivesDeclaration before tree after →
      LegibleTokens before → tree.Proper ∧ LegibleTokens after
  | _, _, _, .classDeclaration _ named superclass _ methods _, legible => by
      have members := superclass.legible legible.tail.tail
      obtain ⟨proper, left⟩ := methods.proper members.tail
      exact ⟨⟨legible.tail.name named, proper⟩, left.tail⟩
  | _, _, _, .functionDeclaration _ function, legible => by
      obtain ⟨proper, behind⟩ := function.proper legible.tail
      exact ⟨proper, behind⟩
  | _, _, _, .varDeclaration _ declaration, legible => declaration.proper legible.tail
  | _, _, _, .statement derived, legible => by
      obtain ⟨⟨proper, -⟩, behind⟩ := derived.proper legible
      exact ⟨proper, behind⟩

/-- Derived declarations are proper. -/
theorem DerivesDeclarations.proper :
    ∀ {before trees after},
      DerivesDeclarations before trees after →
      LegibleTokens before → Stmt.AllProper trees ∧ LegibleTokens after
  | _, _, _, .none, legible => ⟨trivial, legible⟩
  | _, _, _, .more first rest, legible => by
      obtain ⟨proper, left⟩ := first.proper legible
      obtain ⟨others, behind⟩ := rest.proper left
      exact ⟨⟨proper, others⟩, behind⟩

/-- A derived function is proper, and its name is legible. -/
theorem DerivesFunction.proper :
    ∀ {before tree after},
      DerivesFunction before tree after →
      LegibleTokens before →
        (tree.name.Legible ∧ tree.Proper) ∧ LegibleTokens after
  | _, _, _, .intro named _ parameters _ _ body _, legible => by
      obtain ⟨properParameters, left⟩ := parameters.legible legible.tail.tail
      obtain ⟨properBody, behind⟩ := body.proper left.tail.tail
      exact ⟨⟨legible.name named, properParameters, properBody⟩, behind.tail⟩

/-- Derived methods are proper, and their names are legible. -/
theorem DerivesMethods.proper :
    ∀ {before trees after},
      DerivesMethods before trees after →
      LegibleTokens before → FunctionDeclaration.AllProper trees ∧ LegibleTokens after
  | _, _, _, .none, legible => ⟨trivial, legible⟩
  | _, _, _, .more first rest, legible => by
      obtain ⟨⟨-, proper⟩, left⟩ := first.proper legible
      obtain ⟨others, behind⟩ := rest.proper left
      exact ⟨⟨proper, others⟩, behind⟩

end

/-- A program that was read from legible tokens is proper. -/
theorem allProper_of_parsed
    {tokens : List Token}
    {nextId : NodeId}
    {statements : List Stmt}
    {final : Reader}
    (parsed : program (Reader.start tokens nextId) = .ok statements final)
    (legible : LegibleTokens tokens) :
    Stmt.AllProper statements := by
  refine ((program_reads parsed).1.derived.proper ?_).1
  intro token member
  exact legible token (List.takeWhile_subset _ member)

end Lox.Grammar
