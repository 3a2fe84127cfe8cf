import Lox.Grammar.Program
import Lox.Proofs.Computation

namespace Lox.Grammar

/-!
# What every step of a parser keeps

A relation between the readers before and after can hold of all parsers because it holds
of their few steps: a token is taken, an identity is handed out, a fault is reported.  A
discipline states such a relation with what it demands of these steps.  One lemma for
each rule of the grammar then carries it from the steps to whole programs, however they
end.  Expressions never take a semicolon, so they keep also a discipline that forbids it.
-/

/--
A relation between readers that the steps of parsers keep, and what holds of an error
that is reported on the way.  An assignment reports its target late: its error is placed
at an earlier reader than the one at which it stops.
-/
structure Discipline where
  kept : Reader → Reader → Prop
  reported : Reader → SyntaxError → Reader → Prop
  takes : Token → Prop
  spares : ∀ token, token.kind ≠ .symbol .semicolon → takes token
  refl : ∀ reader, kept reader reader
  trans : ∀ {before middle after}, kept before middle → kept middle after →
    kept before after
  late : ∀ {before middle error after}, kept before middle →
    reported middle error after → reported before error after
  token : ∀ {reader token rest}, reader.rest = token :: rest → takes token →
    kept reader { reader with rest := rest }
  identity : ∀ reader, kept reader { reader with nextId := reader.nextId + 1 }
  fault : ∀ {reader after} (fault : SyntaxFault), kept reader after →
    reported reader (reader.report fault) after

namespace Discipline

/-- A parser keeps a discipline, whether it gives a value or fails. -/
def Governs (law : Discipline) (parser : Parser α) : Prop :=
  ∀ reader,
    (∀ value after, parser reader = .ok value after → law.kept reader after) ∧
      ∀ error after, parser reader = .error error after →
        law.reported reader error after

/-- A symbol other than a semicolon may always be taken. -/
theorem spare
    (law : Discipline)
    {symbol : Symbol}
    (different : symbol ≠ .semicolon)
    (token : Token)
    (kind : token.kind = .symbol symbol) :
    law.takes token := by
  refine law.spares token fun semicolon => different ?_
  rw [kind] at semicolon
  exact TokenKind.symbol.inj semicolon

namespace Governs

section

variable {law : Discipline} {α β : Type}

/-- A parser that always gives a value. -/
theorem of_ok
    {parser : Parser α}
    {result : Reader → α}
    {final : Reader → Reader}
    (given : ∀ reader, parser reader = .ok (result reader) (final reader))
    (kept : ∀ reader, law.kept reader (final reader)) :
    law.Governs parser := by
  intro reader
  rw [given reader]
  refine ⟨?_, by simp⟩
  rintro value after ⟨⟩
  exact kept reader

theorem pure (value : α) : law.Governs (pure value) :=
  .of_ok (fun _ => rfl) law.refl

/-- Parsers in a row, from what the first one gives where it is asked. -/
theorem bind
    {first : Parser α}
    {next : α → Parser β}
    (head : law.Governs first)
    (tail : ∀ value, law.Governs (next value)) :
    law.Governs (first >>= next) := by
  intro reader
  rw [bind_apply]
  cases step : first reader with
  | ok value middle =>
      have started := (head reader).1 value middle step
      exact ⟨fun result after given =>
          law.trans started ((tail value middle).1 result after given),
        fun error after stopped =>
          law.late started ((tail value middle).2 error after stopped)⟩
  | error error middle =>
      refine ⟨by simp, ?_⟩
      rintro other after ⟨⟩
      exact (head reader).2 error middle step

/-- What is made of the value of a parser does not matter. -/
theorem map
    {parser : Parser α}
    (governed : law.Governs parser)
    (convert : α → β) :
    law.Governs (convert <$> parser) := by
  rw [map_eq_pure_bind]
  exact governed.bind fun value => .pure (convert value)

theorem dropped {parser : Parser α} (governed : law.Governs parser) :
    law.Governs (discard parser) :=
  governed.map _

/-- One of two parsers. -/
theorem either
    {condition : Prop}
    [Decidable condition]
    {consequent alternative : Parser α}
    (first : law.Governs consequent)
    (second : law.Governs alternative) :
    law.Governs (if condition then consequent else alternative) := by
  split
  · exact first
  · exact second

end

end Governs

end Discipline

section

variable (law : Discipline) {α : Type}

/-! ## Steps -/

theorem reject_governed (fault : SyntaxFault) :
    law.Governs (reject fault : Parser α) := by
  intro reader
  refine ⟨by simp [reject], ?_⟩
  rintro error after ⟨⟩
  exact law.fault fault (law.refl reader)

/-- A token that may be taken. -/
theorem next?_governed
    {read : Token → Option α}
    (takes : ∀ token value, read token = some value → law.takes token) :
    law.Governs (next? read) := by
  intro reader
  unfold next?
  split
  · refine ⟨?_, by simp⟩
    rintro value after ⟨⟩
    exact law.refl reader
  next token rest shape =>
    split
    next value readable =>
      refine ⟨?_, by simp⟩
      rintro found after ⟨⟩
      exact law.token shape (takes token value readable)
    · refine ⟨?_, by simp⟩
      rintro value after ⟨⟩
      exact law.refl reader

/-- A required token may be taken. -/
theorem require_governed
    {read : Token → Option α}
    (takes : ∀ token value, read token = some value → law.takes token)
    (fault : SyntaxFault) :
    law.Governs (require read fault) := by
  refine (next?_governed law takes).bind fun found => ?_
  cases found with
  | none => exact reject_governed law fault
  | some value => exact .pure value

/-- A token whose line is read is of the kind that was asked for. -/
theorem lineOf?_takes
    {kind : TokenKind}
    (takes : ∀ token : Token, token.kind = kind → law.takes token)
    (token : Token)
    (line : Nat)
    (readable : lineOf? kind token = some line) :
    law.takes token := by
  unfold lineOf? at readable
  split at readable
  next same => exact takes token same
  · cases readable

/-- A symbol that may be taken is accepted. -/
theorem acceptSymbol_governed
    {symbol : Symbol}
    (takes : ∀ token : Token, token.kind = .symbol symbol → law.takes token) :
    law.Governs (acceptSymbol symbol) :=
  (next?_governed law (lineOf?_takes law takes)).bind fun _ => .pure _

/-- A symbol that may be taken is expected, with a fault where there is another one. -/
theorem expectSymbol_governed
    {symbol : Symbol}
    (takes : ∀ token : Token, token.kind = .symbol symbol → law.takes token)
    (fault : SyntaxFault) :
    law.Governs (expectSymbol symbol fault) :=
  require_governed law (lineOf?_takes law takes) fault

/-- A name may always be taken. -/
theorem expectName_governed (fault : SyntaxFault) : law.Governs (expectName fault) := by
  refine require_governed law (fun token name readable => ?_) fault
  refine law.spares token fun semicolon => ?_
  simp [identifier?, semicolon] at readable

theorem upcoming_governed (symbol : Symbol) : law.Governs (upcoming symbol) :=
  .of_ok (fun _ => rfl) law.refl

theorem atEnd_governed : law.Governs atEnd :=
  .of_ok (fun _ => rfl) law.refl

theorem freshId_governed : law.Governs freshId :=
  .of_ok (fun _ => rfl) law.identity

variable {law}

/-- A value with all that extends it. -/
theorem extend_governed
    {step : α → Parser (Option α)}
    (governed : ∀ value, law.Governs (step value)) :
    ∀ (fuel : Nat) (value : α), law.Governs (extend step fuel value)
  | 0, value => .pure value
  | fuel + 1, value => by
      refine (governed value).bind fun found => ?_
      cases found with
      | none => exact .pure value
      | some longer => exact extend_governed governed fuel longer

/-- Elements with commas between them keep a discipline if every element does. -/
theorem separated_governed
    {element : Parser α}
    (governed : law.Governs element)
    (overflow : SyntaxFault) :
    ∀ room : Nat, law.Governs (separated element overflow room)
  | 0 => reject_governed law overflow
  | room + 1 => by
      refine governed.bind fun first => ?_
      refine (acceptSymbol_governed law (law.spare (by decide))).bind fun found => ?_
      refine .either ?_ (.pure _)
      exact (separated_governed governed overflow room).bind fun _ => .pure _

/-- A list that may be empty keeps a discipline if every element does. -/
theorem listed_governed
    {element : Parser α}
    (governed : law.Governs element)
    (overflow : SyntaxFault) :
    law.Governs (listed element overflow) :=
  (upcoming_governed law _).bind fun _ =>
    .either (.pure _) (separated_governed governed overflow _)

/-- Elements up to a closing brace keep a discipline if every element does. -/
theorem untilBrace_governed {element : Parser α} (governed : law.Governs element) :
    ∀ fuel : Nat, law.Governs (untilBrace element fuel)
  | 0 => .pure _
  | fuel + 1 => by
      refine (upcoming_governed law _).bind fun _ => (atEnd_governed law).bind fun _ => ?_
      refine .either (.pure _) (governed.bind fun _ => ?_)
      exact (untilBrace_governed governed fuel).bind fun _ => .pure _

end

/-! ## Expressions -/

section

variable {law : Discipline} {inner : Parser Expr}

/-- What follows the token of a primary expression keeps a discipline. -/
theorem primaryAfter_governed (nested : law.Governs inner) :
    ∀ start : PrimaryStart, law.Governs (primaryAfter inner start)
  | .literal _ => .pure _
  | .name _ => (freshId_governed law).bind fun _ => .pure _
  | .this _ => (freshId_governed law).bind fun _ => .pure _
  | .super _ => by
      refine (expectSymbol_governed law (law.spare (by decide)) _).dropped.bind
        fun _ => ?_
      refine (expectName_governed law _).bind fun _ => ?_
      exact (freshId_governed law).bind fun _ => .pure _
  | .group =>
      nested.bind fun _ =>
        (expectSymbol_governed law (law.spare (by decide)) _).dropped.bind
          fun _ => .pure _

/-- A primary expression keeps a discipline if the expressions inside do. -/
theorem primary_governed (nested : law.Governs inner) : law.Governs (primary inner) := by
  have first := next?_governed law fun token start
      (readable : primaryStart? token = some start) =>
    law.spares token fun semicolon => by simp [primaryStart?, semicolon] at readable
  refine first.bind fun start => ?_
  cases start with
  | none => exact reject_governed law _
  | some start => exact primaryAfter_governed nested start

/-- A call or a property keeps a discipline if the arguments do. -/
theorem callOrProperty_governed (nested : law.Governs inner) (subject : Expr) :
    law.Governs (callOrProperty inner subject) := by
  refine (acceptSymbol_governed law (law.spare (by decide))).bind fun _ => .either ?_ ?_
  · refine (listed_governed nested _).bind fun _ => ?_
    exact (expectSymbol_governed law (law.spare (by decide)) _).bind fun _ => .pure _
  · refine (acceptSymbol_governed law (law.spare (by decide))).bind fun _ =>
      .either ?_ (.pure _)
    exact (expectName_governed law _).bind fun _ => .pure _

theorem callChain_governed (nested : law.Governs inner) (size : Nat) :
    law.Governs (callChain inner size) :=
  (primary_governed nested).bind fun subject =>
    extend_governed (callOrProperty_governed nested) size subject

/-- Operators in front keep a discipline if their operand does. -/
theorem unaryChain_governed {operand : Parser Expr} (governed : law.Governs operand) :
    ∀ size : Nat, law.Governs (unaryChain operand size)
  | 0 => governed
  | size + 1 => by
      have operator := next?_governed law fun token apply
          (readable : unary? token = some apply) =>
        law.spares token fun semicolon => by simp [unary?, semicolon] at readable
      refine operator.bind fun found => ?_
      cases found with
      | none => exact governed
      | some apply => exact (unaryChain_governed governed size).bind fun _ => .pure _

/-- No operator is a semicolon, so operands that keep a discipline keep it between operators. -/
theorem joinedChain_governed
    {operand : Parser Expr}
    {join? : Token → Option Join}
    (declines : ∀ token : Token, token.kind = .symbol .semicolon → join? token = none)
    (governed : law.Governs operand)
    (size : Nat) :
    law.Governs (joinedChain join? operand size) := by
  have operator := next?_governed law fun token join
      (readable : join? token = some join) =>
    law.spares token fun semicolon => by simp [declines token semicolon] at readable
  refine governed.bind fun first => extend_governed (fun left => ?_) size first
  refine operator.bind fun found => ?_
  cases found with
  | none => exact .pure _
  | some join => exact governed.bind fun _ => .pure _

/-- Operators of all levels keep a discipline if the expressions inside do. -/
theorem operation_governed (nested : law.Governs inner) (size : Nat) :
    law.Governs (operation inner size) := by
  refine joinedChain_governed (fun _ kind => by simp [disjunction?, kind]) ?_ size
  refine joinedChain_governed (fun _ kind => by simp [conjunction?, kind]) ?_ size
  refine joinedChain_governed (fun _ kind => by simp [equality?, kind]) ?_ size
  refine joinedChain_governed (fun _ kind => by simp [comparison?, kind]) ?_ size
  refine joinedChain_governed (fun _ kind => by simp [sum?, kind]) ?_ size
  refine joinedChain_governed (fun _ kind => by simp [product?, kind]) ?_ size
  exact unaryChain_governed (callChain_governed nested size) size

/-- The assignment of a value that has been read, to a target that stood at a place. -/
def assigned (place : Reader) (target value : Expr) : Parser Expr :=
  match target with
  | .reference occurrence => do
      return .assign ⟨← freshId, occurrence.name⟩ value
  | .property object name => return .setProperty object name value
  | _ => throw (place.report .invalidAssignmentTarget)

/-- What comes after the left side of an assignment, if the expression is one. -/
def assignmentTo (inner : Parser Expr) (target : Expr) : Parser Expr := do
  let place ← get
  if ← acceptSymbol .equal then
    assigned place target (← inner)
  else
    return target

/-- An assignment is its target with what comes after it. -/
theorem assignment_eq (inner : Parser Expr) (size : Nat) :
    assignment inner size = operation inner size >>= assignmentTo inner :=
  rfl

/-- An assignment ends as what has been kept since the place of its target. -/
theorem assigned_governed
    {place reader : Reader}
    (kept : law.kept place reader)
    (target value : Expr) :
    (∀ result after, assigned place target value reader = .ok result after →
        law.kept place after) ∧
      ∀ error after, assigned place target value reader = .error error after →
        law.reported place error after := by
  cases target with
  | reference occurrence =>
      refine ⟨?_, by simp [assigned, bind_apply, freshId, pure_apply]⟩
      rintro result after ⟨⟩
      exact law.trans kept (law.identity reader)
  | property object name =>
      refine ⟨?_, by simp [assigned, pure_apply]⟩
      rintro result after ⟨⟩
      exact kept
  | _ =>
      refine ⟨by simp [assigned, throw_apply], ?_⟩
      rintro error after ⟨⟩
      exact law.fault _ kept

/-- What comes after the target of an assignment keeps a discipline. -/
theorem assignmentTo_governed (nested : law.Governs inner) (target : Expr) :
    law.Governs (assignmentTo inner target) := by
  intro place
  have accepted : law.Governs (acceptSymbol .equal) :=
    acceptSymbol_governed law (law.spare (by decide))
  unfold assignmentTo
  rw [bind_of_ok (get_apply place), bind_apply]
  cases opening : acceptSymbol .equal place with
  | error error middle =>
      refine ⟨by simp, ?_⟩
      rintro other after ⟨⟩
      exact (accepted place).2 error middle opening
  | ok found middle =>
      have kept := (accepted place).1 found middle opening
      cases found with
      | false =>
          refine ⟨?_, by simp [pure_apply]⟩
          rintro value after ⟨⟩
          exact kept
      | true =>
          simp only [↓reduceIte]
          rw [bind_apply]
          cases step : inner middle with
          | error error after =>
              refine ⟨by simp, ?_⟩
              rintro other final ⟨⟩
              exact law.late kept ((nested middle).2 error after step)
          | ok value after =>
              have before := law.trans kept ((nested middle).1 value after step)
              exact assigned_governed before target value

theorem assignment_governed (nested : law.Governs inner) (size : Nat) :
    law.Governs (assignment inner size) :=
  (operation_governed nested size).bind fun target => assignmentTo_governed nested target

end

section

variable (law : Discipline)

/-- Expressions keep every discipline, within every budget. -/
theorem expressionWithin_governed : ∀ size : Nat, law.Governs (expressionWithin size)
  | 0 => reject_governed law _
  | size + 1 => assignment_governed (expressionWithin_governed size) (size + 1)

theorem optionalExpression_governed (size : Nat) (following : Symbol) :
    law.Governs (optionalExpression size following) :=
  (upcoming_governed law following).bind fun _ =>
    .either (.pure _) ((expressionWithin_governed law size).map _)

/-- A condition in parentheses keeps every discipline. -/
theorem parenthesized_governed (size : Nat) (opening closing : SyntaxFault) :
    law.Governs (parenthesized size opening closing) := by
  refine (expectSymbol_governed law (law.spare (by decide)) _).dropped.bind fun _ => ?_
  refine (expressionWithin_governed law size).bind fun _ => ?_
  exact (expectSymbol_governed law (law.spare (by decide)) _).dropped.bind
    fun _ => .pure _

theorem superclassClause_governed : law.Governs superclassClause := by
  refine (acceptSymbol_governed law (law.spare (by decide))).bind fun _ =>
    .either ?_ (.pure _)
  refine (expectName_governed law _).bind fun _ => ?_
  exact (freshId_governed law).bind fun _ => .pure _

/-! ## Statements and declarations -/

variable (all : ∀ token, law.takes token)

include all

/-- An expression statement keeps a discipline in which its semicolon may be taken. -/
theorem expressionStatement_governed (size : Nat) :
    law.Governs (expressionStatement size) :=
  (expressionWithin_governed law size).bind fun _ =>
    (expectSymbol_governed law (fun token _ => all token) _).dropped.bind fun _ => .pure _

/-- A variable declaration keeps a discipline in which its semicolon may be taken. -/
theorem varAfter_governed (size : Nat) : law.Governs (varAfter size) := by
  refine (expectName_governed law _).bind fun name => ?_
  refine (acceptSymbol_governed law (law.spare (by decide))).bind fun _ => ?_
  have ending : ∀ initializer : Option Expr,
      law.Governs (do
        discard (expectSymbol .semicolon .declarationEndExpected)
        return Stmt.varDeclaration name initializer) :=
    fun _ =>
      (expectSymbol_governed law (fun token _ => all token) _).dropped.bind fun _ => .pure _
  refine .either ?_ (ending _)
  exact ((expressionWithin_governed law size).map _).bind fun _ => ending _

omit all

variable {law} {statement declaration : Parser Stmt}

theorem blockBody_governed (declarations : law.Governs declaration) (size : Nat) :
    law.Governs (blockBody declaration size) :=
  (untilBrace_governed declarations size).bind fun _ =>
    (expectSymbol_governed law (law.spare (by decide)) _).dropped.bind fun _ => .pure _

/-- A function keeps a discipline if the declarations of its body do. -/
theorem functionAfter_governed
    (role : FunctionRole)
    (declarations : law.Governs declaration)
    (size : Nat) :
    law.Governs (functionAfter role declaration size) := by
  refine (expectName_governed law _).bind fun _ => ?_
  refine (expectSymbol_governed law (law.spare (by decide)) _).dropped.bind fun _ => ?_
  refine (listed_governed (expectName_governed law _) _).bind fun _ => ?_
  refine (expectSymbol_governed law (law.spare (by decide)) _).dropped.bind fun _ => ?_
  refine (expectSymbol_governed law (law.spare (by decide)) _).dropped.bind fun _ => ?_
  exact (blockBody_governed declarations size).bind fun _ => .pure _

/-- A class keeps a discipline if the declarations in its methods do. -/
theorem classAfter_governed (declarations : law.Governs declaration) (size : Nat) :
    law.Governs (classAfter declaration size) := by
  refine (expectName_governed law _).bind fun _ => ?_
  refine (superclassClause_governed law).bind fun _ => ?_
  refine (expectSymbol_governed law (law.spare (by decide)) _).dropped.bind fun _ => ?_
  refine (untilBrace_governed (functionAfter_governed _ declarations size) _).bind
    fun _ => ?_
  exact (expectSymbol_governed law (law.spare (by decide)) _).dropped.bind
    fun _ => .pure _

/-- A conditional statement keeps a discipline if both sides do. -/
theorem branchAfter_governed (statements : law.Governs statement) (size : Nat) :
    law.Governs (branchAfter statement size) := by
  have otherwise : law.Governs (next? (lineOf? (.keyword .elseWord))) :=
    next?_governed law (lineOf?_takes law fun token kind =>
      law.spares token (by simp [kind]))
  refine (parenthesized_governed law size _ _).bind fun _ => ?_
  refine statements.bind fun _ => otherwise.bind fun _ => .either ?_ (.pure _)
  exact (statements.map _).bind fun _ => .pure _

include all

/-- A `for` loop keeps a discipline in which its semicolons may be taken. -/
theorem forAfter_governed (statements : law.Governs statement) (size : Nat) :
    law.Governs (forAfter statement size) := by
  refine (expectSymbol_governed law (law.spare (by decide)) _).dropped.bind fun _ => ?_
  have declared : law.Governs (next? (lineOf? (.keyword .varWord))) :=
    next?_governed law (lineOf?_takes law fun token kind =>
      law.spares token (by simp [kind]))
  have initializer : law.Governs (forInitializer size) := by
    refine (acceptSymbol_governed law fun token _ => all token).bind fun _ =>
      .either (.pure _) ?_
    refine declared.bind fun _ => .either ?_ ?_
    · exact (varAfter_governed law all size).map _
    · exact (expressionStatement_governed law all size).map _
  refine initializer.bind fun _ => ?_
  refine (optionalExpression_governed law size _).bind fun _ => ?_
  refine (expectSymbol_governed law (fun token _ => all token) _).dropped.bind fun _ => ?_
  refine (optionalExpression_governed law size _).bind fun _ => ?_
  refine (expectSymbol_governed law (law.spare (by decide)) _).dropped.bind fun _ => ?_
  exact statements.bind fun _ => .pure _

/-- What follows the token of a statement keeps a discipline if what is inside does. -/
theorem statementAfter_governed
    (statements : law.Governs statement)
    (declarations : law.Governs declaration)
    (size : Nat)
    (start : StatementStart) :
    law.Governs (statementAfter statement declaration size start) := by
  have ending (fault : SyntaxFault) : law.Governs (expectSymbol .semicolon fault) :=
    expectSymbol_governed law (fun token _ => all token) fault
  cases start with
  | forLoop => exact forAfter_governed all statements size
  | branch => exact branchAfter_governed statements size
  | print =>
      refine (expressionWithin_governed law size).bind fun _ => ?_
      exact (ending _).dropped.bind fun _ => .pure _
  | returnValue _ =>
      refine (optionalExpression_governed law size _).bind fun _ => ?_
      exact (ending _).dropped.bind fun _ => .pure _
  | loop =>
      refine (parenthesized_governed law size _ _).bind fun _ => ?_
      exact statements.bind fun _ => .pure _
  | block => exact (blockBody_governed declarations size).map _

/-- A statement keeps a discipline if the statements and declarations inside do. -/
theorem anyStatement_governed
    (statements : law.Governs statement)
    (declarations : law.Governs declaration)
    (size : Nat) :
    law.Governs (anyStatement statement declaration size) := by
  refine (next?_governed law fun token _ _ => all token).bind fun start => ?_
  cases start with
  | none => exact expressionStatement_governed law all size
  | some start => exact statementAfter_governed all statements declarations size start

/-- What follows the token of a declaration keeps a discipline if what is inside does. -/
theorem declarationAfter_governed (declarations : law.Governs declaration) (size : Nat) :
    ∀ start : DeclarationStart, law.Governs (declarationAfter declaration size start)
  | .classDeclaration => classAfter_governed declarations size
  | .functionDeclaration => (functionAfter_governed _ declarations size).map _
  | .varDeclaration => varAfter_governed law all size

theorem anyDeclaration_governed
    (statements : law.Governs statement)
    (declarations : law.Governs declaration)
    (size : Nat) :
    law.Governs (anyDeclaration statement declaration size) := by
  refine (next?_governed law fun token _ _ => all token).bind fun start => ?_
  cases start with
  | none => exact anyStatement_governed all statements declarations size
  | some start => exact declarationAfter_governed all declarations size start

variable (law)

/-- Statements and declarations keep a discipline in which semicolons may be taken. -/
theorem within_governed (size : Nat) :
    law.Governs (statementWithin size) ∧ law.Governs (declarationWithin size) := by
  induction size with
  | zero => exact ⟨reject_governed law _, reject_governed law _⟩
  | succ size inductionHypothesis =>
      obtain ⟨statements, declarations⟩ := inductionHypothesis
      exact ⟨anyStatement_governed all statements declarations _,
        anyDeclaration_governed all statements declarations _⟩

end

end Lox.Grammar
