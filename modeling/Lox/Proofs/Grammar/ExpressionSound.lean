import Lox.Grammar.Expression
import Lox.Proofs.Grammar.Reading
import Lox.Proofs.Syntax.Identities

namespace Lox.Grammar

/-!
# What the expression parser reads is derivable

Each parser of a level is followed step by step: the tokens it has taken derive
the tree it gives, and the identities in that tree are its own.  Nothing is
assumed of the tokens, and of the parser for nested expressions only the same.
-/

/-- Whatever a parser gives, it has read as a nonterminal. -/
abbrev Reads (parser : Parser Expr) (nonterminal : Nonterminal) : Prop :=
  ReadsAs parser (Derives nonterminal) Expr.ids

/-! ## Operators -/

/-- The operators of a level as its parser knows them. -/
def Level.join? : Level → Token → Option Join
  | .disjunction => disjunction?
  | .conjunction => conjunction?
  | .equality => equality?
  | .comparison => comparison?
  | .sum => sum?
  | .product => product?

/-- The operators of a level are those of the grammar. -/
theorem Level.joins_of_join?
    {level : Level}
    {token : Token}
    {join : Join}
    (operator : level.join? token = some join)
    (left right : Expr) :
    Joins level token left right (join left right) := by
  cases level <;>
    simp only [Level.join?, disjunction?, conjunction?, equality?, comparison?,
      sum?, product?, binaryJoin] at operator <;>
    split at operator <;>
    simp only [Option.some.injEq, reduceCtorEq] at operator
  -- One goal for each operator, with the kind of its token at hand.
  all_goals
    subst operator
    constructor
    assumption

theorem Joins.ids
    {level : Level}
    {token : Token}
    {left right whole : Expr}
    (joined : Joins level token left right whole) :
    whole.ids = left.ids ++ right.ids := by
  cases joined <;> simp [Expr.ids, Expr.occurrences]

/-- The operators in front of an operand are those of the grammar. -/
theorem unary?_eq_some
    {token : Token}
    {apply : Expr → Expr} :
    unary? token = some apply ↔
      ∃ operator,
        Signs token.kind operator ∧ apply = .unary operator token.line := by
  unfold unary?
  constructor
  · intro found
    split at found
    next kind =>
      exact ⟨.not, kind ▸ .not, by simpa using found.symm⟩
    next kind =>
      exact ⟨.negate, kind ▸ .negate, by simpa using found.symm⟩
    · simp at found
  · rintro ⟨operator, signs, rfl⟩
    generalize token.kind = kind at signs
    cases signs <;> rfl

/-- What a token begins by the grammar of primary expressions. -/
inductive Begins : Token → PrimaryStart → Prop where
  | literal {token value} :
      Denotes token.kind value → Begins token (.literal value)
  | name {token name} :
      Names token name → Begins token (.name name)
  | this {token} :
      token.kind = .keyword .thisWord → Begins token (.this token.line)
  | super {token} :
      token.kind = .keyword .superWord → Begins token (.super token.line)
  | group {token} :
      token.kind = .symbol .leftParen → Begins token .group

/-- The tokens that begin a primary expression are those of the grammar. -/
theorem primaryStart?_eq_some {token : Token} {start : PrimaryStart} :
    primaryStart? token = some start ↔ Begins token start := by
  unfold primaryStart?
  constructor
  · intro found
    split at found <;>
      simp only [Option.some.injEq, reduceCtorEq] at found
    all_goals subst found
    case h_1 kind => exact .literal (kind ▸ .false)
    case h_2 kind => exact .literal (kind ▸ .true)
    case h_3 kind => exact .literal (kind ▸ .nil)
    case h_4 value kind => exact .literal (kind ▸ .number value)
    case h_5 contents kind => exact .literal (kind ▸ .string contents)
    case h_6 kind => exact .this kind
    case h_7 kind => exact .super kind
    case h_8 kind => exact .name ⟨kind, rfl, rfl⟩
    case h_9 kind => exact .group kind
  · intro begins
    cases begins with
    | literal denotes =>
        generalize token.kind = kind at denotes
        cases denotes <;> rfl
    | name named =>
        simp [named.kind, ← named.text, ← named.line]
    | this kind => simp [kind]
    | super kind => simp [kind]
    | group kind => simp [kind]

/-! ## Levels -/

/-- What reads a primary expression is one. -/
theorem primary_reads {inner : Parser Expr} (nested : Reads inner .expression) :
    Reads (primary inner) .primary := by
  intro reader value final given
  unfold primary at given
  obtain ⟨found, middle, step, given⟩ := bind_eq_ok_iff.mp given
  cases found with
  | none => simp [reject] at given
  | some start =>
      obtain ⟨token, rest, shape, readable, rfl⟩ := next?_eq_some step
      cases primaryStart?_eq_some.mp readable with
      | literal denotes =>
          simp only [primaryAfter, pure_apply, EStateM.Result.ok.injEq] at given
          obtain ⟨rfl, rfl⟩ := given
          exact ⟨by rw [shape]; exact .literal denotes, .none (Nat.le_refl _)⟩
      | name named =>
          simp only [primaryAfter, freshId, bind_apply, pure_apply,
            EStateM.Result.ok.injEq] at given
          obtain ⟨rfl, rfl⟩ := given
          exact ⟨by rw [shape]; exact .reference named, .one _⟩
      | this kind =>
          simp only [primaryAfter, freshId, bind_apply, pure_apply,
            EStateM.Result.ok.injEq] at given
          obtain ⟨rfl, rfl⟩ := given
          exact ⟨by rw [shape]; exact .this kind, .one _⟩
      | super kind =>
          obtain ⟨_, _, dotTaken, given⟩ := bind_eq_ok_iff.mp given
          obtain ⟨dot, _, dotShape, dotKind, rfl⟩ :=
            discard_expectSymbol_eq_ok dotTaken
          obtain ⟨name, _, nameTaken, given⟩ := bind_eq_ok_iff.mp given
          obtain ⟨target, _, nameShape, named, rfl⟩ := expectName_eq_ok nameTaken
          simp only [freshId, bind_apply, pure_apply,
            EStateM.Result.ok.injEq] at given dotShape nameShape
          obtain ⟨rfl, rfl⟩ := given
          exact ⟨by rw [shape, dotShape, nameShape]; exact .super kind dotKind named,
            .one _⟩
      | group kind =>
          obtain ⟨expression, _, innerTaken, given⟩ := bind_eq_ok_iff.mp given
          obtain ⟨_, _, closingTaken, given⟩ := bind_eq_ok_iff.mp given
          obtain ⟨closing, _, closingShape, closingKind, rfl⟩ :=
            discard_expectSymbol_eq_ok closingTaken
          simp only [pure_apply, EStateM.Result.ok.injEq] at given
          obtain ⟨rfl, rfl⟩ := given
          obtain ⟨derived, fresh⟩ := nested innerTaken
          rw [closingShape] at derived
          exact ⟨by rw [shape]; exact .grouping kind derived closingKind, fresh⟩

/-- A step that extends a call reads one more call or property of it. -/
theorem callOrProperty_extends
    {inner : Parser Expr}
    (nested : Reads inner .expression)
    {start reader final : Reader}
    {subject longer : Expr}
    (sofar : ParsesAs (Derives .call) Expr.ids start subject reader)
    (given : callOrProperty inner subject reader = .ok (some longer) final) :
    ParsesAs (Derives .call) Expr.ids start longer final := by
  obtain ⟨derived, fresh⟩ := sofar
  unfold callOrProperty at given
  obtain ⟨isCall, _, openingStep, afterOpening⟩ := bind_eq_ok_iff.mp given
  cases isCall with
  | true =>
      obtain ⟨opening, _, openingShape, openingKind, rfl⟩ :=
        acceptSymbol_eq_true openingStep
      obtain ⟨arguments, _, argumentsTaken, afterArguments⟩ :=
        bind_eq_ok_iff.mp afterOpening
      obtain ⟨line, _, closingTaken, result⟩ := bind_eq_ok_iff.mp afterArguments
      obtain ⟨closing, _, closingShape, closingKind, rfl, rfl⟩ :=
        expectSymbol_eq_ok closingTaken
      simp only [pure_apply, EStateM.Result.ok.injEq, Option.some.injEq] at result
      obtain ⟨rfl, rfl⟩ := result
      rw [openingShape] at derived
      rcases listed_reads DerivesArguments nested .last .more argumentsTaken with
        ⟨rfl, rfl⟩ | ⟨⟨argumentsDerived, argumentsFresh⟩, within⟩
      · simp only at closingShape
        rw [closingShape] at derived
        refine ⟨.emptyCall derived openingKind closingKind, ?_⟩
        simpa [Expr.ids, Expr.occurrences, Expr.occurrencesOfAll] using fresh
      · rw [closingShape] at argumentsDerived
        refine ⟨.call derived openingKind argumentsDerived within closingKind, ?_⟩
        simpa [Expr.ids, Expr.occurrences] using fresh.append argumentsFresh
  | false =>
      obtain ⟨rfl, -⟩ := acceptSymbol_eq_false openingStep
      simp only [Bool.false_eq_true, ↓reduceIte] at afterOpening
      obtain ⟨isProperty, _, dotStep, afterDot⟩ := bind_eq_ok_iff.mp afterOpening
      cases isProperty with
      | true =>
          obtain ⟨dot, _, dotShape, dotKind, rfl⟩ := acceptSymbol_eq_true dotStep
          obtain ⟨name, _, nameTaken, result⟩ := bind_eq_ok_iff.mp afterDot
          obtain ⟨target, _, nameShape, named, rfl⟩ := expectName_eq_ok nameTaken
          simp only [pure_apply, EStateM.Result.ok.injEq,
            Option.some.injEq] at result nameShape
          obtain ⟨rfl, rfl⟩ := result
          rw [dotShape, nameShape] at derived
          exact ⟨.property derived dotKind named, fresh⟩
      | false =>
          simp [pure_apply] at afterDot

/-- A step that finds neither a call nor a property reads nothing. -/
theorem callOrProperty_declines
    {inner : Parser Expr}
    {reader final : Reader}
    {subject : Expr}
    (given : callOrProperty inner subject reader = .ok none final) :
    final = reader := by
  unfold callOrProperty at given
  obtain ⟨isCall, _, openingStep, afterOpening⟩ := bind_eq_ok_iff.mp given
  cases isCall with
  | true =>
      obtain ⟨arguments, _, -, afterArguments⟩ := bind_eq_ok_iff.mp afterOpening
      obtain ⟨line, _, -, result⟩ := bind_eq_ok_iff.mp afterArguments
      simp [pure_apply] at result
  | false =>
      obtain ⟨rfl, -⟩ := acceptSymbol_eq_false openingStep
      simp only [Bool.false_eq_true, ↓reduceIte] at afterOpening
      obtain ⟨isProperty, _, dotStep, afterDot⟩ := bind_eq_ok_iff.mp afterOpening
      cases isProperty with
      | true =>
          obtain ⟨name, _, -, result⟩ := bind_eq_ok_iff.mp afterDot
          simp [pure_apply] at result
      | false =>
          obtain ⟨rfl, -⟩ := acceptSymbol_eq_false dotStep
          simp only [Bool.false_eq_true, ↓reduceIte, pure_apply,
            EStateM.Result.ok.injEq, true_and] at afterDot
          exact afterDot.symm

/--
What every step of an extension keeps, and what a declining step leaves alone,
holds after the whole extension.
-/
theorem extend_keeps
    {α : Type}
    {step : α → Parser (Option α)}
    (invariant : α → Reader → Prop)
    (extends_ : ∀ {value reader longer final},
      invariant value reader →
        step value reader = .ok (some longer) final → invariant longer final)
    (declines : ∀ {value reader final},
      step value reader = .ok none final → final = reader)
    {fuel : Nat}
    {value result : α}
    {reader final : Reader}
    (holds : invariant value reader)
    (given : extend step fuel value reader = .ok result final) :
    invariant result final := by
  induction fuel generalizing value reader with
  | zero =>
      simp only [extend, pure_apply, EStateM.Result.ok.injEq] at given
      obtain ⟨rfl, rfl⟩ := given
      exact holds
  | succ fuel inductionHypothesis =>
      unfold extend at given
      obtain ⟨found, middle, taken, rest⟩ := bind_eq_ok_iff.mp given
      cases found with
      | some longer => exact inductionHypothesis (extends_ holds taken) rest
      | none =>
          simp only [pure_apply, EStateM.Result.ok.injEq] at rest
          obtain ⟨rfl, rfl⟩ := rest
          exact declines taken ▸ holds

/-- What reads a primary expression with its calls and properties is a call. -/
theorem callChain_reads
    {inner : Parser Expr}
    (nested : Reads inner .expression)
    (size : Nat) :
    Reads (callChain inner size) .call := by
  intro reader value final given
  obtain ⟨subject, _, subjectTaken, rest⟩ := bind_eq_ok_iff.mp given
  obtain ⟨derived, fresh⟩ := primary_reads nested subjectTaken
  exact extend_keeps (ParsesAs (Derives .call) Expr.ids reader)
    (callOrProperty_extends nested) callOrProperty_declines
    ⟨.uncalled derived, fresh⟩ rest

/-- What reads operators in front of an operand is a unary expression. -/
theorem unaryChain_reads
    {operand : Parser Expr}
    (reads : Reads operand .call)
    (size : Nat) :
    Reads (unaryChain operand size) .unary := by
  induction size with
  | zero =>
      intro reader value final given
      obtain ⟨derived, fresh⟩ := reads given
      exact ⟨.unsigned derived, fresh⟩
  | succ size inductionHypothesis =>
      intro reader value final given
      unfold unaryChain at given
      obtain ⟨found, middle, step, rest⟩ := bind_eq_ok_iff.mp given
      cases found with
      | none =>
          obtain ⟨rfl, -⟩ := next?_eq_none step
          obtain ⟨derived, fresh⟩ := reads rest
          exact ⟨.unsigned derived, fresh⟩
      | some apply =>
          obtain ⟨sign, tokens, shape, readable, rfl⟩ := next?_eq_some step
          obtain ⟨operator, signs, rfl⟩ := unary?_eq_some.mp readable
          obtain ⟨inside, _, insideTaken, result⟩ := bind_eq_ok_iff.mp rest
          simp only [pure_apply, EStateM.Result.ok.injEq] at result
          obtain ⟨rfl, rfl⟩ := result
          obtain ⟨derived, fresh⟩ := inductionHypothesis insideTaken
          exact ⟨by rw [shape]; exact .signed signs derived, fresh⟩

/-- What reads operands with the operators of a level between them is of that level. -/
theorem joinedChain_reads
    (level : Level)
    {operand : Parser Expr}
    (reads : Reads operand level.operand)
    (size : Nat) :
    Reads (joinedChain level.join? operand size) (.operation level) := by
  intro reader value final given
  obtain ⟨first, _, firstTaken, rest⟩ := bind_eq_ok_iff.mp given
  obtain ⟨derived, fresh⟩ := reads firstTaken
  refine extend_keeps
    (ParsesAs (Derives (.operation level)) Expr.ids reader)
    ?_ ?_ ⟨.operand derived, fresh⟩ rest
  · intro left middle longer after sofar taken
    obtain ⟨found, _, step, joining⟩ := bind_eq_ok_iff.mp taken
    cases found with
    | none => simp [pure_apply] at joining
    | some join =>
        obtain ⟨operator, tokens, shape, readable, rfl⟩ := next?_eq_some step
        obtain ⟨right, _, rightTaken, result⟩ := bind_eq_ok_iff.mp joining
        simp only [pure_apply, EStateM.Result.ok.injEq, Option.some.injEq] at result
        obtain ⟨rfl, rfl⟩ := result
        have joined := Level.joins_of_join? readable left right
        obtain ⟨rightDerived, rightFresh⟩ := reads rightTaken
        refine ⟨.joined (shape ▸ sofar.derived) joined rightDerived, ?_⟩
        rw [joined.ids]
        exact sofar.fresh.append rightFresh
  · intro left middle after taken
    obtain ⟨found, _, step, joining⟩ := bind_eq_ok_iff.mp taken
    cases found with
    | none =>
        obtain ⟨rfl, -⟩ := next?_eq_none step
        simp only [pure_apply, EStateM.Result.ok.injEq, true_and] at joining
        exact joining.symm
    | some join =>
        obtain ⟨right, _, -, result⟩ := bind_eq_ok_iff.mp joining
        simp [pure_apply] at result

/-- What reads an operation is one. -/
theorem operation_reads
    {inner : Parser Expr}
    (nested : Reads inner .expression)
    (size : Nat) :
    Reads (operation inner size) (.operation .disjunction) := by
  have factor : Reads (unaryChain (callChain inner size) size) .unary :=
    unaryChain_reads (callChain_reads nested size) size
  have product : Reads (product inner size) (.operation .product) :=
    joinedChain_reads .product factor size
  have sum : Reads (sum inner size) (.operation .sum) :=
    joinedChain_reads .sum product size
  have comparison : Reads (comparison inner size) (.operation .comparison) :=
    joinedChain_reads .comparison sum size
  have equality : Reads (equality inner size) (.operation .equality) :=
    joinedChain_reads .equality comparison size
  have conjunction : Reads (conjunction inner size) (.operation .conjunction) :=
    joinedChain_reads .conjunction equality size
  exact joinedChain_reads .disjunction conjunction size

/-! ## Assignments -/

/--
Where a tree comes from that may stand in front of an equals sign: a variable
from one identifier, a property from a call, a dot and a name.
-/
def IsTarget (before : List Token) (tree : Expr) (after : List Token) : Prop :=
  match tree with
  | .reference occurrence =>
      ∃ token, before = token :: after ∧ Names token occurrence.name
  | .property object name =>
      ∃ dot target,
        Derives .call before object (dot :: target :: after) ∧
          dot.kind = .symbol .dot ∧ Names target name
  | _ => True

/-- At any level, a tree comes from where an assignment wants its target. -/
theorem Derives.isTarget :
    ∀ {nonterminal before tree after},
      Derives nonterminal before tree after → IsTarget before tree after
  | _, _, _, _, .operation derived => derived.isTarget
  | _, _, _, _, .operand derived => derived.isTarget
  | _, _, _, _, .unsigned derived => derived.isTarget
  | _, _, _, _, .uncalled derived => derived.isTarget
  | _, _, _, _, .reference named => ⟨_, rfl, named⟩
  | _, _, _, _, .property derived dotKind named => ⟨_, _, derived, dotKind, named⟩
  | _, _, _, _, .joined _ joins _ => by cases joins <;> trivial
  | _, _, _, _, .assignment .. => trivial
  | _, _, _, _, .propertyAssignment .. => trivial
  | _, _, _, _, .signed .. => trivial
  | _, _, _, _, .emptyCall .. => trivial
  | _, _, _, _, .call .. => trivial
  | _, _, _, _, .literal .. => trivial
  | _, _, _, _, .this .. => trivial
  | _, _, _, _, .super .. => trivial
  | _, _, _, _, .grouping .. => trivial

/--
What reads an assignment or an operation is an expression: the target that was
read as an operation is one that the grammar allows.
-/
theorem assignment_reads
    {inner : Parser Expr}
    (nested : Reads inner .expression)
    (size : Nat) :
    Reads (assignment inner size) .expression := by
  intro reader result final given
  unfold assignment at given
  obtain ⟨target, _, targetTaken, afterTarget⟩ := bind_eq_ok_iff.mp given
  obtain ⟨derived, fresh⟩ := operation_reads nested size targetTaken
  obtain ⟨atEqual, _, kept, afterKept⟩ := bind_eq_ok_iff.mp afterTarget
  rw [get_apply, EStateM.Result.ok.injEq] at kept
  obtain ⟨rfl, rfl⟩ := kept
  obtain ⟨isAssignment, _, equalStep, afterEqual⟩ := bind_eq_ok_iff.mp afterKept
  cases isAssignment with
  | false =>
      obtain ⟨rfl, -⟩ := acceptSymbol_eq_false equalStep
      simp only [Bool.false_eq_true, ↓reduceIte, pure_apply,
        EStateM.Result.ok.injEq] at afterEqual
      obtain ⟨rfl, rfl⟩ := afterEqual
      exact ⟨.operation derived, fresh⟩
  | true =>
      obtain ⟨equals, tokens, equalShape, equalKind, rfl⟩ :=
        acceptSymbol_eq_true equalStep
      obtain ⟨value, _, valueTaken, assigned⟩ := bind_eq_ok_iff.mp afterEqual
      obtain ⟨valueDerived, valueFresh⟩ := nested valueTaken
      cases target with
      | reference occurrence =>
          obtain ⟨token, shape, named⟩ := derived.isTarget
          simp only [freshId, bind_apply, pure_apply,
            EStateM.Result.ok.injEq] at assigned
          obtain ⟨rfl, rfl⟩ := assigned
          refine ⟨by
            rw [shape, equalShape]
            exact .assignment named equalKind valueDerived, ?_⟩
          simpa [Expr.ids, Expr.occurrences] using
            (valueFresh.from_earlier fresh.ordered).append (.one _)
      | property object name =>
          obtain ⟨dot, token, objectDerived, dotKind, named⟩ := derived.isTarget
          simp only [pure_apply, EStateM.Result.ok.injEq] at assigned
          obtain ⟨rfl, rfl⟩ := assigned
          rw [equalShape] at objectDerived
          refine ⟨.propertyAssignment objectDerived dotKind named equalKind
            valueDerived, ?_⟩
          simpa [Expr.ids, Expr.occurrences] using fresh.append_swapped valueFresh
      | _ => simp [throw_apply] at assigned

theorem expressionWithin_reads (size : Nat) :
    Reads (expressionWithin size) .expression := by
  induction size with
  | zero =>
      intro reader value final given
      simp [expressionWithin, reject] at given
  | succ size inductionHypothesis =>
      exact assignment_reads inductionHypothesis (size + 1)

end Lox.Grammar
