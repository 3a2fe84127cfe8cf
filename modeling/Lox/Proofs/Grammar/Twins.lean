import Lox.Proofs.Grammar.Moves
import Lox.Proofs.Grammar.ProgramSound

namespace Lox.Grammar

/-!
# What a parser does not look at

A parser looks one token ahead, and it asks a parser nested in it only behind a token
that it has taken.  So it does not matter what stands behind the tokens that it leaves,
how a nested parser treats longer inputs, or how much more budget it has than there are
tokens.  All three are one statement on two parsers: the second one reads the same
tokens with more behind them and ends as the first one does.  With nothing behind, it
says that budgets are no more than a way to write the recursion down.
-/

namespace Reader

/-- A reader of the same tokens with more behind them. -/
def followedBy (reader : Reader) (tail : List Token) : Reader :=
  { reader with rest := reader.rest ++ tail }

/-- What stands behind is not seen: there is nothing, or tokens are left in front of it. -/
def Hides (reader : Reader) (tail : List Token) : Prop :=
  tail ≠ [] → reader.rest ≠ []

section

variable {reader before after : Reader} {tail : List Token}

@[simp]
theorem followedBy_rest : (reader.followedBy tail).rest = reader.rest ++ tail :=
  rfl

@[simp]
theorem followedBy_nil (reader : Reader) : reader.followedBy [] = reader := by
  simp [followedBy]

theorem hides_nil (reader : Reader) : reader.Hides [] :=
  fun different => absurd rfl different

/-- Where nothing is seen of what stands behind later, nothing was seen of it earlier. -/
theorem Hides.earlier (moves : Moves before after) (hides : after.Hides tail) :
    before.Hides tail := by
  intro present ended
  have suffix := (recedes_of_moves moves).rest
  rw [ended] at suffix
  exact hides present (List.suffix_nil.mp suffix)

/-- Where the tokens have ended, nothing is hidden behind them. -/
theorem Hides.absent (hides : reader.Hides tail) (ended : reader.rest = []) :
    tail = [] := by
  by_contra present
  exact hides present ended

/-- The first token is the same with more tokens behind. -/
theorem Hides.head? (hides : reader.Hides tail) :
    (reader.followedBy tail).rest.head? = reader.rest.head? := by
  cases shape : reader.rest with
  | cons token rest => simp [shape]
  | nil => simp [hides.absent shape, shape]

end

end Reader

/-- An error with more tokens behind the input. -/
def SyntaxError.followedBy (error : SyntaxError) (tail : List Token) : SyntaxError :=
  { error with remaining := error.remaining + tail.length }

/-- How a parser ends, with more tokens behind the input. -/
def followed (tail : List Token) :
    EStateM.Result SyntaxError Reader α → EStateM.Result SyntaxError Reader α
  | .ok value after => .ok value (after.followedBy tail)
  | .error error after => .error (SyntaxError.followedBy error tail) (after.followedBy tail)

@[simp]
theorem followed_nil
    (result : EStateM.Result SyntaxError Reader α) :
    followed [] result = result := by
  cases result <;> simp [followed, SyntaxError.followedBy]

/-- A fault at a token in front is reported where it was, with more tokens behind. -/
theorem Reader.Hides.report
    {reader : Reader}
    {tail : List Token}
    (hides : reader.Hides tail)
    (fault : SyntaxFault) :
    (reader.followedBy tail).report fault =
      SyntaxError.followedBy (reader.report fault) tail := by
  unfold Reader.report SyntaxError.followedBy
  rw [hides.head?]
  simp [Reader.followedBy]

/--
Unless the first parser looks at the end of the input, the second one ends as it does
on the same tokens with more behind them.
-/
def Follows (tail : List Token) (reader : Reader) (parser parser' : Parser α) : Prop :=
  (endState (parser reader)).Hides tail →
    parser' (reader.followedBy tail) = followed tail (parser reader)

/-- Parsers in a row.  What the second one leaves tells what the first one has seen. -/
theorem Follows.bind
    {α β : Type}
    {tail : List Token}
    {reader : Reader}
    {first first' : Parser α}
    {next next' : α → Parser β}
    (head : Follows tail reader first first')
    (moves : ∀ {value middle}, first reader = .ok value middle →
      Moves middle (endState (next value middle)))
    (rest : ∀ {value middle}, first reader = .ok value middle →
      Follows tail middle (next value) (next' value)) :
    Follows tail reader (first >>= next) (first' >>= next') := by
  intro hides
  unfold Follows at head
  rw [bind_apply] at hides ⊢
  rw [bind_apply]
  cases step : first reader with
  | error error middle =>
      rw [step] at head hides
      rw [head hides]
      rfl
  | ok value middle =>
      rw [step] at head hides
      rw [head (hides.earlier (moves step))]
      exact rest step hides

/--
Where less than a bound is left, the second parser follows the first one, which moves
forward.
-/
structure Twins
    (tail : List Token)
    (bound : Nat)
    (parser parser' : Parser α) : Prop where
  governed : forward.Governs parser
  same : ∀ reader, reader.rest.length < bound → Follows tail reader parser parser'

namespace Twins

section

variable {α β : Type} {tail : List Token} {bound size : Nat}

/-- What holds of every reader with so many tokens left holds of those with fewer. -/
theorem weaken
    {parser parser' : Parser α}
    (twins : Twins tail size parser parser')
    (fits : bound ≤ size) :
    Twins tail bound parser parser' where
  governed := twins.governed
  same reader short hides := twins.same reader (Nat.lt_of_lt_of_le short fits) hides

/-- No reader has less than nothing left. -/
theorem vacant
    {parser : Parser α}
    (governed : forward.Governs parser)
    (parser' : Parser α) :
    Twins tail 0 parser parser' where
  governed := governed
  same _ short _ := absurd short (Nat.not_lt_zero _)

theorem pure (value : α) : Twins tail bound (pure value) (pure value) where
  governed := .pure value
  same _ _ _ := rfl

/-- Parsers in a row, the second one where the first one has come to. -/
theorem chain
    {first first' : Parser α}
    {next next' : α → Parser β}
    (head : Twins tail bound first first')
    (governed : ∀ value, forward.Governs (next value))
    (rest : ∀ {value reader middle},
      reader.rest.length < bound →
        first reader = .ok value middle →
          Follows tail middle (next value) (next' value)) :
    Twins tail bound (first >>= next) (first' >>= next') where
  governed := head.governed.bind governed
  same reader short :=
    (head.same reader short).bind
      (fun _ => moves_endState (governed _) _)
      (rest short)

/-- Parsers in a row, with any value of the first one. -/
theorem bind
    {first first' : Parser α}
    {next next' : α → Parser β}
    (head : Twins tail bound first first')
    (rest : ∀ value, Twins tail bound (next value) (next' value)) :
    Twins tail bound (first >>= next) (first' >>= next') := by
  refine head.chain (fun value => (rest value).governed) ?_
  intro value reader middle short step
  have shorter := (recedes_of_moves ((head.governed reader).1 value middle step)).rest
  exact (rest value).same middle (Nat.lt_of_le_of_lt shorter.length_le short)

theorem map
    {parser parser' : Parser α}
    (twins : Twins tail bound parser parser')
    (convert : α → β) :
    Twins tail bound (convert <$> parser) (convert <$> parser') := by
  rw [map_eq_pure_bind, map_eq_pure_bind]
  exact twins.bind fun value => .pure (convert value)

theorem dropped
    {parser parser' : Parser α}
    (twins : Twins tail bound parser parser') :
    Twins tail bound (discard parser) (discard parser') :=
  twins.map _

/-- One of two parsers, on the same side in both readings. -/
theorem either
    {condition : Prop}
    [Decidable condition]
    {consequent consequent' alternative alternative' : Parser α}
    (first : Twins tail bound consequent consequent')
    (second : Twins tail bound alternative alternative') :
    Twins tail bound (if condition then consequent else alternative)
      (if condition then consequent' else alternative') := by
  split
  · exact first
  · exact second

/-! ## Steps -/

theorem reject (fault : SyntaxFault) :
    Twins tail bound (reject fault : Parser α) (reject fault) where
  governed := reject_governed forward fault
  same _ _ hides := congrArg (EStateM.Result.error · _) (hides.report fault)

/-- A token is taken in front of whatever stands behind. -/
theorem look (read : Token → Option α) :
    Twins tail bound (next? read) (next? read) where
  governed := next?_governed forward fun _ _ _ => trivial
  same reader _ hides := by
    have governed : forward.Governs (Grammar.next? read) :=
      next?_governed forward fun _ _ _ => trivial
    have hides : reader.Hides tail := hides.earlier (moves_endState governed reader)
    cases shape : reader.rest with
    | nil => simp [hides.absent shape, Grammar.next?, shape, followed]
    | cons token rest =>
        cases readable : read token <;>
          simp [Grammar.next?, shape, readable, followed, Reader.followedBy]

/-- Whatever is asked behind a token that has been taken has less left to read. -/
theorem next?
    {read : Token → Option α}
    {next next' : Option α → Parser β}
    (declined : Twins tail (bound + 1) (next none) (next' none))
    (taken : ∀ value, Twins tail bound (next (some value)) (next' (some value))) :
    Twins tail (bound + 1) (next? read >>= next) (next? read >>= next') := by
  refine (look read).chain ?governed ?rest
  case governed =>
    intro found
    cases found with
    | none => exact declined.governed
    | some value => exact (taken value).governed
  case rest =>
    intro found reader middle short step
    cases found with
    | none =>
        obtain ⟨rfl, -⟩ := next?_eq_none step
        exact declined.same _ short
    | some value =>
        obtain ⟨token, rest, shape, -, rfl⟩ := next?_eq_some step
        refine (taken value).same _ ?_
        simp only [shape, List.length_cons] at short
        exact Nat.lt_of_succ_lt_succ short

/-- A required token is taken in front of whatever stands behind. -/
theorem require (read : Token → Option α) (fault : SyntaxFault) :
    Twins tail bound (require read fault) (require read fault) := by
  have twins : Twins tail (bound + 1) (Grammar.require read fault)
      (Grammar.require read fault) :=
    .next? (.reject fault) fun value => .pure value
  exact twins.weaken (Nat.le_succ bound)

/-- A symbol is accepted in front of whatever stands behind. -/
theorem acceptSymbol (symbol : Symbol) :
    Twins tail bound (acceptSymbol symbol) (acceptSymbol symbol) := by
  have twins : Twins tail (bound + 1) (Grammar.acceptSymbol symbol)
      (Grammar.acceptSymbol symbol) :=
    .next? (.pure _) fun _ => .pure _
  exact twins.weaken (Nat.le_succ bound)

/-- What follows a symbol that was accepted has less left to read. -/
theorem accept
    {symbol : Symbol}
    {consequent consequent' alternative alternative' : Parser α}
    (taken : Twins tail bound consequent consequent')
    (declined : Twins tail (bound + 1) alternative alternative') :
    Twins tail (bound + 1)
      (do if ← Grammar.acceptSymbol symbol then consequent else alternative)
      (do if ← Grammar.acceptSymbol symbol then consequent' else alternative') := by
  unfold Grammar.acceptSymbol
  rw [bind_assoc, bind_assoc]
  refine .next? ?_ fun value => ?_
  · simpa using declined
  · simpa using taken

theorem expectSymbol (symbol : Symbol) (fault : SyntaxFault) :
    Twins tail bound (expectSymbol symbol fault) (expectSymbol symbol fault) :=
  .require _ fault

theorem expectName (fault : SyntaxFault) :
    Twins tail bound (expectName fault) (expectName fault) :=
  .require _ fault

/-- Whether a symbol is upcoming does not depend on what stands behind. -/
theorem upcoming (symbol : Symbol) :
    Twins tail bound (upcoming symbol) (upcoming symbol) where
  governed := upcoming_governed forward symbol
  same reader _ hides := by
    have hides : reader.Hides tail := hides
    simp only [Grammar.upcoming, hides.head?, followed]

/-- Whether the tokens have ended is the same where nothing stands behind them unseen. -/
theorem atEnd : Twins tail bound atEnd atEnd where
  governed := atEnd_governed forward
  same reader _ hides := by
    have hides : reader.Hides tail := hides
    have same : (reader.rest ++ tail).isEmpty = reader.rest.isEmpty := by
      rw [Bool.eq_iff_iff]
      simpa using hides.absent
    exact congrArg (EStateM.Result.ok · _) same

theorem freshId : Twins tail bound freshId freshId where
  governed := freshId_governed forward
  same _ _ _ := rfl

/-! ## Repetitions -/

/--
A step that extends a value until it declines.  It takes a token each time, so a budget
of as many times as tokens are left does not run out before the tokens do.
-/
theorem extend
    {step step' : α → Parser (Option α)}
    (twins : ∀ value, Twins tail bound (step value) (step' value))
    (shorter : ∀ {value reader longer after},
      step value reader = .ok (some longer) after →
        after.rest.length < reader.rest.length)
    (declines : ∀ value reader, reader.rest = [] → step value reader = .ok none reader)
    {fuel fuel' : Nat}
    (value : α)
    (fits : bound ≤ fuel + 1)
    (fits' : fuel + tail.length ≤ fuel') :
    Twins tail bound (extend step fuel value) (extend step' fuel' value) := by
  induction fuel generalizing bound fuel' value with
  | zero =>
      refine ⟨.pure value, fun reader short hides => ?_⟩
      have ended : reader.rest = [] := List.eq_nil_of_length_eq_zero (by omega)
      obtain rfl : tail = [] := Reader.Hides.absent hides ended
      have declined := (twins value).same reader short (Reader.hides_nil _)
      rw [declines value reader ended] at declined
      cases fuel' with
      | zero => rfl
      | succ fuel' => exact bind_of_ok declined _
  | succ fuel inductionHypothesis =>
      obtain ⟨fuel', rfl⟩ : ∃ less, fuel' = less + 1 := ⟨fuel' - 1, by omega⟩
      refine (twins value).chain ?governed ?rest
      case governed =>
        intro found
        cases found with
        | none => exact .pure value
        | some longer => exact extend_governed (fun value => (twins value).governed) _ _
      case rest =>
        intro found reader middle short given
        cases found with
        | none => exact fun _ => rfl
        | some longer =>
            have less := shorter given
            have rest : Twins tail (bound - 1) (Grammar.extend step fuel longer)
                (Grammar.extend step' fuel' longer) :=
              inductionHypothesis
                (fun value => (twins value).weaken (Nat.sub_le bound 1)) longer
                (by omega) (by omega)
            exact rest.same middle (by omega)

/-- Elements with commas between them, with the same room for more of them. -/
theorem separated
    {element element' : Parser α}
    (elements : Twins tail bound element element')
    (overflow : SyntaxFault) :
    ∀ room : Nat,
      Twins tail bound (separated element overflow room) (separated element' overflow room)
  | 0 => .reject overflow
  | room + 1 => by
      refine elements.bind fun first => (Twins.acceptSymbol _).bind fun _ => ?_
      refine .either ?_ (.pure _)
      exact (separated elements overflow room).bind fun _ => .pure _

/-- A list that may be empty, with the same room for elements. -/
theorem listed
    {element element' : Parser α}
    (elements : Twins tail bound element element')
    (overflow : SyntaxFault) :
    Twins tail bound (listed element overflow) (listed element' overflow) :=
  (Twins.upcoming _).bind fun _ => .either (.pure _) (.separated elements overflow _)

/-- Elements that take a token each, up to a closing brace or the end. -/
theorem untilBrace
    {element element' : Parser α}
    (elements : Twins tail bound element element')
    (shorter : ∀ {reader value after},
      element reader = .ok value after → after.rest.length < reader.rest.length)
    {fuel fuel' : Nat}
    (fits : bound ≤ fuel + 1)
    (fits' : fuel + tail.length ≤ fuel') :
    Twins tail bound (untilBrace element fuel) (untilBrace element' fuel') := by
  induction fuel generalizing bound fuel' with
  | zero =>
      refine ⟨.pure _, fun reader short hides => ?_⟩
      have ended : reader.rest = [] := List.eq_nil_of_length_eq_zero (by omega)
      obtain rfl : tail = [] := Reader.Hides.absent hides ended
      cases fuel' with
      | zero => rfl
      | succ fuel' =>
          simp [Grammar.untilBrace, Grammar.upcoming, Grammar.atEnd, bind_apply,
            pure_apply, ended, followed]
  | succ fuel inductionHypothesis =>
      obtain ⟨fuel', rfl⟩ : ∃ less, fuel' = less + 1 := ⟨fuel' - 1, by omega⟩
      refine (Twins.upcoming _).bind fun closing => Twins.atEnd.bind fun ended => ?_
      refine .either (.pure _) (elements.chain ?governed ?rest)
      case governed =>
        exact fun first => (untilBrace_governed elements.governed fuel).bind fun _ =>
          .pure _
      case rest =>
        intro first reader middle short given
        have less := shorter given
        have rest : Twins tail (bound - 1) (Grammar.untilBrace element fuel)
            (Grammar.untilBrace element' fuel') :=
          inductionHypothesis (elements.weaken (Nat.sub_le bound 1)) (by omega) (by omega)
        have joined : Twins tail (bound - 1)
            (do return first :: (← Grammar.untilBrace element fuel))
            (do return first :: (← Grammar.untilBrace element' fuel')) :=
          rest.bind fun _ => .pure _
        exact joined.same middle (by omega)

end

/-! ## Expressions -/

section

variable {tail : List Token} {bound size size' : Nat} {inner inner' : Parser Expr}

/-- A primary expression takes a token, so what is inside has less left to read. -/
theorem primary (nested : Twins tail bound inner inner') :
    Twins tail (bound + 1) (primary inner) (primary inner') := by
  refine .next? (.reject _) fun start => ?_
  cases start with
  | literal _ => exact .pure _
  | name _ => exact freshId.bind fun _ => .pure _
  | this _ => exact freshId.bind fun _ => .pure _
  | super _ =>
      refine (Twins.expectSymbol _ _).dropped.bind fun _ => ?_
      refine (Twins.expectName _).bind fun _ => ?_
      exact freshId.bind fun _ => .pure _
  | group =>
      refine nested.bind fun _ => ?_
      exact (Twins.expectSymbol _ _).dropped.bind fun _ => .pure _

/-- A call or a property takes a token, so what is inside has less left to read. -/
theorem callOrProperty (nested : Twins tail bound inner inner') (subject : Expr) :
    Twins tail (bound + 1) (callOrProperty inner subject)
      (callOrProperty inner' subject) := by
  refine .accept ?_ (.accept ?_ (.pure _))
  · refine (Twins.listed nested _).bind fun _ => ?_
    exact (Twins.expectSymbol _ _).bind fun _ => .pure _
  · exact (Twins.expectName _).bind fun _ => .pure _

/-- Calls and properties in a row, with budgets that cover the tokens left. -/
theorem callChain
    (nested : Twins tail bound inner inner')
    (fits : bound ≤ size)
    (fits' : size + tail.length ≤ size') :
    Twins tail (bound + 1) (callChain inner size) (callChain inner' size') := by
  refine (Twins.primary nested).bind fun subject => ?_
  exact .extend (Twins.callOrProperty nested) (callOrProperty_shorter nested.governed)
    (fun value _ ended => callOrProperty_ended ended inner value) subject
    (Nat.succ_le_succ fits) fits'

/-- Operators in front take a token each, so they do not use up the budget either. -/
theorem unaryChain
    {operand operand' : Parser Expr}
    (operands : Twins tail (bound + 1) operand operand')
    (fits : bound ≤ size)
    (fits' : size + tail.length ≤ size') :
    Twins tail (bound + 1) (unaryChain operand size) (unaryChain operand' size') := by
  induction size generalizing bound size' with
  | zero =>
      refine ⟨operands.governed, fun reader short hides => ?_⟩
      have ended : reader.rest = [] := List.eq_nil_of_length_eq_zero (by omega)
      have final : (endState (operand reader)).Hides tail := hides
      obtain rfl : tail = [] :=
        (final.earlier (moves_endState operands.governed reader)).absent ended
      have same := operands.same reader short hides
      rw [Reader.followedBy_nil] at same ⊢
      cases size' with
      | zero => exact same
      | succ size' =>
          unfold Grammar.unaryChain
          rw [bind_of_ok (next?_ended ended _)]
          exact same
  | succ size inductionHypothesis =>
      obtain ⟨size', rfl⟩ : ∃ less, size' = less + 1 := ⟨size' - 1, by omega⟩
      refine .next? operands fun apply => ?_
      cases bound with
      | zero =>
          exact .vacant ((unaryChain_governed operands.governed size).bind fun _ =>
            .pure _) _
      | succ bound =>
          have rest := inductionHypothesis (operands.weaken (Nat.le_succ _))
            (Nat.le_of_succ_le_succ fits) (by omega : size + tail.length ≤ size')
          exact rest.bind fun _ => .pure _

/-- Operands with operators between them, with budgets that cover the tokens left. -/
theorem joinedChain
    {join? : Token → Option Join}
    {operand operand' : Parser Expr}
    (operands : Twins tail bound operand operand')
    (fits : bound ≤ size + 1)
    (fits' : size + tail.length ≤ size') :
    Twins tail bound (joinedChain join? operand size) (joinedChain join? operand' size') := by
  refine operands.bind fun first => ?_
  refine .extend (fun left => ?_) (joinedNext_shorter operands.governed)
    (fun left _ ended => joinedNext_ended ended join? operand left) first fits fits'
  refine (look join?).bind fun found => ?_
  cases found with
  | none => exact .pure _
  | some join => exact operands.bind fun _ => .pure _

/-- Operators of all levels, with budgets that cover the tokens left. -/
theorem operation
    (nested : Twins tail bound inner inner')
    (fits : bound ≤ size)
    (fits' : size + tail.length ≤ size') :
    Twins tail (bound + 1) (operation inner size) (operation inner' size') := by
  have more := Nat.succ_le_succ fits
  refine .joinedChain ?_ more fits'
  refine .joinedChain ?_ more fits'
  refine .joinedChain ?_ more fits'
  refine .joinedChain ?_ more fits'
  refine .joinedChain ?_ more fits'
  refine .joinedChain ?_ more fits'
  exact .unaryChain (.callChain nested fits fits') fits fits'

/-- A target that is none is reported where it was, in front of the same tokens. -/
theorem assigned
    {place : Reader}
    (hides : place.Hides tail)
    (target value : Expr)
    (reader : Reader) :
    Follows tail reader (assigned place target value)
      (assigned (place.followedBy tail) target value) := by
  intro _
  cases target with
  | reference _ => rfl
  | property _ _ => rfl
  | _ => exact congrArg (EStateM.Result.error · _) (hides.report _)

/-- An assignment to what stood at a place takes no token. -/
theorem moves_assigned (place reader : Reader) (target value : Expr) :
    Moves reader (endState (Grammar.assigned place target value reader)) := by
  cases target with
  | reference _ => exact .single (.identity reader)
  | _ => exact .refl

/-- What follows the target of an assignment is read alike. -/
theorem assignmentTo (nested : Twins tail bound inner inner') (target : Expr) :
    Twins tail (bound + 1) (assignmentTo inner target) (assignmentTo inner' target) where
  governed := assignmentTo_governed nested.governed target
  same place short hides := by
    have governed := assignmentTo_governed nested.governed target
    have before : place.Hides tail := hides.earlier (moves_endState governed place)
    have accepted : Twins tail (bound + 1) (Grammar.acceptSymbol .equal)
        (Grammar.acceptSymbol .equal) :=
      .acceptSymbol .equal
    refine (accepted.same place short).bind ?moves ?rest hides
    case moves =>
      intro found middle _
      cases found with
      | false => exact .refl
      | true =>
          simp only [↓reduceIte]
          rw [bind_apply]
          have moves := moves_endState nested.governed middle
          cases step : inner middle with
          | error error after =>
              rw [step] at moves
              exact moves
          | ok value after =>
              rw [step] at moves
              exact moves.trans (moves_assigned place after _ _)
    case rest =>
      intro found middle opening
      cases found with
      | false => exact fun _ => rfl
      | true =>
          obtain ⟨token, rest, shape, -, rfl⟩ := acceptSymbol_eq_true opening
          have less : rest.length < bound := by
            simp only [shape, List.length_cons] at short
            omega
          refine (nested.same { place with rest := rest } less).bind ?_ ?_
          · exact fun _ => moves_assigned place _ _ _
          · exact fun _ => assigned before target _ _

/-- An assignment is read alike with every budget that covers the tokens left. -/
theorem assignment
    (nested : Twins tail bound inner inner')
    (fits : bound ≤ size)
    (fits' : size + tail.length ≤ size') :
    Twins tail (bound + 1) (assignment inner size) (assignment inner' size') := by
  rw [assignment_eq, assignment_eq]
  exact (Twins.operation nested fits fits').bind fun target =>
    .assignmentTo nested target

end

end Twins

/-- Budgets do not matter where nothing is left. -/
theorem Twins.ended
    {α : Type}
    (tail : List Token)
    {parser parser' : Parser α}
    (governed : forward.Governs parser)
    {fault : SyntaxFault}
    (fails : ∀ {reader : Reader}, reader.rest = [] →
      parser reader = .error (reader.report fault) reader)
    (fails' : ∀ {reader : Reader}, reader.rest = [] →
      parser' reader = .error (reader.report fault) reader) :
    Twins tail 1 parser parser' where
  governed := governed
  same reader short hides := by
    have ended : reader.rest = [] := List.eq_nil_of_length_eq_zero (by omega)
    rw [fails ended] at hides ⊢
    obtain rfl : tail = [] := Reader.Hides.absent hides ended
    rw [Reader.followedBy_nil, fails' ended, followed_nil]

section

variable (tail : List Token)

/-- Expressions are read alike with every budget that covers the tokens left. -/
theorem expressionWithin_twins :
    ∀ {size size' : Nat}, size + tail.length ≤ size' →
      Twins tail (size + 1) (expressionWithin size) (expressionWithin size')
  | 0, size', _ =>
      .ended tail (expressionWithin_forward 0) (fun ended => expressionWithin_ended ended 0)
        (fun ended => expressionWithin_ended ended size')
  | size + 1, size', fits => by
      obtain ⟨size', rfl⟩ : ∃ less, size' = less + 1 := ⟨size' - 1, by omega⟩
      have nested := expressionWithin_twins (by omega : size + tail.length ≤ size')
      exact .assignment nested (Nat.le_refl _) fits

end

namespace Twins

section

variable {tail : List Token} {bound size size' : Nat}

variable (fits : bound ≤ size) (fits' : size + tail.length ≤ size')

include fits fits'

/-- Expressions inside of statements, with the budgets of these statements. -/
theorem expressionWithin :
    Twins tail (bound + 1) (expressionWithin size) (expressionWithin size') :=
  (expressionWithin_twins tail fits').weaken (Nat.succ_le_succ fits)

/-- An expression that may be left out, in front of the symbol that follows it. -/
theorem optionalExpression (following : Symbol) :
    Twins tail (bound + 1) (optionalExpression size following)
      (optionalExpression size' following) :=
  (Twins.upcoming following).bind fun _ =>
    .either (.pure _) ((Twins.expressionWithin fits fits').map _)

/-! ## Statements and declarations -/

theorem expressionStatement :
    Twins tail (bound + 1) (expressionStatement size) (expressionStatement size') :=
  (Twins.expressionWithin fits fits').bind fun _ =>
    (Twins.expectSymbol _ _).dropped.bind fun _ => .pure _

/-- A condition in parentheses is read alike. -/
theorem parenthesized (opening closing : SyntaxFault) :
    Twins tail (bound + 1) (parenthesized size opening closing)
      (parenthesized size' opening closing) := by
  refine (Twins.expectSymbol _ _).dropped.bind fun _ => ?_
  refine (Twins.expressionWithin fits fits').bind fun _ => ?_
  exact (Twins.expectSymbol _ _).dropped.bind fun _ => .pure _

/-- A variable declaration is read alike behind its keyword. -/
theorem varAfter : Twins tail (bound + 1) (varAfter size) (varAfter size') := by
  refine (Twins.expectName _).bind fun name => (Twins.acceptSymbol _).bind fun _ => ?_
  have ending : ∀ initializer : Option Expr,
      Twins tail (bound + 1)
        (do
          discard (Grammar.expectSymbol .semicolon .declarationEndExpected)
          return Stmt.varDeclaration name initializer)
        (do
          discard (Grammar.expectSymbol .semicolon .declarationEndExpected)
          return Stmt.varDeclaration name initializer) :=
    fun _ => (Twins.expectSymbol _ _).dropped.bind fun _ => .pure _
  refine .either ?_ (ending _)
  exact ((Twins.expressionWithin fits fits').map _).bind fun _ => ending _

/-- The first clause of a `for` loop is read alike. -/
theorem forInitializer :
    Twins tail (bound + 1) (forInitializer size) (forInitializer size') := by
  refine (Twins.acceptSymbol _).bind fun _ => .either (.pure _) ?_
  refine (look _).bind fun _ => .either ?_ ?_
  · exact (Twins.varAfter fits fits').map _
  · exact (Twins.expressionStatement fits fits').map _

omit fits fits'

theorem superclassClause :
    Twins tail bound superclassClause superclassClause := by
  refine (Twins.acceptSymbol _).bind fun _ => .either ?_ (.pure _)
  exact (Twins.expectName _).bind fun _ => freshId.bind fun _ => .pure _

end

section

variable {tail : List Token} {bound size size' : Nat}

variable {statement statement' declaration declaration' : Parser Stmt}

variable (statements : Twins tail bound statement statement')

variable (declarations : Twins tail bound declaration declaration')

variable (reads : ReadsAs declaration DerivesDeclaration Stmt.ids)

variable (fits : bound ≤ size) (fits' : size + tail.length ≤ size')

include declarations reads fits fits' in
/-- The declarations of a block are read alike. -/
theorem blockBody :
    Twins tail bound (blockBody declaration size) (blockBody declaration' size') := by
  have shorter : ∀ {reader value after},
      declaration reader = .ok value after → after.rest.length < reader.rest.length :=
    fun given => (reads given).1.shorter
  refine (Twins.untilBrace declarations shorter (Nat.le_succ_of_le fits) fits').bind
    fun _ => ?_
  exact (Twins.expectSymbol _ _).dropped.bind fun _ => .pure _

include declarations reads fits fits' in
/-- A function is read alike, up to the end of its body. -/
theorem functionAfter (role : FunctionRole) :
    Twins tail bound (functionAfter role declaration size)
      (functionAfter role declaration' size') := by
  refine (Twins.expectName _).bind fun _ => ?_
  refine (Twins.expectSymbol _ _).dropped.bind fun _ => ?_
  refine (Twins.listed (Twins.expectName _) _).bind fun _ => ?_
  refine (Twins.expectSymbol _ _).dropped.bind fun _ => ?_
  refine (Twins.expectSymbol _ _).dropped.bind fun _ => ?_
  exact (Twins.blockBody declarations reads fits fits').bind fun _ => .pure _

include declarations reads fits fits' in
/-- A class is read alike, with all of its methods. -/
theorem classAfter :
    Twins tail bound (classAfter declaration size) (classAfter declaration' size') := by
  have shorter : ∀ {reader value after},
      Grammar.functionAfter .method declaration size reader = .ok value after →
        after.rest.length < reader.rest.length :=
    fun given => (functionAfter_reads reads _ _ given).1.shorter
  refine (Twins.expectName _).bind fun _ => Twins.superclassClause.bind fun _ => ?_
  refine (Twins.expectSymbol _ _).dropped.bind fun _ => ?_
  refine (Twins.untilBrace (Twins.functionAfter declarations reads fits fits' _) shorter
    (Nat.le_succ_of_le fits) fits').bind fun _ => ?_
  exact (Twins.expectSymbol _ _).dropped.bind fun _ => .pure _

include statements fits fits' in
/-- A `for` loop is read alike behind its keyword. -/
theorem forAfter :
    Twins tail bound (forAfter statement size) (forAfter statement' size') := by
  have less := Nat.le_succ bound
  refine (Twins.expectSymbol _ _).dropped.bind fun _ => ?_
  refine ((Twins.forInitializer fits fits').weaken less).bind fun _ => ?_
  refine ((Twins.optionalExpression fits fits' _).weaken less).bind fun _ => ?_
  refine (Twins.expectSymbol _ _).dropped.bind fun _ => ?_
  refine ((Twins.optionalExpression fits fits' _).weaken less).bind fun _ => ?_
  refine (Twins.expectSymbol _ _).dropped.bind fun _ => ?_
  exact statements.bind fun _ => .pure _

include statements fits fits' in
theorem branchAfter :
    Twins tail bound (branchAfter statement size) (branchAfter statement' size') := by
  refine ((Twins.parenthesized fits fits' _ _).weaken (Nat.le_succ bound)).bind
    fun _ => ?_
  refine statements.bind fun _ => (look _).bind fun _ => .either ?_ (.pure _)
  exact (statements.map _).bind fun _ => .pure _

include statements declarations reads fits fits' in
/-- A statement is read alike behind the token that starts it. -/
theorem statementAfter (start : StatementStart) :
    Twins tail bound (statementAfter statement declaration size start)
      (statementAfter statement' declaration' size' start) := by
  have less := Nat.le_succ bound
  cases start with
  | forLoop => exact .forAfter statements fits fits'
  | branch => exact .branchAfter statements fits fits'
  | print =>
      refine ((Twins.expressionWithin fits fits').weaken less).bind fun _ => ?_
      exact (Twins.expectSymbol _ _).dropped.bind fun _ => .pure _
  | returnValue _ =>
      refine ((Twins.optionalExpression fits fits' _).weaken less).bind fun _ => ?_
      exact (Twins.expectSymbol _ _).dropped.bind fun _ => .pure _
  | loop =>
      refine ((Twins.parenthesized fits fits' _ _).weaken less).bind fun _ => ?_
      exact statements.bind fun _ => .pure _
  | block => exact (Twins.blockBody declarations reads fits fits').map _

include statements declarations reads fits fits' in
theorem anyStatement :
    Twins tail (bound + 1) (anyStatement statement declaration size)
      (anyStatement statement' declaration' size') :=
  .next? (.expressionStatement fits fits')
    (.statementAfter statements declarations reads fits fits')

include declarations reads fits fits' in
/-- A declaration is read alike behind the token that starts it. -/
theorem declarationAfter (start : DeclarationStart) :
    Twins tail bound (declarationAfter declaration size start)
      (declarationAfter declaration' size' start) := by
  cases start with
  | classDeclaration => exact .classAfter declarations reads fits fits'
  | functionDeclaration =>
      exact (Twins.functionAfter declarations reads fits fits' _).map _
  | varDeclaration => exact (Twins.varAfter fits fits').weaken (Nat.le_succ bound)

include statements declarations reads fits fits' in
theorem anyDeclaration :
    Twins tail (bound + 1) (anyDeclaration statement declaration size)
      (anyDeclaration statement' declaration' size') :=
  .next? (.anyStatement statements declarations reads fits fits')
    (.declarationAfter declarations reads fits fits')

end

end Twins

/-- A parser that agrees with another one where less than a bound is left. -/
theorem Twins.of_agrees
    {α : Type}
    {bound : Nat}
    {parser parser' : Parser α}
    (governed : forward.Governs parser)
    (agrees : ∀ reader : Reader, reader.rest.length < bound →
      parser' reader = parser reader) :
    Twins [] bound parser parser' where
  governed := governed
  same reader short _ := by
    rw [Reader.followedBy_nil, followed_nil, agrees reader short]

/-- With nothing behind the input, twins end alike. -/
theorem Twins.eq
    {α : Type}
    {bound : Nat}
    {parser parser' : Parser α}
    (twins : Twins [] bound parser parser')
    {reader : Reader}
    (short : reader.rest.length < bound) :
    parser' reader = parser reader := by
  have same := twins.same reader short (Reader.hides_nil _)
  simpa using same

/-- Statements and declarations are read alike with every budget that covers the tokens. -/
theorem within_twins (tail : List Token) :
    ∀ {size size' : Nat}, size + tail.length ≤ size' →
      Twins tail (size + 1) (statementWithin size) (statementWithin size') ∧
        Twins tail (size + 1) (declarationWithin size) (declarationWithin size')
  | 0, size', _ =>
      ⟨.ended tail (statementWithin_forward 0) (fun ended => statementWithin_ended ended 0)
          (fun ended => statementWithin_ended ended size'),
        .ended tail (declarationWithin_forward 0)
          (fun ended => declarationWithin_ended ended 0)
          (fun ended => declarationWithin_ended ended size')⟩
  | size + 1, size', fits => by
      obtain ⟨size', rfl⟩ : ∃ less, size' = less + 1 := ⟨size' - 1, by omega⟩
      obtain ⟨statements, declarations⟩ :=
        within_twins tail (by omega : size + tail.length ≤ size')
      have reads := (within_reads size).2
      exact ⟨.anyStatement statements declarations reads (Nat.le_refl _) fits,
        .anyDeclaration statements declarations reads (Nat.le_refl _) fits⟩

end Lox.Grammar
