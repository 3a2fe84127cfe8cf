import Lox.Proofs.Grammar.Reading
import Lox.Proofs.Grammar.Steadiness
import Mathlib.Logic.Relation

namespace Lox.Grammar

/-!
# Parsers move forward

All that a parser does to its reader is to take the next token and to hand out the next
identity, step by step.  So however it ends, what is left is the end of what was left
before, no identity is handed out twice, and an error names a token at which the parser
has been.
-/

/-- A single step: the next token is taken, or the next identity is handed out. -/
inductive Step : Reader → Reader → Prop where
  | token {reader : Reader} {token : Token} {rest : List Token}
      (shape : reader.rest = token :: rest) :
      Step reader { reader with rest := rest }
  | identity (reader : Reader) :
      Step reader { reader with nextId := reader.nextId + 1 }

/-- What a parser can come to step by step. -/
abbrev Moves : Reader → Reader → Prop :=
  Relation.ReflTransGen Step

/-- What steps have in common: tokens go from the front only, identities only go up. -/
structure Recedes (before after : Reader) : Prop where
  rest : after.rest <:+ before.rest
  endLine : after.endLine = before.endLine
  nextId : before.nextId ≤ after.nextId

/-- An error at a token that a parser has come to on its way between two readers. -/
def ReportedBetween (before : Reader) (error : SyntaxError) (after : Reader) : Prop :=
  ∃ place, Moves before place ∧ Moves place after ∧ error = place.report error.fault

section

variable {before middle after : Reader}

/-- A step takes back neither a token nor an identity. -/
theorem Step.recedes (step : Step before after) : Recedes before after := by
  cases step with
  | @token token rest shape =>
      exact ⟨shape ▸ List.suffix_cons token rest, rfl, Nat.le_refl _⟩
  | identity => exact ⟨List.suffix_refl _, rfl, Nat.le_succ _⟩

theorem Recedes.trans (first : Recedes before middle) (second : Recedes middle after) :
    Recedes before after where
  rest := second.rest.trans first.rest
  endLine := second.endLine.trans first.endLine
  nextId := Nat.le_trans first.nextId second.nextId

/-- However a reader moves, it takes back neither tokens nor identities. -/
theorem recedes_of_moves (moves : Moves before after) : Recedes before after := by
  induction moves with
  | refl => exact ⟨List.suffix_refl _, rfl, Nat.le_refl _⟩
  | tail _ step inductionHypothesis => exact inductionHypothesis.trans step.recedes

/-- Tokens can be dropped one by one. -/
theorem moves_of_suffix
    {reader : Reader}
    {rest : List Token}
    (suffix : rest <:+ reader.rest) :
    Moves reader { reader with rest := rest } := by
  obtain ⟨dropped, shape⟩ := suffix
  induction dropped generalizing reader with
  | nil =>
      obtain rfl : rest = reader.rest := shape
      exact .refl
  | cons token others inductionHypothesis =>
      have first := Step.token shape.symm
      exact .head first (inductionHypothesis rfl)

/-- What is reported later is reported between the earlier reader and the later one. -/
theorem ReportedBetween.earlier
    {error : SyntaxError}
    (moves : Moves before middle)
    (reported : ReportedBetween middle error after) :
    ReportedBetween before error after := by
  obtain ⟨place, first, rest, same⟩ := reported
  exact ⟨place, moves.trans first, rest, same⟩

/-- What is reported earlier is reported between the earlier reader and the later one. -/
theorem ReportedBetween.later
    {error : SyntaxError}
    (reported : ReportedBetween before error middle)
    (moves : Moves middle after) :
    ReportedBetween before error after := by
  obtain ⟨place, first, rest, same⟩ := reported
  exact ⟨place, first, rest.trans moves, same⟩

/-- Between two readers with a report, the reader has moved. -/
theorem ReportedBetween.moves
    {error : SyntaxError}
    (reported : ReportedBetween before error after) :
    Moves before after := by
  obtain ⟨place, first, rest, -⟩ := reported
  exact first.trans rest

/-- An error is reported at what was left before, or at what is left after, or between. -/
theorem ReportedBetween.bounds
    {error : SyntaxError}
    (reported : ReportedBetween before error after) :
    after.rest.length ≤ error.remaining ∧ error.remaining ≤ before.rest.length := by
  obtain ⟨place, first, rest, same⟩ := reported
  rw [same]
  exact ⟨(recedes_of_moves rest).rest.length_le, (recedes_of_moves first).rest.length_le⟩

end

/-- The discipline of moving forward step by step. -/
def forward : Discipline where
  kept := Moves
  reported := ReportedBetween
  takes _ := True
  spares _ _ := trivial
  refl _ := .refl
  trans first second := first.trans second
  late := ReportedBetween.earlier
  token shape _ := .single (.token shape)
  identity reader := .single (.identity reader)
  fault {reader _} _ moves := ⟨reader, .refl, moves, rfl⟩

/-- Reading an expression only moves forward. -/
theorem expressionWithin_forward (size : Nat) :
    forward.Governs (expressionWithin size) :=
  expressionWithin_governed forward size

theorem statementWithin_forward (size : Nat) : forward.Governs (statementWithin size) :=
  (within_governed forward (fun _ => trivial) size).1

theorem declarationWithin_forward (size : Nat) :
    forward.Governs (declarationWithin size) :=
  (within_governed forward (fun _ => trivial) size).2

/-- Reading a whole expression only moves forward. -/
theorem wholeExpression_forward : forward.Governs wholeExpression := by
  have whole : forward.Governs expression := fun reader =>
    expressionWithin_forward reader.rest.length reader
  refine whole.bind fun _ => (atEnd_governed forward).bind fun _ => .either (.pure _) ?_
  exact reject_governed forward _

/-- Wherever a parser ends, it has moved there. -/
theorem moves_endState {parser : Parser α} (governed : forward.Governs parser)
    (reader : Reader) :
    Moves reader (endState (parser reader)) := by
  cases step : parser reader with
  | ok value after => exact (governed reader).1 value after step
  | error error after => exact ((governed reader).2 error after step).moves

/-! ## Going on after an error -/

/-- Resuming drops tokens from the front. -/
theorem resumeAfter_suffix (dropped : Token) (tokens : List Token) :
    resumeAfter dropped tokens <:+ tokens := by
  induction tokens generalizing dropped with
  | nil => exact List.suffix_refl _
  | cons token rest inductionHypothesis =>
      unfold resumeAfter
      split
      · exact List.suffix_refl _
      · exact (inductionHypothesis token).trans (List.suffix_cons token rest)

/-- Of tokens that are left after an error, one at least is dropped. -/
theorem resynchronize_suffix : ∀ tokens, resynchronize tokens <:+ tokens.tail
  | [] => List.suffix_refl _
  | token :: rest => resumeAfter_suffix token rest

/-- Tokens are only dropped to go on behind an error. -/
theorem moves_resynchronize (reader : Reader) :
    Moves reader { reader with rest := resynchronize reader.rest } :=
  moves_of_suffix ((resynchronize_suffix reader.rest).trans (List.tail_suffix _))

/-! ## Steps that extend a value -/

section

variable {reader after : Reader} {longer : Expr}

/-- What follows a token that has been taken leaves fewer tokens than there were. -/
theorem shorter_of_moves
    {token : Token}
    {rest : List Token}
    (shape : reader.rest = token :: rest)
    (moves : Moves { reader with rest := rest } after) :
    after.rest.length < reader.rest.length := by
  have later := (recedes_of_moves moves).rest.length_le
  rw [shape]
  exact Nat.lt_succ_of_le later

/-- An operator that joins takes a token. -/
theorem joinedNext_shorter
    {join? : Token → Option Join}
    {operand : Parser Expr}
    (governed : forward.Governs operand)
    {left : Expr}
    (given : joinedNext join? operand left reader = .ok (some longer) after) :
    after.rest.length < reader.rest.length := by
  unfold joinedNext at given
  obtain ⟨found, middle, step, finished⟩ := bind_eq_ok_iff.mp given
  cases found with
  | none => simp [pure_apply] at finished
  | some join =>
      obtain ⟨token, rest, shape, -, rfl⟩ := next?_eq_some step
      have tail : forward.Governs (do return some (join left (← operand))) :=
        governed.bind fun _ => .pure _
      exact shorter_of_moves shape ((tail _).1 _ _ finished)

/-- A call takes a token, and so does a property. -/
theorem callOrProperty_shorter
    {inner : Parser Expr}
    (nested : forward.Governs inner)
    {subject : Expr}
    (given : callOrProperty inner subject reader = .ok (some longer) after) :
    after.rest.length < reader.rest.length := by
  unfold callOrProperty at given
  obtain ⟨isCall, middle, opening, finished⟩ := bind_eq_ok_iff.mp given
  cases isCall with
  | true =>
      obtain ⟨token, rest, shape, -, rfl⟩ := acceptSymbol_eq_true opening
      have tail : forward.Governs (do
          let arguments ← listed inner .tooManyArguments
          let line ← expectSymbol .rightParen .closingArgumentsExpected
          return some (Expr.call subject arguments line)) := by
        refine (listed_governed nested _).bind fun _ => ?_
        exact (expectSymbol_governed forward (forward.spare (by decide)) _).bind
          fun _ => .pure _
      exact shorter_of_moves shape ((tail _).1 _ _ finished)
  | false =>
      obtain ⟨rfl, -⟩ := acceptSymbol_eq_false opening
      obtain ⟨isProperty, middle, dot, finished⟩ := bind_eq_ok_iff.mp finished
      cases isProperty with
      | false => simp [pure_apply] at finished
      | true =>
          obtain ⟨token, rest, shape, -, rfl⟩ := acceptSymbol_eq_true dot
          have tail : forward.Governs (do
              let name ← expectName .propertyNameExpected
              return some (Expr.property subject name)) :=
            (expectName_governed forward _).bind fun _ => .pure _
          exact shorter_of_moves shape ((tail _).1 _ _ finished)

end

/-! ## At the end of the input -/

section

variable {α : Type} {reader : Reader} (ended : reader.rest = [])

include ended

theorem next?_ended (read : Token → Option α) :
    next? read reader = .ok none reader :=
  next?_declines (by simp [ended])

theorem acceptSymbol_ended (symbol : Symbol) :
    acceptSymbol symbol reader = .ok false reader :=
  acceptSymbol_declines (ended ▸ lacks_nil _)

/-- No operator joins anything to an expression that the input ends with. -/
theorem joinedNext_ended
    (join? : Token → Option Join)
    (operand : Parser Expr)
    (left : Expr) :
    joinedNext join? operand left reader = .ok none reader := by
  unfold joinedNext
  rw [bind_of_ok (next?_ended ended join?)]
  rfl

/-- Nothing is called, and no property is read, of what the input ends with. -/
theorem callOrProperty_ended (inner : Parser Expr) (subject : Expr) :
    callOrProperty inner subject reader = .ok none reader := by
  unfold callOrProperty
  rw [bind_of_ok (acceptSymbol_ended ended .leftParen)]
  simp only [Bool.false_eq_true, ↓reduceIte]
  rw [bind_of_ok (acceptSymbol_ended ended .dot)]
  rfl

/-- At the end, operators in front fail as their operand does. -/
theorem unaryChain_ended
    {operand : Parser Expr}
    {error : SyntaxError}
    (fails : operand reader = .error error reader) :
    ∀ size : Nat, unaryChain operand size reader = .error error reader
  | 0 => fails
  | size + 1 => by
      unfold unaryChain
      rw [bind_of_ok (next?_ended ended unary?)]
      exact fails

/-- There is no expression at the end of the input. -/
theorem operation_ended (inner : Parser Expr) (size : Nat) :
    operation inner size reader =
      .error (reader.report .expressionExpected) reader := by
  have primary : primary inner reader = .error (reader.report .expressionExpected) reader :=
    bind_of_ok (next?_ended ended primaryStart?) _
  have factor : unaryChain (callChain inner size) size reader = _ :=
    unaryChain_ended ended (bind_of_error primary _) size
  have product : product inner size reader = _ := bind_of_error factor _
  have sum : sum inner size reader = _ := bind_of_error product _
  have comparison : comparison inner size reader = _ := bind_of_error sum _
  have equality : equality inner size reader = _ := bind_of_error comparison _
  have conjunction : conjunction inner size reader = _ := bind_of_error equality _
  exact bind_of_error conjunction _

/-- At the end, there is no expression, with any budget. -/
theorem expressionWithin_ended :
    ∀ size : Nat, expressionWithin size reader =
      .error (reader.report .expressionExpected) reader
  | 0 => rfl
  | _ + 1 => bind_of_error (operation_ended ended _ _) _

/-- There is no statement either, and no declaration. -/
theorem anyStatement_ended (statement declaration : Parser Stmt) (size : Nat) :
    anyStatement statement declaration size reader =
      .error (reader.report .expressionExpected) reader := by
  unfold anyStatement
  rw [bind_of_ok (next?_ended ended statementStart?)]
  exact bind_of_error (expressionWithin_ended ended size) _

/-- At the end, there is no statement, with any budget. -/
theorem statementWithin_ended :
    ∀ size : Nat, statementWithin size reader =
      .error (reader.report .expressionExpected) reader
  | 0 => rfl
  | _ + 1 => anyStatement_ended ended _ _ _

/-- At the end, there is no declaration, with any budget. -/
theorem declarationWithin_ended :
    ∀ size : Nat, declarationWithin size reader =
      .error (reader.report .expressionExpected) reader
  | 0 => rfl
  | _ + 1 => by
      unfold declarationWithin anyDeclaration
      rw [bind_of_ok (next?_ended ended declarationStart?)]
      exact anyStatement_ended ended _ _ _

end

end Lox.Grammar
