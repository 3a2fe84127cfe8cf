import Lox.Proofs.Session.Copies
import Lox.Proofs.Source.Texts

namespace Lox

open Scoping Execution

/-!
# The layout of a source does not matter

Two sources with the same words in the same order run alike, however these are laid out
on lines and with comments, and whatever identities their occurrences get.  Only the
lines at which something is reported are different.
-/

/-! ## Reports without lines -/

/-- A name with its line left out. -/
def Identifier.unplaced (name : Identifier) : Identifier :=
  { name with line := 0 }

/-- A type fault with its line left out. -/
def Execution.TypeFault.unplaced : TypeFault → TypeFault
  | .operandNotNumber _ => .operandNotNumber 0
  | .operandsNotNumbers operator _ => .operandsNotNumbers operator 0
  | .operandsNotAddable _ => .operandsNotAddable 0
  | .notCallable _ => .notCallable 0
  | .propertyOfNonInstance name => .propertyOfNonInstance name.unplaced
  | .fieldOfNonInstance name => .fieldOfNonInstance name.unplaced
  | .superclassNotClass name => .superclassNotClass name.unplaced
  | .returnOutsideFunction _ => .returnOutsideFunction 0

/-- A runtime error with its line left out. -/
def Execution.RuntimeError.unplaced : RuntimeError → RuntimeError
  | .undefinedVariable name => .undefinedVariable name.unplaced
  | .undefinedProperty name => .undefinedProperty name.unplaced
  | .typeFault fault => .typeFault fault.unplaced
  | .divisionByZero _ => .divisionByZero 0
  | .arityMismatch expected got _ => .arityMismatch expected got 0

/-- A diagnostic with its line left out: all else that its message says is kept. -/
def Diagnostic.unplaced : Diagnostic → Diagnostic
  | .lexical error => .lexical { error with line := 0 }
  | .syntactic error => .syntactic { error with line := 0 }
  | .scoping error => .scoping { error with culprit := error.culprit.unplaced }
  | .runtime error => .runtime error.unplaced

/-- A stop with its line left out. -/
def Stop.unplaced : Stop → Stop
  | .diagnostic found => .diagnostic found.unplaced
  | .returned _ value => .returned 0 value
  | .mismatch found => .mismatch found
  | .exhausted => .exhausted

section

variable {matching : Matching}

theorem IdentifierCopies.unplaced
    {name name' : Identifier}
    (copies : IdentifierCopies matching name name') :
    name.unplaced = name'.unplaced := by
  unfold Identifier.unplaced
  rw [copies.text]

theorem Execution.TypeFaultCopies.unplaced
    {fault fault' : TypeFault}
    (copies : TypeFaultCopies matching fault fault') :
    fault.unplaced = fault'.unplaced := by
  cases copies with
  | propertyOfNonInstance name => exact congrArg TypeFault.propertyOfNonInstance name.unplaced
  | fieldOfNonInstance name => exact congrArg TypeFault.fieldOfNonInstance name.unplaced
  | superclassNotClass name => exact congrArg TypeFault.superclassNotClass name.unplaced
  | _ => rfl

theorem Execution.RuntimeErrorCopies.unplaced
    {error error' : RuntimeError}
    (copies : RuntimeErrorCopies matching error error') :
    error.unplaced = error'.unplaced := by
  cases copies with
  | undefinedVariable name => exact congrArg RuntimeError.undefinedVariable name.unplaced
  | undefinedProperty name => exact congrArg RuntimeError.undefinedProperty name.unplaced
  | typeFault fault => exact congrArg RuntimeError.typeFault fault.unplaced
  | _ => rfl

/-- Stops at copies are told apart by nothing but lines. -/
theorem Session.StopCopies.unplaced
    {stop stop' : Stop}
    (copies : Session.StopCopies matching stop stop') :
    stop.unplaced = stop'.unplaced := by
  cases copies with
  | @syntactic error error' same =>
      obtain ⟨fault, lexeme, line, remaining⟩ := error
      obtain ⟨fault', lexeme', line', remaining'⟩ := error'
      obtain ⟨rfl, rfl, -, rfl⟩ := same
      rfl
  | @scoping error error' same =>
      obtain ⟨fault, culprit⟩ := error
      obtain ⟨fault', culprit'⟩ := error'
      obtain ⟨rfl, named⟩ := same
      simp only [Stop.unplaced, Diagnostic.unplaced, named.unplaced]
  | ofExit same =>
      cases same with
      | error error =>
          exact congrArg (fun found => Stop.diagnostic (.runtime found)) error.unplaced
      | _ => rfl

end

/-! ## Tokens with the same texts -/

/--
Any line stands for any other, and an identity for the one that is as far from where the
other run begins to hand them out.
-/
def Matching.offset (nextId nextId' : NodeId) : Matching where
  ids id id' := ∃ count, id = nextId + count ∧ id' = nextId' + count
  lines _ _ := True
  unique := by
    rintro id id' other other' ⟨count, rfl, rfl⟩ ⟨count', rfl, rfl⟩
    rw [Nat.add_left_cancel_iff, Nat.add_left_cancel_iff]

/-- Scanned tokens with the same texts are copies of each other. -/
theorem tokenCopies_of_sameText
    {matching : Matching}
    (anyLine : ∀ line line', matching.lines line line')
    {tokens tokens' : List Token}
    (same : List.Forall₂ Source.SameText tokens tokens')
    (genuine : ∀ token ∈ tokens, Source.Genuine token)
    (genuine' : ∀ token ∈ tokens', Source.Genuine token) :
    List.Forall₂ (Grammar.TokenCopies matching) tokens tokens' := by
  induction same with
  | nil => exact .nil
  | cons first _ inductionHypothesis =>
      rw [List.forall_mem_cons] at genuine genuine'
      have kind := first.kind genuine.1 genuine'.1
      exact .cons ⟨kind, first.lexeme, anyLine _ _⟩
        (inductionHypothesis genuine.2 genuine'.2)

namespace Session

/-- A new session that hands out identities from some number on. -/
def startFrom (clock : Clock) (nextId : NodeId) : Session :=
  { start clock with nextId := nextId }

/-- New sessions mirror each other, wherever their identities begin. -/
theorem startFrom_copies (clock : Clock) (nextId nextId' : NodeId) :
    SessionCopies (.offset nextId nextId') (startFrom clock nextId) (startFrom clock nextId') where
  state :=
    { heap := (mentions_initial (fun _ => False) clock).copies (fun _ => trivial) nofun
      globals := rfl
      scope := rfl
      distances := fun _ => rfl
      transcript := rfl
      clock := rfl }
  nextId count := ⟨count, rfl, rfl⟩

end Session

/-- As `runSource`, with the number from which on occurrences get their identities. -/
def runSourceFrom
    (fuel : Nat)
    (clock : Clock)
    (nextId : NodeId)
    (source : List UInt8) :
    Except Stop Unit × Transcript :=
  match Session.run fuel source (Session.startFrom clock nextId) with
  | .ok () session => (.ok (), session.state.transcript)
  | .error stop session => (.error stop, session.state.transcript)

/--
Two sources that are scanned to tokens of the same sorts with the same texts print the
same, and either both run to their ends or both stop, for the same reason and at the same
word, wherever their tokens stand and from whatever numbers their identities are counted.
-/
theorem layout_immaterial
    {source source' : List UInt8}
    {tokens tokens' : List Token}
    (scanned : Source.scan source = .ok tokens)
    (scanned' : Source.scan source' = .ok tokens')
    (same : List.Forall₂ Source.SameText tokens tokens')
    (fuel : Nat)
    (clock : Clock)
    (nextId nextId' : NodeId) :
    let ended := runSourceFrom fuel clock nextId source
    let ended' := runSourceFrom fuel clock nextId' source'
    ended.2 = ended'.2 ∧ ended.1.mapError Stop.unplaced = ended'.1.mapError Stop.unplaced := by
  dsimp only
  have anyLine : ∀ line line', (Matching.offset nextId nextId').lines line line' :=
    fun _ _ => trivial
  have copies := tokenCopies_of_sameText anyLine same
    (fun _ => Source.genuine_of_scan scanned) (fun _ => Source.genuine_of_scan scanned')
  have ended := Session.runTokens_mirror copies (anyLine 1 1) fuel _ _
    (Session.startFrom_copies clock nextId nextId')
  unfold runSourceFrom Session.run Session.scan
  rw [scanned, scanned', bind_of_ok (pure_apply _ _), bind_of_ok (pure_apply _ _)]
  generalize Session.runTokens fuel tokens _ = outcome at ended ⊢
  generalize Session.runTokens fuel tokens' _ = outcome' at ended ⊢
  cases ended with
  | ok _ further => exact ⟨further.state.transcript, rfl⟩
  | error alike further =>
      exact ⟨further.state.transcript, congrArg Except.error alike.unplaced⟩

/-- `print -true;` stops in the same way with a comment and a line end in it. -/
theorem layout_immaterial_comment :
    let source := Text.Utf8.encode "print -true;"
    let source' := Text.Utf8.encode "print // twice\n -true ;"
    ∃ tokens tokens',
      Source.scan source = .ok tokens ∧ Source.scan source' = .ok tokens' ∧
        List.Forall₂ Source.SameText tokens tokens' ∧ tokens ≠ tokens' ∧
        ∀ fuel clock nextId nextId',
          let ended := runSourceFrom fuel clock nextId source
          let ended' := runSourceFrom fuel clock nextId' source'
          ended.2 = ended'.2 ∧
            ended.1.mapError Stop.unplaced = ended'.1.mapError Stop.unplaced := by
  let laidOut (second : Nat) : List Token :=
    [⟨.keyword .printWord, "print", 1⟩, ⟨.symbol .minus, "-", second⟩,
      ⟨.keyword .trueWord, "true", second⟩, ⟨.symbol .semicolon, ";", second⟩,
      ⟨.endOfInput, "", second⟩]
  have scanned : Source.scan (Text.Utf8.encode "print -true;") = .ok (laidOut 1) := rfl
  have scanned' : Source.scan (Text.Utf8.encode "print // twice\n -true ;") =
      .ok (laidOut 2) :=
    rfl
  have same : List.Forall₂ Source.SameText (laidOut 1) (laidOut 2) := by
    repeat' constructor
  have differ : laidOut 1 ≠ laidOut 2 := by simp [laidOut]
  refine ⟨_, _, scanned, scanned', same, differ, ?_⟩
  exact layout_immaterial scanned scanned' same

end Lox
