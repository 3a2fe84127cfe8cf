import Lox.Proofs.Execution.Calculations
import Lox.Proofs.Execution.Destinations
import Lox.Proofs.Grammar.Printed
import Lox.Proofs.Session.Reports
import Lox.Proofs.Source.Printed

namespace Lox

open Grammar (WellFormed)

/-!
# Expressions by themselves and printed

An expression can be evaluated by itself, or by a program that prints it.  By itself it is
not resolved; in the program every name in it is global, so that resolution finds nothing
to settle.  Both then go through the same calculation.
-/

/-! ## Expressions outside of everything -/

/-- Neither `this` nor `super` is among some tokens. -/
def WithoutReceiver (tokens : List Token) : Prop :=
  ∀ token ∈ tokens, token.kind ≠ .keyword .thisWord ∧ token.kind ≠ .keyword .superWord

instance (tokens : List Token) : Decidable (WithoutReceiver tokens) :=
  inferInstanceAs (Decidable (∀ token ∈ tokens, _))

namespace Scoping

variable {tokens : List Token} {value : Expr}

theorem programSites_print (value : Expr) :
    programSites [.print value] = value.sites .outermost none := by
  simp [programSites, Stmt.sitesOfAll, Stmt.sites]

/-- Outside of everything, an expression without `this` and `super` breaks no rule. -/
theorem faultless_of_withoutReceiver
    (without : WithoutReceiver tokens)
    (formed : WellFormed tokens (.expression value))
    {site : Site}
    (member : site ∈ value.sites .outermost none) :
    site.fault? = none := by
  have inside := sites_inExpression .outermost none value site member
  obtain ⟨node, occurs, own⟩ := stem_expression value .outermost none site member
  have here := formed node occurs
  obtain ⟨place, initializing, deed⟩ := site
  obtain ⟨rfl, rfl, isOccurrence⟩ := inside
  cases own with
  | reads => simp [Site.fault?]
  | assigns => rfl
  | this =>
      obtain ⟨token, among, kind, -⟩ := here
      exact absurd kind (without token among).1
  | super =>
      obtain ⟨⟨token, among, kind, -⟩, -⟩ := here
      exact absurd kind (without token among).2
  | _ => cases isOccurrence

/-- A program that prints such an expression is accepted. -/
theorem accepted_print
    (without : WithoutReceiver tokens)
    (formed : WellFormed tokens (.expression value)) :
    (resolve [.print value]).verdict = .ok () := by
  have faultless : firstFault? (programSites [.print value]) = none := by
    rw [programSites_print]
    exact List.findSome?_eq_none_iff.mpr fun _ => faultless_of_withoutReceiver without formed
  rw [(resolve_eq _).1, faultless]

/-- All occurrences in a printed expression are global. -/
theorem global_of_print
    (accepted : (resolve [.print value]).verdict = .ok ())
    {settlement : Settlement}
    (settled : settlement ∈ (resolve [.print value]).settled) :
    settlement.depth = none := by
  rw [settled_of_accepted accepted, programSites_print] at settled
  obtain ⟨site, member, found⟩ := List.mem_filterMap.mp settled
  obtain ⟨occurrence, -, rfl⟩ := Option.map_eq_some_iff.mp found
  have outermost := (sites_inExpression .outermost none value site member).place
  rw [outermost]
  rfl

end Scoping

namespace Session

open Execution

/-- Nothing is recorded for a program that prints an expression. -/
theorem firstState_print
    {value : Expr}
    (accepted : (Scoping.resolve [.print value]).verdict = .ok ())
    (clock : Clock) :
    firstState clock [.print value] = State.initial clock := by
  have unchanged := Distances.record_of_global
    (fun _ settled => Scoping.global_of_print accepted settled) (State.initial clock).distances
  change { State.initial clock with
    distances := (State.initial clock).distances.record (Scoping.resolve [.print value]).settled } =
      State.initial clock
  rw [unchanged]

/-! ## Runs -/

/-- How a program ends that prints the value of an expression, and what it has printed. -/
def printedBy : EStateM.Result Exit State Value → Except Stop Unit × Transcript
  | .ok value final => (.ok (), final.transcript.print (final.heap.display value))
  | .error exit final => (.error (.ofExit exit), final.transcript)

/-- A program that prints an expression evaluates it and prints the value. -/
theorem interpret_print (fuel : Nat) (value : Expr) (state : State) :
    outcomeOf (Execution.interpret (fuel + 1) [.print value] state) =
      printedBy (Execution.evaluate fuel value state) := by
  rw [interpret_eq_executeAll rfl]
  change outcomeOf (((Execution.evaluate fuel value >>= printValue) >>= pure) state) = _
  rw [bind_apply, bind_apply]
  cases Execution.evaluate fuel value state <;> rfl

/-- A text that is all that has been printed has a line end behind it. -/
theorem text_print_empty (text : String) :
    (Transcript.empty.print text).text = text ++ "\n" := by
  simp [Transcript.empty, Transcript.print, Transcript.text, Transcript.textOf]

/--
An evaluation and the run of a program agree.  They succeed together, and the program has
then printed the text of the value and a line end; and they stop at the same runtime
errors, and the program has then printed nothing.
-/
structure Agree
    (evaluated : EStateM.Result Exit State Value)
    (ran : Except Stop Unit × Transcript) :
    Prop where
  succeeds : (∃ value final, evaluated = .ok value final) ↔ ran.1 = .ok ()
  shown :
    ∀ value final, evaluated = .ok value final →
      ran.2 = Transcript.empty.print (final.heap.display value) ∧
        ran.2.text = final.heap.display value ++ "\n"
  fails :
    ∀ error,
      (∃ final, evaluated = .error (.error error) final) ↔
        ran.1 = .error (.diagnostic (.runtime error))
  silent : ∀ error, ran.1 = .error (.diagnostic (.runtime error)) → ran.2 = .empty

section

variable {tooShort : Prop} {good : Value → Prop} {result : EStateM.Result Exit State Value}

/-- A calculation agrees with its printing, whatever its own output is. -/
theorem agree_of_reckoned
    (ended : Reckoned tooShort good .empty result)
    (output : Transcript) :
    Agree (mapState (·.printingTo output) result) (printedBy result) := by
  cases ended with
  | @value found final _ bare =>
      have printed : (printedBy (.ok found final)).2 =
          Transcript.empty.print (final.heap.display found) := by
        rw [printedBy, bare.transcript]
      refine ⟨?succeeds, ?shown, fun _ => ⟨nofun, nofun⟩, nofun⟩
      case succeeds => exact ⟨fun _ => rfl, fun _ => ⟨_, _, rfl⟩⟩
      case shown =>
        rintro _ _ ⟨⟩
        exact ⟨printed, printed ▸ text_print_empty _⟩
  | @fault error final unprinted =>
      refine ⟨⟨nofun, nofun⟩, nofun, fun other => ⟨?_, ?_⟩, fun _ _ => unprinted⟩
      · rintro ⟨_, ⟨⟩⟩
        rfl
      · rintro ⟨⟩
        exact ⟨_, rfl⟩
  | exhausted _ _ => exact ⟨⟨nofun, nofun⟩, nofun, fun _ => ⟨nofun, nofun⟩, nofun⟩

/-- With enough fuel, a calculation comes to its end. -/
theorem ends_of_reckoned
    (ended : Reckoned tooShort good .empty result)
    (long : ¬ tooShort)
    (output : Transcript) :
    (∃ value final, mapState (·.printingTo output) result = .ok value final) ∨
      ∃ error final, mapState (·.printingTo output) result = .error (.error error) final := by
  cases ended with
  | value _ _ => exact .inl ⟨_, _, rfl⟩
  | fault _ => exact .inr ⟨_, _, rfl⟩
  | exhausted short _ => exact absurd short long

end

/-! ## Sources -/

section

variable {source : List UInt8} {tokens : List Token} {expression : Expr} {clock : Clock}

/-- An expression is read from the tokens of its source. -/
theorem wholeExpression_of_parseExpression
    {after : Session}
    (scanned : Source.scan source = .ok tokens)
    (parsed : parseExpression source (start clock) = .ok expression after) :
    ∃ final,
      Grammar.wholeExpression (Grammar.Reader.start tokens 0) = .ok expression final := by
  unfold parseExpression parse scan at parsed
  rw [scanned, bind_of_ok (pure_apply tokens _)] at parsed
  obtain ⟨final, read, -⟩ := read_of_parsed parsed
  exact ⟨final, read⟩

/-- The source that prints an expression is a program that prints the same expression. -/
theorem spells_printing
    (scanned : Source.scan source = .ok tokens)
    {final : Grammar.Reader}
    (read : Grammar.wholeExpression (Grammar.Reader.start tokens 0) = .ok expression final)
    (without : WithoutReceiver tokens) :
    ∃ around found,
      Spells (Source.printing source) around [.print found] ∧
        WithoutReceiver around ∧ found.shape = expression.shape := by
  obtain ⟨inside, rfl, plain, printing⟩ := Source.scan_printing scanned
  let keyword : Token := ⟨.keyword .printWord, "print", 1⟩
  let semicolon : Token := ⟨.symbol .semicolon, ";", Source.lineAfter (Source.printing source)⟩
  let marker : Token := ⟨.endOfInput, "", Source.lineAfter (Source.printing source)⟩
  have others : ∀ token ∈ keyword :: (inside ++ [semicolon]), token.kind ≠ .endOfInput := by
    simpa [keyword, semicolon, or_imp, forall_and] using plain
  have between :
      (Grammar.Reader.start (keyword :: (inside ++ [semicolon]) ++ [marker]) 0).rest =
        keyword :: (inside ++ [semicolon]) :=
    Grammar.Reader.start_rest_of_ended others rfl 0
  obtain ⟨found, after, program, same⟩ := Grammar.program_of_printed read
    (Grammar.Reader.start_rest_of_ended plain rfl 0) rfl rfl between
  refine ⟨_, found, ⟨printing, after, program⟩, ?_, same⟩
  have inner := fun token member => without token (List.mem_append_left _ member)
  simpa [WithoutReceiver, or_imp, forall_and] using inner

/-- The run of the source that prints an expression is that of its evaluation. -/
theorem runSource_printing
    {after : Session}
    (scanned : Source.scan source = .ok tokens)
    (without : WithoutReceiver tokens)
    (parsed : parseExpression source (start clock) = .ok expression after)
    (fuel : Nat) :
    runSource (fuel + 1) clock (Source.printing source) =
      printedBy (Execution.evaluate fuel expression (State.initial clock)) := by
  obtain ⟨final, read⟩ := wholeExpression_of_parseExpression scanned parsed
  obtain ⟨around, found, spells, free, same⟩ := spells_printing scanned read without
  have formed : WellFormed around (.expression found) := fun node occurs =>
    spells.wellFormed _ List.mem_cons_self node (occurs.trans (.inside .here .printed))
  have accepted := Scoping.accepted_print free formed
  rw [spells.runSource_eq, accepted, firstState_print accepted]
  dsimp only
  rw [interpret_print]
  -- Both trees have one shape, and evaluating the shape is evaluating each of them.
  have alone := (Reckons.evaluate fuel expression _ _ (bare_initial clock)).2
  have inside := (Reckons.evaluate fuel found _ _ (bare_initial clock)).2
  rw [← alone, ← inside, same]

/-- A calculation is the same wherever its output goes, of which it makes no use. -/
theorem evaluate_printingTo (fuel : Nat) (expression : Expr) (clock : Clock) (output : Transcript) :
    ∃ written,
      Execution.evaluate fuel expression ((State.initial clock).printingTo output) =
        mapState (·.printingTo written)
          (Execution.evaluate fuel expression (State.initial clock)) := by
  obtain ⟨texts, alike⟩ := Oblivious.composes.evaluate fuel expression (State.initial clock)
  exact ⟨_, alike output⟩

/--
An expression that takes a whole source is evaluated by itself, without any scopes having
been resolved, as it is by the program whose source has `print ` in front of it and a line
end and a semicolon behind it.  With enough fuel the evaluation has a value or stops at a
runtime error, wherever its output goes, and with any fuel the two agree.
-/
theorem evaluated_as_printed
    {after : Session}
    (scanned : Source.scan source = .ok tokens)
    (without : WithoutReceiver tokens)
    (parsed : parseExpression source (start clock) = .ok expression after)
    (output : Transcript) :
    let fresh := (State.initial clock).printingTo output
    (∃ enough, ∀ fuel ≥ enough,
      (∃ value final, Execution.evaluate fuel expression fresh = .ok value final) ∨
        ∃ error final,
          Execution.evaluate fuel expression fresh = .error (.error error) final) ∧
    ∀ fuel,
      Agree (Execution.evaluate fuel expression fresh)
        (runSource (fuel + 1) clock (Source.printing source)) := by
  intro fresh
  have ended := fun fuel => (Reckons.evaluate fuel expression _ _ (bare_initial clock)).1
  choose written alike using fun fuel => evaluate_printingTo fuel expression clock output
  constructor
  · refine ⟨expression.height + 1, fun fuel enough => ?_⟩
    rw [alike]
    exact ends_of_reckoned (ended fuel) (Nat.not_le_of_gt enough) (written fuel)
  · intro fuel
    rw [alike, runSource_printing scanned without parsed fuel]
    exact agree_of_reckoned (ended fuel) (written fuel)

/-- Two texts that are joined, with a comment behind them. -/
def joining : List UInt8 :=
  Text.Utf8.encode "\"a\" + \"b\" // joined"

/-- The comment ends in front of the semicolon, and the joined text is printed. -/
theorem evaluated_as_printed_behind_comment :
    ∃ tokens expression after,
      Source.scan joining = .ok tokens ∧
        WithoutReceiver tokens ∧
        parseExpression joining (start ⟨0⟩) = .ok expression after ∧
        runSource 3 ⟨0⟩ (Source.printing joining) = (.ok (), Transcript.empty.print "ab") ∧
        ∃ value final,
          Execution.evaluate 2 expression ((State.initial ⟨0⟩).printingTo .onStdout) =
              .ok value final ∧
            final.heap.display value = "ab" := by
  have scanned : Source.scan joining = .ok (Source.tokens joining) := by decide +kernel
  have without : WithoutReceiver (Source.tokens joining) := by decide +kernel
  have ran : runSource 3 ⟨0⟩ (Source.printing joining) = (.ok (), Transcript.empty.print "ab") :=
    Prod.ext (by decide +kernel) (by decide +kernel)
  have readable : (match parseExpression joining (start ⟨0⟩) with
      | .ok _ _ => true
      | .error _ _ => false) = true := by
    decide +kernel
  -- The source is kept a variable here, so that it is not parsed while terms are compared.
  generalize joining = source at *
  cases parsed : parseExpression source (start ⟨0⟩) with
  | error stop after =>
      rw [parsed] at readable
      cases readable
  | ok expression after =>
      have agree := (evaluated_as_printed scanned without parsed .onStdout).2 2
      obtain ⟨value, final, evaluated⟩ := agree.succeeds.mpr (congrArg Prod.fst ran)
      refine ⟨_, expression, after, scanned, without, rfl, ran, value, final, evaluated, ?_⟩
      have shown := (agree.shown value final evaluated).1
      rw [ran] at shown
      simpa [Transcript.empty, Transcript.print] using shown.symm

end

end Session

end Lox
