import Lox.Proofs.Execution.Blame
import Lox.Proofs.Scoping.Culprits
import Lox.Proofs.Session.Outcomes

namespace Lox

open Grammar (NamedIn StandsOn WellFormed)

/-!
# Every error points into the source

An error in a source is reported at one of its tokens: a syntax error where the parser
stands, a scope error at the name or keyword that breaks a rule, and a runtime error at a
token of the node that raises it, however long after its program was read the node is run.
-/

/-! ## Where errors are reported -/

namespace Grammar

/-- The symbol of an operator between two operands. -/
def signOf : BinaryOperator → Symbol
  | .add => .plus
  | .subtract => .minus
  | .multiply => .star
  | .divide => .slash
  | .greater => .greater
  | .greaterEqual => .greaterEqual
  | .less => .less
  | .lessEqual => .lessEqual
  | .equal => .equalEqual
  | .notEqual => .bangEqual

theorem kind_of_binaryOperator?
    {kind : TokenKind}
    {operator : BinaryOperator}
    (known : binaryOperator? kind = some operator) :
    kind = .symbol (signOf operator) := by
  unfold binaryOperator? at known
  split at known
  all_goals cases known
  all_goals rfl

theorem kind_of_negation
    {kind : TokenKind}
    (known : unaryOperator? kind = some .negate) :
    kind = .symbol .minus := by
  unfold unaryOperator? at known
  split at known
  all_goals cases known
  rfl

end Grammar

namespace Execution

/-- The kind of token at which a type fault is reported. -/
def TypeFault.kind : TypeFault → TokenKind
  | .operandNotNumber _ => .symbol .minus
  | .operandsNotNumbers operator _ => .symbol (Grammar.signOf operator)
  | .operandsNotAddable _ => .symbol .plus
  | .notCallable _ => .symbol .rightParen
  | .propertyOfNonInstance _ => .identifier
  | .fieldOfNonInstance _ => .identifier
  | .superclassNotClass _ => .identifier
  | .returnOutsideFunction _ => .keyword .returnWord

/-- The kind of token at which a runtime error is reported. -/
def RuntimeError.kind : RuntimeError → TokenKind
  | .undefinedVariable _ => .identifier
  | .undefinedProperty _ => .identifier
  | .typeFault fault => fault.kind
  | .divisionByZero _ => .symbol .slash
  | .arityMismatch _ _ _ => .symbol .rightParen

/-- The text of the token is what the error says, unless it says a name. -/
theorem RuntimeError.spelling?_kind (error : RuntimeError) :
    error.kind = .identifier ∨ Source.spelling? error.kind = some error.culprit.text := by
  cases error with
  | typeFault fault =>
      cases fault with
      | operandsNotNumbers operator _ => exact .inr (by cases operator <;> rfl)
      | _ => first
        | exact .inl rfl
        | exact .inr rfl
  | _ => first
    | exact .inl rfl
    | exact .inr rfl

end Execution

/--
An error is reported at a token: on its line, and as being at the end or at the text of the
token.  For a runtime error the kind of the token is that of the error.
-/
def Diagnostic.ReportedAt : Diagnostic → Token → Prop
  | .lexical _, _ => False
  | .syntactic error, token =>
      error.line = token.line ∧
        error.location =
          if token.kind = .endOfInput then " at end" else " at '" ++ token.lexeme ++ "'"
  | .scoping error, token =>
      error.culprit.line = token.line ∧ error.culprit.text = token.lexeme
  | .runtime error, token =>
      error.line = token.line ∧ error.culprit.text = token.lexeme ∧ token.kind = error.kind

/-- An error is reported at one of some tokens. -/
def Diagnostic.ReportedIn (diagnostic : Diagnostic) (tokens : List Token) : Prop :=
  ∃ token ∈ tokens, diagnostic.ReportedAt token

theorem Diagnostic.ReportedAt.line_eq
    {diagnostic : Diagnostic}
    {token : Token}
    (reported : diagnostic.ReportedAt token) :
    diagnostic.line = token.line := by
  cases diagnostic with
  | lexical _ => exact reported.elim
  | _ => exact reported.1

section

variable {source : List UInt8} {tokens : List Token}

/-! ## Syntax errors -/

/-- A syntax error in what was scanned is reported at one of its tokens. -/
theorem syntax_reportedIn
    (scanned : Source.scan source = .ok tokens)
    {error : SyntaxError}
    {nextId : NodeId}
    {reader : Grammar.Reader}
    (failed : Grammar.program (Grammar.Reader.start tokens nextId) = .error error reader) :
    (Diagnostic.syntactic error).ReportedIn tokens := by
  have member : error ∈ (Grammar.readProgram (Grammar.Reader.start tokens nextId)).errors := by
    unfold Grammar.program Grammar.ProgramReading.verdict at failed
    cases faults : (Grammar.readProgram (Grammar.Reader.start tokens nextId)).errors with
    | nil => simp [faults] at failed
    | cons first others =>
        obtain ⟨rfl, -⟩ : first = error ∧ _ := by simpa [faults] using failed
        exact List.mem_cons_self
  obtain ⟨token, isToken, line, lexeme⟩ :=
    (Grammar.start_standsIn tokens nextId).progresses.reported error member
  rw [Source.terminated_of_scan scanned] at isToken
  refine ⟨token, List.mem_of_getElem? isToken, line, ?_⟩
  unfold SyntaxError.location
  rw [lexeme]
  by_cases ends : token.kind = .endOfInput
  · simp [Grammar.Reader.isEnd, ends]
  · simp [Grammar.Reader.isEnd, ends]

/-! ## Runtime errors -/

namespace Execution

/-- An error that says a name among the tokens is reported there. -/
theorem reportedIn_of_named
    {error : RuntimeError}
    (isName : error.kind = .identifier)
    (named : NamedIn tokens error.culprit) :
    (Diagnostic.runtime error).ReportedIn tokens := by
  obtain ⟨token, among, names⟩ := named
  exact ⟨token, among, names.line, names.text, names.kind.trans isName.symm⟩

/-- An error on the line of a token of its kind is reported at this token. -/
theorem reportedIn_of_standsOn
    {error : RuntimeError}
    (spelled : Source.Spelled tokens)
    (noName : error.kind ≠ .identifier)
    (stands : StandsOn tokens error.kind error.line) :
    (Diagnostic.runtime error).ReportedIn tokens := by
  obtain ⟨token, among, kind, line⟩ := stands
  have known := error.spelling?_kind.resolve_left noName
  exact ⟨token, among, line.symm, (spelled token among _ (kind ▸ known)).symm, kind⟩

/-- An error at a binary operator is reported at the token of the operator. -/
theorem reportedIn_of_binary
    {error : RuntimeError}
    {operator : BinaryOperator}
    (spelled : Source.Spelled tokens)
    (isSign : error.kind = .symbol (Grammar.signOf operator))
    (stands :
      ∃ token ∈ tokens,
        Grammar.binaryOperator? token.kind = some operator ∧ token.line = error.line) :
    (Diagnostic.runtime error).ReportedIn tokens := by
  obtain ⟨token, among, isOperator, line⟩ := stands
  have kind := Grammar.kind_of_binaryOperator? isOperator
  refine reportedIn_of_standsOn spelled ?_ ⟨token, among, kind.trans isSign.symm, line⟩
  simp [isSign]

/-- What a well-formed node raises is reported at one of its tokens. -/
theorem Raises.reportedIn
    {node : Node}
    {error : RuntimeError}
    (raises : Raises node error)
    (defined : ∀ name, error ≠ .undefinedVariable name)
    (spelled : Source.Spelled tokens)
    (formed : WellFormed tokens node) :
    (Diagnostic.runtime error).ReportedIn tokens := by
  have here := formed node .here
  cases raises with
  | operandNotNumber =>
      obtain ⟨token, among, isOperator, line⟩ := here
      exact reportedIn_of_standsOn spelled nofun
        ⟨token, among, Grammar.kind_of_negation isOperator, line⟩
  | operandsNotNumbers => exact reportedIn_of_binary spelled rfl here
  | operandsNotAddable => exact reportedIn_of_binary spelled rfl here
  | divisionByZero => exact reportedIn_of_binary spelled rfl here
  | undefinedReference | undefinedTarget | undefinedReceiver | undefinedSuper
  | undefinedSuperclass => exact absurd rfl (defined _)
  | undefinedSuperMethod => exact reportedIn_of_named rfl here.2
  | notCallable | arityMismatch => exact reportedIn_of_standsOn spelled nofun here.2
  | propertyOfNonInstance | undefinedProperty | fieldOfNonInstance =>
      exact reportedIn_of_named rfl here
  | superclassNotClass => exact reportedIn_of_named rfl (formed _ (.inside .here .superclass))

/-- A variable that is looked up in a well-formed node is named by one of the tokens. -/
theorem namedIn_of_lookedUp
    {task : Task}
    {occurrence : Reference}
    (looksUp : task.lookedUp? = some occurrence)
    (formed : ∀ node ∈ task.code, WellFormed tokens node) :
    NamedIn tokens occurrence.name := by
  cases task with
  | expression fuel value =>
      have here := formed _ (List.mem_singleton.mpr rfl) _ .here
      cases value with
      | reference found =>
          obtain rfl := Option.some.inj looksUp
          exact here
      | assign target value =>
          obtain rfl := Option.some.inj looksUp
          exact here
      | _ => cases looksUp
  | _ => cases looksUp

end Execution

namespace Session

open Execution

/-- The program of a source comes from the tokens of the source. -/
theorem Spells.wellFormed
    {program : List Stmt}
    (spells : Spells source tokens program) :
    ∀ single ∈ program, WellFormed tokens (.statement single) := by
  obtain ⟨reader, parsed⟩ := spells.parsed
  have among : (Grammar.Reader.start tokens 0).rest ⊆ tokens :=
    (List.takeWhile_sublist _).subset
  have trees := Grammar.Call.program.trees_wellFormed among
  simpa [Grammar.Call.trees, parsed] using trees

/-- What is reached when the program is run comes from the tokens too. -/
theorem Spells.reached_wellFormed
    {program : List Stmt}
    (spells : Spells source tokens program)
    {fuel : Nat}
    {clock : Clock}
    {later : Task}
    {after : State}
    (reaches : Reaches (.statements fuel program) (firstState clock program) later after) :
    ∀ node ∈ later.code, WellFormed tokens node := by
  have written : Written (program.map Node.statement) (firstState clock program)
      (.statements fuel program) :=
    ⟨Heap.initial_writtenIn _ clock, fun node member => ⟨node, member, .here⟩⟩
  intro node member part inside
  obtain ⟨tree, isTree, occurs⟩ :=
    (Task.staysWritten _ _ _ written later after reaches).code node member
  obtain ⟨single, isMember, rfl⟩ := List.mem_map.mp isTree
  exact spells.wellFormed single isMember part (inside.trans occurs)

/-- A runtime error of the program of a source is reported at one of the tokens. -/
theorem Spells.runtime_reportedIn
    {program : List Stmt}
    (spells : Spells source tokens program)
    (accepted : (Scoping.resolve program).verdict = .ok ())
    {fuel : Nat}
    {clock : Clock}
    {error : RuntimeError}
    {final : State}
    (failed :
      Execution.interpret fuel program (firstState clock program) =
        .error (.error error) final) :
    (Diagnostic.runtime error).ReportedIn tokens := by
  by_cases defined : ∀ name, error ≠ .undefinedVariable name
  · have without := Scoping.anyHasReturn_of_resolve accepted
    rw [interpret_eq_executeAll without] at failed
    obtain ⟨later, after, reaches, node, member, raises⟩ :=
      body_blamed (everything_blamed fuel).2.1 program _ error final failed
    exact raises.reportedIn defined (Source.spelled_of_scan spells.scanned)
      (spells.reached_wellFormed reaches node member)
  · -- Only look-ups of variables fail: what `this` and `super` stand for is always there.
    obtain ⟨name, rfl⟩ : ∃ name, error = .undefinedVariable name := by simpa using defined
    obtain ⟨proper, ready⟩ := spells.ready accepted clock
    have stops := ((interpret_keeps fuel proper ready).error failed).2.2
    obtain ⟨later, after, reaches, occurrence, looksUp, rfl, -⟩ := stops.global name rfl
    exact reportedIn_of_named rfl (namedIn_of_lookedUp looksUp (spells.reached_wellFormed reaches))

end Session

end

/-! ## All errors -/

namespace Session

/--
Whenever the run of a source ends with an error that is not lexical, the source has been
scanned, and the error is reported at one of its tokens: on the line of this token, at the
end of the input if the token is its end, and otherwise with the text of the token.  So the
line is one of the source.
-/
theorem reports_point_into_source
    {fuel : Nat}
    {clock : Execution.Clock}
    {source : List UInt8}
    {diagnostic : Diagnostic}
    {transcript : Transcript}
    (failed : runSource fuel clock source = (.error (.diagnostic diagnostic), transcript))
    (notLexical : ∀ error, diagnostic ≠ .lexical error) :
    ∃ tokens token,
      Source.scan source = .ok tokens ∧
        token ∈ tokens ∧
        diagnostic.ReportedAt token ∧
        1 ≤ diagnostic.line ∧
        diagnostic.line ≤ 1 + source.count Source.newline := by
  have pointed : ∀ tokens, Source.scan source = .ok tokens → diagnostic.ReportedIn tokens →
      ∃ tokens token, Source.scan source = .ok tokens ∧ token ∈ tokens ∧
        diagnostic.ReportedAt token ∧ Source.IsLine source diagnostic.line := by
    rintro tokens scanned ⟨token, member, reported⟩
    refine ⟨tokens, token, scanned, member, reported, ?_⟩
    rw [reported.line_eq]
    exact Source.isLine_of_scan scanned member
  have ends := runSource_ends fuel clock source
  rw [failed] at ends
  cases ends with
  | misread => exact absurd rfl (notLexical _)
  | misparsed scanned parsed => exact pointed _ scanned (syntax_reportedIn scanned parsed)
  | rejected spells rejected =>
      obtain ⟨token, member, text, line⟩ := Scoping.culprit_shown
        (Source.spelled_of_scan spells.scanned) spells.wellFormed rejected
      exact pointed _ spells.scanned ⟨token, member, line.symm, text.symm⟩
  | failed spells accepted ran =>
      exact pointed _ spells.scanned (spells.runtime_reportedIn accepted ran)

/-- A function that divides by zero, called further down. -/
def divider : List UInt8 :=
  Text.Utf8.encode "fun f(a) \x7b\n  return a / 0;\n\x7d\nf(1);"

/-- The division is reported where it stands, not where the function is called. -/
theorem reports_point_into_source_of_callee :
    runSource 9 ⟨0⟩ divider =
        (.error (.diagnostic (.runtime (.divisionByZero 2))), .empty) ∧
      ∃ tokens token,
        Source.scan divider = .ok tokens ∧
          token ∈ tokens ∧
          (Diagnostic.runtime (.divisionByZero 2)).ReportedAt token ∧
          1 ≤ 2 ∧
          2 ≤ 1 + divider.count Source.newline := by
  have ran : runSource 9 ⟨0⟩ divider =
      (.error (.diagnostic (.runtime (.divisionByZero 2))), .empty) :=
    Prod.ext (by decide +kernel) (by decide +kernel)
  -- The source is kept a variable here, so that it is not run while terms are compared.
  have pointed : ∀ source,
      runSource 9 ⟨0⟩ source = (.error (.diagnostic (.runtime (.divisionByZero 2))), .empty) →
      ∃ tokens token, Source.scan source = .ok tokens ∧ token ∈ tokens ∧
        (Diagnostic.runtime (.divisionByZero 2)).ReportedAt token ∧
          1 ≤ 2 ∧ 2 ≤ 1 + source.count Source.newline :=
    fun source ran => reports_point_into_source ran nofun
  exact ⟨ran, pointed divider ran⟩

end Session

end Lox
