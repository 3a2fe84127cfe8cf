import Lox.Proofs.Grammar.ProgramExact
import Lox.Proofs.Scoping.Rules

namespace Lox.Scoping

/-!
# Resolution implements the scope rules exactly

Resolution accepts exactly the programs that obey the scope rules, and then
settles every occurrence once, at the innermost scope around it that has declared
the name before it.  Any other program is rejected at the first site that breaks
a rule.
-/

/-! ## Occurrences at the sites -/

/-- The occurrences at sites. -/
def occurrencesAt (sites : List Site) : List Occurrence :=
  sites.filterMap Site.occurrence?

@[simp]
theorem occurrencesAt_append (earlier later : List Site) :
    occurrencesAt (earlier ++ later) = occurrencesAt earlier ++ occurrencesAt later :=
  List.filterMap_append

theorem occurrencesAt_cons_of_none
    {site : Site}
    (none : site.occurrence? = none)
    (rest : List Site) :
    occurrencesAt (site :: rest) = occurrencesAt rest :=
  List.filterMap_cons_none none

mutual

/-- Every occurrence of an expression is at one site. -/
theorem occurrencesAt_expression (place : Place) (initializing : Option String) :
    ∀ value : Expr, occurrencesAt (value.sites place initializing) = value.occurrences
  | .literal _ => rfl
  | .grouping inner => occurrencesAt_expression place initializing inner
  | .unary _ _ operand => occurrencesAt_expression place initializing operand
  | .binary _ _ left right => by
      rw [Expr.sites, occurrencesAt_append, occurrencesAt_expression _ _ left,
        occurrencesAt_expression _ _ right, Expr.occurrences]
  | .logical _ left right => by
      rw [Expr.sites, occurrencesAt_append, occurrencesAt_expression _ _ left,
        occurrencesAt_expression _ _ right, Expr.occurrences]
  | .reference _ => rfl
  | .assign _ value => by
      rw [Expr.sites, occurrencesAt_append, occurrencesAt_expression _ _ value,
        Expr.occurrences]
      rfl
  | .call callee arguments _ => by
      rw [Expr.sites, occurrencesAt_append, occurrencesAt_expression _ _ callee,
        occurrencesAt_expressions _ _ arguments, Expr.occurrences]
  | .property object _ => occurrencesAt_expression place initializing object
  | .setProperty object _ value => by
      rw [Expr.sites, occurrencesAt_append, occurrencesAt_expression _ _ value,
        occurrencesAt_expression _ _ object, Expr.occurrences]
  | .this _ _ => rfl
  | .super _ _ _ => rfl

theorem occurrencesAt_expressions (place : Place) (initializing : Option String) :
    ∀ values : List Expr,
      occurrencesAt (Expr.sitesOfAll place initializing values) =
        Expr.occurrencesOfAll values
  | [] => rfl
  | first :: rest => by
      rw [Expr.sitesOfAll, occurrencesAt_append, occurrencesAt_expression _ _ first,
        occurrencesAt_expressions _ _ rest, Expr.occurrencesOfAll]

end

theorem occurrencesAt_optional
    (place : Place)
    (initializing : Option String)
    (value : Option Expr) :
    occurrencesAt (Expr.sitesOfOptional place initializing value) =
      Expr.occurrencesOfOptional value := by
  cases value with
  | none => rfl
  | some value => exact occurrencesAt_expression place initializing value

theorem occurrencesAt_parameters (place : Place) (names : List Identifier) :
    occurrencesAt (sitesOfParameters place names) = [] := by
  induction names generalizing place with
  | nil => rfl
  | cons first rest inductionHypothesis =>
      rw [sitesOfParameters, occurrencesAt_cons_of_none rfl, inductionHypothesis]

mutual

/-- Every occurrence of a statement is at one site. -/
theorem occurrencesAt_statement :
    ∀ (statement : Stmt) (place : Place),
      occurrencesAt (statement.sites place) = statement.occurrences
  | .expression value, _ => occurrencesAt_expression _ _ value
  | .print value, _ => occurrencesAt_expression _ _ value
  | .varDeclaration _ initializer, _ => occurrencesAt_optional _ _ initializer
  | .block body, place => occurrencesAt_statements body place.entering
  | .branch condition consequent none, place => by
      rw [Stmt.sites, occurrencesAt_append, occurrencesAt_expression _ _ condition,
        occurrencesAt_statement consequent, Stmt.occurrences]
  | .branch condition consequent (some alternative), place => by
      rw [Stmt.sites, occurrencesAt_append, occurrencesAt_append,
        occurrencesAt_expression _ _ condition, occurrencesAt_statement consequent,
        occurrencesAt_statement alternative, Stmt.occurrences, List.append_assoc]
  | .loop condition body, place => by
      rw [Stmt.sites, occurrencesAt_append, occurrencesAt_expression _ _ condition,
        occurrencesAt_statement body, Stmt.occurrences]
  | .functionDeclaration declaration, place =>
      occurrencesAt_function declaration .function _
  | .returnValue _ value, _ => occurrencesAt_optional _ _ value
  | .classDeclaration _ none methods, place =>
      occurrencesAt_methods methods _
  | .classDeclaration name (some parent) methods, place => by
      rw [Stmt.sites, occurrencesAt_cons_of_none rfl, occurrencesAt_append,
        occurrencesAt_methods methods, Stmt.occurrences]
      rfl

theorem occurrencesAt_statements :
    ∀ (body : List Stmt) (place : Place),
      occurrencesAt (Stmt.sitesOfAll place body) = Stmt.occurrencesOfAll body
  | [], _ => rfl
  | first :: rest, place => by
      rw [Stmt.sitesOfAll, occurrencesAt_append, occurrencesAt_statement first,
        occurrencesAt_statements rest, Stmt.occurrencesOfAll]

theorem occurrencesAt_function :
    ∀ (declaration : FunctionDeclaration) (role : FunctionRole) (place : Place),
      occurrencesAt (declaration.sites role place) = declaration.occurrences
  | .intro _ parameters body, role, place => by
      rw [FunctionDeclaration.sites, occurrencesAt_append, occurrencesAt_parameters,
        List.nil_append, occurrencesAt_statements body, FunctionDeclaration.occurrences]

theorem occurrencesAt_methods :
    ∀ (methods : List FunctionDeclaration) (place : Place),
      occurrencesAt (FunctionDeclaration.sitesOfAll place methods) =
        FunctionDeclaration.occurrencesOfAll methods
  | [], _ => rfl
  | first :: rest, place => by
      rw [FunctionDeclaration.sitesOfAll, occurrencesAt_append,
        occurrencesAt_function first, occurrencesAt_methods rest,
        FunctionDeclaration.occurrencesOfAll]

end

/-! ## Verdicts -/

/-- The name or keyword at a site. -/
def Site.token (site : Site) : Identifier :=
  match site.deed with
  | .declares name => name
  | .reads occurrence => occurrence.name
  | .assigns target => target.name
  | .this _ line => ⟨receiverName, line⟩
  | .super _ line => ⟨superclassName, line⟩
  | .returns line => ⟨returnKeyword, line⟩
  | .inherits _ parent => parent

/-- A fault is reported at the name or keyword that breaks the rule. -/
theorem Site.culprit_of_fault?
    {site : Site}
    {error : ScopeError}
    (faulty : site.fault? = some error) :
    error.culprit = site.token := by
  obtain ⟨place, initializing, deed⟩ := site
  cases deed with
  | assigns target => simp [Site.fault?] at faulty
  | _ =>
      simp only [Site.fault?] at faulty
      split at faulty
      all_goals
        first
        | exact Option.some.inj faulty ▸ rfl
        | simp at faulty

/-- A program that was read has distinct identities. -/
theorem nodup_ids_of_parsed
    {tokens : List Token}
    {nextId : NodeId}
    {program : List Stmt}
    {final : Grammar.Reader}
    (parsed : Grammar.program (Grammar.Reader.start tokens nextId) = .ok program final) :
    (idsOf (Stmt.occurrencesOfAll program)).Nodup := by
  rw [idsOf_statements]
  exact (Grammar.program_reads parsed).1.fresh.distinct

/-- What is settled are the occurrences at the sites. -/
theorem settlements_occurrences (sites : List Site) :
    (sites.filterMap Site.settlement?).map (fun settled => (settled.id, settled.name)) =
      occurrencesAt sites := by
  rw [List.map_filterMap]
  unfold occurrencesAt Site.settlement?
  congr
  funext site
  cases site.occurrence? <;> rfl

/-- Every settlement is that of an occurrence at its depth. -/
theorem settlement_binds
    {sites : List Site}
    {settlement : Settlement}
    (member : settlement ∈ sites.filterMap Site.settlement?) :
    ∃ site ∈ sites,
      site.occurrence? = some (settlement.id, settlement.name) ∧
        site.place.Binds settlement.name settlement.depth := by
  obtain ⟨site, inSites, settled⟩ := List.mem_filterMap.mp member
  obtain ⟨occurrence, known, rfl⟩ := Option.map_eq_some_iff.mp settled
  exact ⟨site, inSites, known, site.place.binds_depth? occurrence.2⟩

/-- A rejected program breaks a rule at the site of the error, and nowhere before. -/
theorem firstFault?_eq_some
    {sites : List Site}
    {error : ScopeError}
    (found : firstFault? sites = some error) :
    ∃ before site after,
      sites = before ++ site :: after ∧
        (∀ earlier ∈ before, earlier.fault? = none) ∧ site.fault? = some error := by
  obtain ⟨before, site, after, shape, faulty, faultless⟩ :=
    List.findSome?_eq_some_iff.mp found
  exact ⟨before, site, after, shape, faultless, faulty⟩

/--
A program that was read is accepted exactly if it obeys the scope rules.  When it
is accepted, every occurrence is settled once, at the depth of the innermost scope
that has declared its name before it.  When it is rejected, the error stands at
the name or keyword of the first site that breaks a rule.
-/
theorem resolve_exact
    {tokens : List Token}
    {nextId : NodeId}
    {program : List Stmt}
    {final : Grammar.Reader}
    (parsed : Grammar.program (Grammar.Reader.start tokens nextId) = .ok program final) :
    ((resolve program).verdict = .ok () ↔ ObeysScopeRules program) ∧
      ((resolve program).verdict = .ok () →
        (resolve program).settled.map (fun settled => (settled.id, settled.name)) =
            Stmt.occurrencesOfAll program ∧
          ((resolve program).settled.map (·.id)).Nodup ∧
          ∀ settlement ∈ (resolve program).settled,
            ∃ site ∈ programSites program,
              site.occurrence? = some (settlement.id, settlement.name) ∧
                site.place.Binds settlement.name settlement.depth) ∧
      ∀ error, (resolve program).verdict = .error error →
        ∃ before site after,
          programSites program = before ++ site :: after ∧
            (∀ earlier ∈ before, earlier.fault? = none) ∧
            site.fault? = some error ∧ error.culprit = site.token := by
  obtain ⟨verdict, settled⟩ := resolve_eq program
  have accepted : (resolve program).verdict = .ok () ↔
      firstFault? (programSites program) = none := by
    rw [verdict]
    cases firstFault? (programSites program) <;> simp
  refine ⟨accepted.trans (obeysScopeRules_iff program).symm, ?_, ?_⟩
  · intro fine
    rw [settledAt_of_faultless (accepted.mp fine)] at settled
    have occurrences :
        (resolve program).settled.map (fun settled => (settled.id, settled.name)) =
          Stmt.occurrencesOfAll program := by
      rw [settled, settlements_occurrences]
      exact occurrencesAt_statements program .outermost
    refine ⟨occurrences, ?_, ?_⟩
    · have distinct := nodup_ids_of_parsed parsed
      rw [← occurrences, idsOf, List.map_map] at distinct
      exact distinct
    · intro settlement member
      exact settlement_binds (settled ▸ member)
  · intro error rejected
    rw [verdict] at rejected
    cases found : firstFault? (programSites program) with
    | none => simp [found] at rejected
    | some first =>
        obtain rfl : first = error := by simpa [found] using rejected
        obtain ⟨before, site, after, shape, faultless, faulty⟩ := firstFault?_eq_some found
        exact ⟨before, site, after, shape, faultless, faulty, site.culprit_of_fault? faulty⟩

/-- The tokens of `{ var a; print a; }` are a program that obeys the rules. -/
theorem resolve_exact_block :
    let tokens : List Token :=
      [⟨.symbol .leftBrace, "\x7b", 1⟩, ⟨.keyword .varWord, "var", 1⟩,
        ⟨.identifier, "a", 1⟩, ⟨.symbol .semicolon, ";", 1⟩,
        ⟨.keyword .printWord, "print", 1⟩, ⟨.identifier, "a", 1⟩,
        ⟨.symbol .semicolon, ";", 1⟩, ⟨.symbol .rightBrace, "\x7d", 1⟩]
    ∃ program final,
      Grammar.program (Grammar.Reader.start tokens 0) = .ok program final ∧
        ObeysScopeRules program := by
  intro tokens
  have faultless : (Grammar.readProgram (Grammar.Reader.start tokens 0)).errors = [] :=
    List.isEmpty_iff.mp (by decide +kernel)
  have parsed := Grammar.program_of_faultless faultless
  have accepted :
      (resolve (Grammar.readProgram (Grammar.Reader.start tokens 0)).statements).verdict =
        .ok () := by
    decide +kernel
  exact ⟨_, _, parsed, (resolve_exact parsed).1.mp accepted⟩

end Lox.Scoping
