import Lox.Proofs.Scoping.RenamedPlaces

namespace Lox.Scoping

/-!
# Resolving a renamed program

Renaming a local variable to a name that a program does not use changes no verdict of
resolution: every site of the renamed program breaks a rule exactly if it did before,
and its occurrence is found at the same depth.
-/

variable {naming : Renaming} {around : List Bool} {place : Place}

/-! ## Declarations -/

mutual

/-- A statement declares the names of its declarations. -/
theorem declarations_statement :
    ∀ statement : Stmt, statement.declarations.map Declaration.name = statement.declared
  | .expression _ => rfl
  | .print _ => rfl
  | .varDeclaration _ _ => rfl
  | .block _ => rfl
  | .branch _ consequent none => declarations_statement consequent
  | .branch _ consequent (some alternative) => by
      rw [Stmt.declarations, List.map_append, declarations_statement consequent,
        declarations_statement alternative, Stmt.declared]
  | .loop _ body => declarations_statement body
  | .functionDeclaration _ => rfl
  | .returnValue _ _ => rfl
  | .classDeclaration _ _ _ => rfl

/-- What statements declare has the names that they declare. -/
theorem declarations_statements :
    ∀ body : List Stmt,
      (Stmt.declarationsOfAll body).map Declaration.name = Stmt.declaredByAll body
  | [] => rfl
  | first :: rest => by
      rw [Stmt.declarationsOfAll, List.map_append, declarations_statement first,
        declarations_statements rest, Stmt.declaredByAll]

end

/-- A new name that no site mentions is not declared. -/
theorem unused_declared {name : String} :
    ∀ (statement : Stmt) {place : Place},
      (∀ site ∈ statement.sites place, site.token.text ≠ name) → name ∉ statement.declared
  | .expression _, _, _ => by simp [Stmt.declared]
  | .print _, _, _ => by simp [Stmt.declared]
  | .varDeclaration declared _, _, unused => by
      have other : declared.text ≠ name := unused _ List.mem_cons_self
      simpa [Stmt.declared] using Ne.symm other
  | .block _, _, _ => by simp [Stmt.declared]
  | .branch _ consequent none, _, unused =>
      unused_declared consequent fun site member =>
        unused site (List.mem_append_right _ member)
  | .branch _ consequent (some alternative), _, unused => by
      have inBranches := fun site member => unused site (List.mem_append_right _ member)
      have first := unused_declared consequent fun site member =>
        inBranches site (List.mem_append_left _ member)
      have second := unused_declared alternative fun site member =>
        inBranches site (List.mem_append_right _ member)
      simp [Stmt.declared, first, second]
  | .loop _ body, _, unused =>
      unused_declared body fun site member => unused site (List.mem_append_right _ member)
  | .functionDeclaration declaration, _, unused => by
      have other : declaration.name.text ≠ name := unused _ List.mem_cons_self
      simpa [Stmt.declared] using Ne.symm other
  | .returnValue _ _, _, _ => by simp [Stmt.declared]
  | .classDeclaration declared _ _, _, unused => by
      have other : declared.text ≠ name := unused _ List.mem_cons_self
      simpa [Stmt.declared] using Ne.symm other

/-- Of a statement after renaming, the declared names are the new ones. -/
theorem declared_renamed :
    ∀ (statement : Stmt) (target : Option Address),
      naming.Spares around statement.declarations →
      (statement.renamed naming target around).declared =
        statement.declared.map (naming.text (inMarked around (some 0)))
  | .expression _, _, _ => rfl
  | .print _, _, _ => rfl
  | .varDeclaration _ _, _, _ => rfl
  | .block _, _, _ => rfl
  | .branch _ consequent none, _, spares => declared_renamed consequent _ spares
  | .branch _ consequent (some alternative), _, spares => by
      obtain ⟨first, second⟩ := Renaming.Spares.append spares
      rw [Stmt.renamed, Stmt.declared, declared_renamed consequent _ first,
        declared_renamed alternative _ second, Stmt.declared, List.map_append]
  | .loop _ body, _, spares => declared_renamed body _ spares
  | .functionDeclaration (.intro name _ _), _, spares => by
      simpa [Stmt.renamed, FunctionDeclaration.renamed, Stmt.declared,
        FunctionDeclaration.name] using (Renaming.Spares.text spares).symm
  | .returnValue _ _, _, _ => rfl
  | .classDeclaration name none _, _, spares => by
      simpa [Stmt.renamed, Stmt.declared] using (Renaming.Spares.text spares).symm
  | .classDeclaration name (some _) _, _, spares => by
      simpa [Stmt.renamed, Stmt.declared] using (Renaming.Spares.text spares).symm

/-! ## Judgements -/

/-- The judgements of resolution on sites. -/
def judgements (sites : List Site) : List (Bool × Option (NodeId × Option Nat)) :=
  sites.map Site.judgement

/-- Sites in a row are judged one after the other. -/
@[simp]
theorem judgements_append (earlier later : List Site) :
    judgements (earlier ++ later) = judgements earlier ++ judgements later :=
  List.map_append

@[simp]
theorem judgements_cons (site : Site) (rest : List Site) :
    judgements (site :: rest) = site.judgement :: judgements rest :=
  rfl

/-- Renaming relies on all of some sites. -/
def AllAllowed (naming : Renaming) (sites : List Site) : Prop :=
  ∀ site ∈ sites, naming.Allows site

/-- Sites in a row are allowed if all of them are. -/
theorem AllAllowed.append
    {earlier later : List Site}
    (allowed : AllAllowed naming (earlier ++ later)) :
    AllAllowed naming earlier ∧ AllAllowed naming later :=
  List.forall_mem_append.mp allowed

/-- Sites are allowed if the first one and the others are. -/
theorem AllAllowed.cons
    {site : Site}
    {rest : List Site}
    (allowed : AllAllowed naming (site :: rest)) :
    naming.Allows site ∧ AllAllowed naming rest :=
  List.forall_mem_cons.mp allowed

/-- At allowed sites, the new name is not used. -/
theorem AllAllowed.unused
    {sites : List Site}
    (allowed : AllAllowed naming sites) :
    ∀ site ∈ sites, site.token.text ≠ naming.new :=
  fun site member => (allowed site member).unused

/-- At allowed sites, nothing has been renamed yet. -/
theorem AllAllowed.fresh
    {sites : List Site}
    (allowed : AllAllowed naming sites) :
    AllFresh sites := by
  intro site member name declares
  have faultless := (allowed site member).faultless
  simpa [Site.fault?, declares] using faultless

section

variable {initializing : Option String}

mutual

/-- Renaming changes no judgement in an expression. -/
theorem judgements_expression
    (suits : naming.Suits around place)
    (other : ∀ name ∈ initializing, name ≠ naming.new) :
    ∀ value : Expr, AllAllowed naming (value.sites place initializing) →
      judgements ((value.renamed naming around).sites (naming.placed around place)
          (initializing.map (naming.text (inMarked around (some 0))))) =
        judgements (value.sites place initializing)
  | .literal _, _ => rfl
  | .grouping inner, allowed => judgements_expression suits other inner allowed
  | .unary _ _ operand, allowed => judgements_expression suits other operand allowed
  | .binary _ _ left right, allowed => by
      obtain ⟨inLeft, inRight⟩ := AllAllowed.append allowed
      rw [Expr.renamed, Expr.sites, Expr.sites, judgements_append, judgements_append,
        judgements_expression suits other left inLeft,
        judgements_expression suits other right inRight]
  | .logical _ left right, allowed => by
      obtain ⟨inLeft, inRight⟩ := AllAllowed.append allowed
      rw [Expr.renamed, Expr.sites, Expr.sites, judgements_append, judgements_append,
        judgements_expression suits other left inLeft,
        judgements_expression suits other right inRight]
  | .reference occurrence, allowed => by
      obtain ⟨here, -⟩ := AllAllowed.cons allowed
      exact congrArg ([·]) (Renaming.judgement_reads suits other here)
  | .assign target value, allowed => by
      obtain ⟨inValue, inTarget⟩ := AllAllowed.append allowed
      obtain ⟨here, -⟩ := AllAllowed.cons inTarget
      rw [Expr.renamed, Expr.sites, Expr.sites, judgements_append, judgements_append,
        judgements_expression suits other value inValue]
      exact congrArg (_ ++ [·]) (Renaming.judgement_assigns suits _ here)
  | .call callee arguments _, allowed => by
      obtain ⟨inCallee, inArguments⟩ := AllAllowed.append allowed
      rw [Expr.renamed, Expr.sites, Expr.sites, judgements_append, judgements_append,
        judgements_expression suits other callee inCallee,
        judgements_expressions suits other arguments inArguments]
  | .property object _, allowed => judgements_expression suits other object allowed
  | .setProperty object _ value, allowed => by
      obtain ⟨inValue, inObject⟩ := AllAllowed.append allowed
      rw [Expr.renamed, Expr.sites, Expr.sites, judgements_append, judgements_append,
        judgements_expression suits other value inValue,
        judgements_expression suits other object inObject]
  | .this id line, _ => congrArg ([·]) (Renaming.judgement_this suits _ id line)
  | .super id line _, _ => congrArg ([·]) (Renaming.judgement_super suits _ id line)

/-- Expressions in a row are judged as before. -/
theorem judgements_expressions
    (suits : naming.Suits around place)
    (other : ∀ name ∈ initializing, name ≠ naming.new) :
    ∀ values : List Expr, AllAllowed naming (Expr.sitesOfAll place initializing values) →
      judgements (Expr.sitesOfAll (naming.placed around place)
          (initializing.map (naming.text (inMarked around (some 0))))
          (Expr.renamedAll naming around values)) =
        judgements (Expr.sitesOfAll place initializing values)
  | [], _ => rfl
  | first :: rest, allowed => by
      obtain ⟨inFirst, inRest⟩ := AllAllowed.append allowed
      rw [Expr.renamedAll, Expr.sitesOfAll, Expr.sitesOfAll, judgements_append,
        judgements_append, judgements_expression suits other first inFirst,
        judgements_expressions suits other rest inRest]

end

/-- An expression that may be left out is judged as before. -/
theorem judgements_optional
    (suits : naming.Suits around place)
    (other : ∀ name ∈ initializing, name ≠ naming.new) :
    ∀ value : Option Expr, AllAllowed naming (Expr.sitesOfOptional place initializing value) →
      judgements (Expr.sitesOfOptional (naming.placed around place)
          (initializing.map (naming.text (inMarked around (some 0))))
          (value.map (Expr.renamed naming around))) =
        judgements (Expr.sitesOfOptional place initializing value)
  | none, _ => rfl
  | some value, allowed => judgements_expression suits other value allowed

end

/-- Parameters are renamed as the names that they declare. -/
theorem texts_declared (around : List Bool) (parameters : List Identifier) :
    (parameters.map (naming.declared around)).map (·.text) =
      (parameters.map (·.text)).map (naming.text (inMarked around (some 0))) := by
  rw [List.map_map, List.map_map]
  rfl

/-- Renaming changes no judgement in the parameters of a function. -/
theorem judgements_parameters
    (suits : naming.Suits around place)
    (parameters : List Identifier)
    (allowed : AllAllowed naming (sitesOfParameters place parameters)) :
    judgements (sitesOfParameters (naming.placed around place)
        (parameters.map (naming.declared around))) =
      judgements (sitesOfParameters place parameters) := by
  induction parameters generalizing place with
  | nil => rfl
  | cons first rest inductionHypothesis =>
      obtain ⟨here, behind⟩ := allowed.cons
      have other : first.text ≠ naming.new := here.unused
      have later := inductionHypothesis (suits.declaring (by simpa using Ne.symm other)) behind
      rw [Renaming.placed_declaring suits] at later
      simp only [List.map_cons, sitesOfParameters, judgements_cons]
      rw [Renaming.judgement_declares suits other]
      exact congrArg (_ :: ·) later

/-- The names of parameters are mentioned where they are declared. -/
theorem unused_parameters
    {name : String}
    (parameters : List Identifier)
    (unused : ∀ site ∈ sitesOfParameters place parameters, site.token.text ≠ name) :
    name ∉ parameters.map (·.text) := by
  induction parameters generalizing place with
  | nil => simp
  | cons first rest inductionHypothesis =>
      have other : first.text ≠ name := unused _ List.mem_cons_self
      have behind := inductionHypothesis fun site member =>
        unused site (List.mem_cons_of_mem _ member)
      simp only [List.map_cons, List.mem_cons, not_or]
      exact ⟨Ne.symm other, behind⟩

/-- The scope of a block in an accepted program suits, also if it is that of the variable. -/
theorem opened_block
    {body : List Stmt}
    (suits : naming.Suits around place)
    (proper : Stmt.AllProper body)
    (allowed : AllAllowed naming (Stmt.sitesOfAll place.entering body))
    (target : Option Address) :
    let declarations := Stmt.declarationsOfAll body
    naming.Suits (naming.marks target declarations :: around) place.entering ∧
      naming.Spares (naming.marks target declarations :: around) declarations := by
  intro declarations
  have same := declarations_statements body
  have fits := (freshIff_statements body ((place.entering_fits []).mpr (by simp))).mp
    allowed.fresh
  exact ⟨suits.opening same (Stmt.AllProper.declared_legible proper) target,
    Renaming.spares_opening same ((place.entering_fits _).mp fits.1) target⟩

/-- The scope of a function in an accepted program suits, also if it is that of the variable. -/
theorem opened_function
    {role : FunctionRole}
    {name : Identifier}
    {parameters : List Identifier}
    {body : List Stmt}
    (suits : naming.Suits around place)
    (proper : (FunctionDeclaration.intro name parameters body).Proper)
    (allowed : AllAllowed naming
      ((FunctionDeclaration.intro name parameters body).sites role place))
    (target : Option Address) :
    let declarations :=
      parameters.map (Declaration.variable ·.text) ++ Stmt.declarationsOfAll body
    naming.Suits (naming.marks target declarations :: around) (place.asFunction role).entering ∧
      naming.Spares (naming.marks target declarations :: around) declarations := by
  intro declarations
  have same : declarations.map Declaration.name =
      parameters.map (·.text) ++ Stmt.declaredByAll body := by
    rw [List.map_append, declarations_statements, List.map_map]
    rfl
  have distinct := (freshIff_function (.intro name parameters body) role place).mp
    allowed.fresh _ List.mem_cons_self
  have named := legible_parameters proper.1
  have declared := Stmt.AllProper.declared_legible proper.2
  have legible : receiverName ∉ parameters.map (·.text) ++ Stmt.declaredByAll body ∧
      superclassName ∉ parameters.map (·.text) ++ Stmt.declaredByAll body := by
    simp only [List.mem_append, not_or]
    exact ⟨⟨named.1, declared.1⟩, named.2, declared.2⟩
  exact ⟨(suits.asFunction role).opening same legible target,
    Renaming.spares_opening same distinct target⟩

/-- A function is not renamed with its parameters and its body. -/
theorem name_renamed
    (declaration : FunctionDeclaration)
    (target : Option Address) :
    (declaration.renamed naming target around).name = declaration.name := by
  cases declaration
  rfl

mutual

/-- Renaming changes no judgement in a statement. -/
theorem judgements_statement :
    ∀ (statement : Stmt) (target : Option Address) {around : List Bool} {place : Place},
      naming.Suits around place → naming.Spares around statement.declarations →
      statement.Proper → AllAllowed naming (statement.sites place) →
      judgements ((statement.renamed naming target around).sites (naming.placed around place)) =
        judgements (statement.sites place)
  | .expression value, _, _, _, suits, _, _, allowed =>
      judgements_expression suits (by simp) value allowed
  | .print value, _, _, _, suits, _, _, allowed =>
      judgements_expression suits (by simp) value allowed
  | .varDeclaration name initializer, _, around, place, suits, _, _, allowed => by
      obtain ⟨here, behind⟩ := AllAllowed.cons allowed
      have other : name.text ≠ naming.new := here.unused
      have inside := judgements_optional (suits.declaring (by simpa using Ne.symm other))
        (by simpa using other) initializer behind
      rw [Renaming.placed_declaring suits] at inside
      rw [Stmt.renamed, Stmt.sites, Stmt.sites, judgements_cons, judgements_cons,
        Renaming.judgement_declares suits other]
      exact congrArg (_ :: ·) inside
  | .block body, target, _, _, suits, _, proper, allowed => by
      obtain ⟨opened, spares⟩ := opened_block suits proper allowed target
      exact judgements_statements body target 0 opened spares proper allowed
  | .branch condition consequent none, _, _, _, suits, spares, proper, allowed => by
      obtain ⟨inCondition, inConsequent⟩ := AllAllowed.append allowed
      rw [Stmt.renamed, Stmt.sites, Stmt.sites, judgements_append, judgements_append,
        judgements_statement consequent _ suits spares proper.2.1 inConsequent]
      exact congrArg (· ++ _) (judgements_expression suits (by simp) condition inCondition)
  | .branch condition consequent (some alternative), target, _, _, suits, spares, proper,
      allowed => by
      obtain ⟨inCondition, inBranches⟩ := AllAllowed.append allowed
      obtain ⟨inConsequent, inAlternative⟩ := AllAllowed.append inBranches
      obtain ⟨sparesFirst, sparesSecond⟩ := Renaming.Spares.append spares
      have behind := judgements_statement alternative (below target 1)
        (suits.declaring (unused_declared consequent inConsequent.unused)) sparesSecond
        proper.2.2.1 inAlternative
      rw [Renaming.placed_declaring suits] at behind
      rw [Stmt.renamed, Stmt.sites, Stmt.sites, declared_renamed consequent _ sparesFirst]
      simp only [judgements_append]
      rw [judgements_statement consequent _ suits sparesFirst proper.2.1.1 inConsequent, behind]
      exact congrArg (· ++ _) (judgements_expression suits (by simp) condition inCondition)
  | .loop condition body, _, _, _, suits, spares, proper, allowed => by
      obtain ⟨inCondition, inBody⟩ := AllAllowed.append allowed
      rw [Stmt.renamed, Stmt.sites, Stmt.sites, judgements_append, judgements_append,
        judgements_statement body _ suits spares proper.2.1 inBody]
      exact congrArg (· ++ _) (judgements_expression suits (by simp) condition inCondition)
  | .functionDeclaration declaration, target, around, place, suits, spares, proper, allowed => by
      obtain ⟨here, behind⟩ := AllAllowed.cons allowed
      have declares := Renaming.judgement_defines suits spares here
      have inside := judgements_function declaration .function target
        (suits.declaring (Renaming.unused_one here)) proper.2 behind
      rw [Renaming.placed_declaring_definition suits spares] at inside
      rw [Stmt.renamed, Stmt.sites, Stmt.sites, name_renamed, judgements_cons, judgements_cons,
        declares]
      exact congrArg (_ :: ·) inside
  | .returnValue line value, _, _, _, suits, _, _, allowed => by
      obtain ⟨-, behind⟩ := AllAllowed.cons allowed
      exact congrArg (_ :: ·) (judgements_optional suits (by simp) value behind)
  | .classDeclaration name none methods, target, _, _, suits, spares, proper, allowed => by
      obtain ⟨here, behind⟩ := AllAllowed.cons allowed
      have declares := Renaming.judgement_defines suits spares here
      have named := suits.declaring (Renaming.unused_one here)
      have inside := judgements_methods methods target 0
        ((named.asClass .base).holding (.inl rfl)) proper.2 behind
      rw [Renaming.placed_holding, Renaming.placed_asClass,
        Renaming.placed_declaring_definition suits spares] at inside
      rw [Stmt.renamed, Stmt.sites, Stmt.sites, judgements_cons, judgements_cons, declares]
      exact congrArg (_ :: ·) inside
  | .classDeclaration name (some parent) methods, target, _, _, suits, spares, proper,
      allowed => by
      obtain ⟨here, behind⟩ := AllAllowed.cons allowed
      obtain ⟨inherits, inRest⟩ := AllAllowed.cons behind
      obtain ⟨reads, inMethods⟩ := AllAllowed.cons inRest
      have declares := Renaming.judgement_defines suits spares here
      have named := suits.declaring (Renaming.unused_one here)
      have judgedInherits := Renaming.judgement_inherits spares here.unused inherits
      have judgedReads := Renaming.judgement_reads named (by simp) reads
      have inside := judgements_methods methods target 0
        (((named.asClass .subclass).holding (.inr rfl)).holding (.inl rfl)) proper.2 inMethods
      rw [Renaming.placed_holding, Renaming.placed_holding, Renaming.placed_asClass,
        Renaming.placed_declaring_definition suits spares] at inside
      rw [Renaming.placed_declaring_definition suits spares] at judgedInherits judgedReads
      rw [Stmt.renamed, Stmt.sites, Stmt.sites, judgements_cons, judgements_cons, declares]
      simp only [sitesOfSuperclass, List.cons_append, List.nil_append, judgements_cons]
      rw [judgedInherits]
      exact congrArg (_ :: _ :: ·) (congrArg₂ List.cons judgedReads inside)

/-- Statements in a row are judged as before. -/
theorem judgements_statements :
    ∀ (body : List Stmt) (target : Option Address) (position : Nat) {around : List Bool}
      {place : Place},
      naming.Suits around place → naming.Spares around (Stmt.declarationsOfAll body) →
      Stmt.AllProper body → AllAllowed naming (Stmt.sitesOfAll place body) →
      judgements (Stmt.sitesOfAll (naming.placed around place)
          (Stmt.renamedAll naming target position around body)) =
        judgements (Stmt.sitesOfAll place body)
  | [], _, _, _, _, _, _, _, _ => rfl
  | first :: rest, target, position, around, place, suits, spares, proper, allowed => by
      obtain ⟨inFirst, inRest⟩ := AllAllowed.append allowed
      obtain ⟨sparesFirst, sparesRest⟩ := Renaming.Spares.append spares
      have behind := judgements_statements rest target (position + 1)
        (suits.declaring (unused_declared first inFirst.unused)) sparesRest proper.2 inRest
      rw [Renaming.placed_declaring suits] at behind
      rw [Stmt.renamedAll, Stmt.sitesOfAll, Stmt.sitesOfAll,
        declared_renamed first _ sparesFirst, judgements_append, judgements_append, behind,
        judgements_statement first _ suits sparesFirst proper.1 inFirst]

/-- Renaming changes no judgement in a function. -/
theorem judgements_function :
    ∀ (declaration : FunctionDeclaration) (role : FunctionRole) (target : Option Address)
      {around : List Bool} {place : Place},
      naming.Suits around place → declaration.Proper →
      AllAllowed naming (declaration.sites role place) →
      judgements ((declaration.renamed naming target around).sites role
          (naming.placed around place)) =
        judgements (declaration.sites role place)
  | .intro name parameters body, role, target, around, place, suits, proper, allowed => by
      obtain ⟨opened, spares⟩ := opened_function suits proper allowed target
      obtain ⟨inParameters, inBody⟩ := AllAllowed.append allowed
      have inside := judgements_statements body target 0
        (opened.declaring (unused_parameters parameters inParameters.unused))
        (Renaming.Spares.append spares).2 proper.2 inBody
      rw [Renaming.placed_declaring opened] at inside
      rw [FunctionDeclaration.renamed, FunctionDeclaration.sites, FunctionDeclaration.sites]
      have declares := judgements_parameters opened parameters inParameters
      rw [← texts_declared] at inside
      rw [judgements_append, judgements_append]
      exact congrArg₂ (· ++ ·) declares inside

/-- Methods are judged as before. -/
theorem judgements_methods :
    ∀ (methods : List FunctionDeclaration) (target : Option Address) (position : Nat)
      {around : List Bool} {place : Place},
      naming.Suits around place → FunctionDeclaration.AllProper methods →
      AllAllowed naming (FunctionDeclaration.sitesOfAll place methods) →
      judgements (FunctionDeclaration.sitesOfAll (naming.placed around place)
          (FunctionDeclaration.renamedAll naming target position around methods)) =
        judgements (FunctionDeclaration.sitesOfAll place methods)
  | [], _, _, _, _, _, _, _ => rfl
  | first :: rest, target, position, around, place, suits, proper, allowed => by
      obtain ⟨inFirst, inRest⟩ := AllAllowed.append allowed
      rw [FunctionDeclaration.renamedAll, FunctionDeclaration.sitesOfAll,
        FunctionDeclaration.sitesOfAll, judgements_append, judgements_append,
        judgements_function first .method _ suits proper.1 inFirst,
        judgements_methods rest target (position + 1) suits proper.2 inRest]

end

/-! ## Programs -/

/-- What obeys the rules and has its occurrences at the same depths has equal judgements. -/
theorem faultless_of_judgements
    {sites others : List Site}
    (same : judgements others = judgements sites)
    (faultless : ∀ site ∈ sites, site.fault? = none) :
    ∀ site ∈ others, site.fault? = none := by
  have obeying : ∀ judgement ∈ judgements sites, judgement.1 = true := by
    intro judgement member
    obtain ⟨site, inSites, rfl⟩ := List.mem_map.mp member
    simp [Site.judgement, faultless site inSites]
  intro site member
  have judged : site.judgement ∈ judgements sites := same ▸ List.mem_map_of_mem member
  simpa [Site.judgement] using obeying _ judged

/-- The depths that are settled are those of the judgements. -/
theorem settlements_depths (sites : List Site) :
    (sites.filterMap Site.settlement?).map (fun settled => (settled.id, settled.depth)) =
      (judgements sites).filterMap (·.2) := by
  rw [List.map_filterMap, judgements, List.filterMap_map]
  congr
  funext site
  simp only [Site.settlement?, Site.judgement, Function.comp_apply, Option.map_map]
  rfl

/-- No identity is settled in two ways in a program. -/
def SettledOnce (program : List Stmt) : Prop :=
  ∀ settlement ∈ (resolve program).settled, ∀ found ∈ (resolve program).settled,
    settlement.id = found.id → settlement = found

/-- The depth of an occurrence in a program is the one at which it is settled. -/
theorem depthIn_of_settled
    {program : List Stmt}
    (once : SettledOnce program)
    {settlement : Settlement}
    (settled : settlement ∈ (resolve program).settled) :
    depthIn program settlement.id = settlement.depth := by
  unfold depthIn
  cases found : (resolve program).settled.find? (·.id = settlement.id) with
  | none =>
      have missing := List.find?_eq_none.mp found settlement settled
      simp at missing
  | some other =>
      have member := List.mem_of_find?_eq_some found
      have same : other.id = settlement.id := by simpa using List.find?_some found
      obtain rfl := once other member settlement settled same
      rfl

section

variable {program : List Stmt} {old new : String}

/-- An accepted program allows for a name that it does not use. -/
theorem allAllowed_of_accepted
    (once : SettledOnce program)
    (accepted : (resolve program).verdict = .ok ())
    (unused : ∀ site ∈ programSites program, site.token.text ≠ new) :
    AllAllowed ⟨old, new, depthIn program⟩ (programSites program) := by
  intro site member
  refine ⟨List.findSome?_eq_none_iff.mp (faultless_of_accepted accepted) site member,
    unused site member, ?_⟩
  intro id name known
  exact depthIn_of_settled once (mem_settled_of_accepted accepted member known)

/-- A program is still accepted after renaming, with every occurrence at its depth. -/
theorem resolve_renameVariable
    (proper : Stmt.AllProper program)
    (once : SettledOnce program)
    (accepted : (resolve program).verdict = .ok ())
    (legible : LegibleName new)
    (unused : ∀ site ∈ programSites program, site.token.text ≠ new)
    (address : Address) :
    (resolve (renameVariable program address old new)).verdict = .ok () ∧
      (resolve (renameVariable program address old new)).settled.map
          (fun settled => (settled.id, settled.depth)) =
        (resolve program).settled.map (fun settled => (settled.id, settled.depth)) := by
  have allowed : AllAllowed ⟨old, new, depthIn program⟩ (programSites program) :=
    allAllowed_of_accepted once accepted unused
  have same : judgements (programSites (renameVariable program address old new)) =
      judgements (programSites program) :=
    judgements_statements program (some address) 0 (.outermost legible)
      (fun marked => by simp [inMarked] at marked) proper allowed
  have faultless : firstFault? (programSites (renameVariable program address old new)) = none :=
    List.findSome?_eq_none_iff.mpr
      (faultless_of_judgements same fun site member => (allowed site member).faultless)
  have stillAccepted : (resolve (renameVariable program address old new)).verdict = .ok () := by
    rw [(resolve_eq _).1, faultless]
  refine ⟨stillAccepted, ?_⟩
  rw [settled_of_accepted stillAccepted, settled_of_accepted accepted, settlements_depths,
    settlements_depths, same]

end

end Lox.Scoping
