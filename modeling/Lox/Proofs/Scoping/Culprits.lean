import Lox.Proofs.Grammar.WellFormed
import Lox.Proofs.Scoping.Exact
import Lox.Proofs.Source.Scanned

namespace Lox.Scoping

/-!
# What a scope error is reported at

Every site of a program is a point of one of its nodes, which says the name or keyword at
which the site can break a rule.  In a well-formed program this is a name or keyword among
the tokens.
-/

/-! ## Sites come from nodes -/

/-- What a node does itself at a point to which a scope rule applies. -/
inductive Deed.Of : Deed → Node → Prop where
  | variableName {name initializer} :
      Deed.Of (.declares name) (.statement (.varDeclaration name initializer))
  | functionName {declaration : FunctionDeclaration} :
      Deed.Of (.declares declaration.name) (.function declaration)
  | parameter {declaration : FunctionDeclaration} {name} :
      name ∈ declaration.parameters → Deed.Of (.declares name) (.function declaration)
  | className {name superclass methods} :
      Deed.Of (.declares name) (.statement (.classDeclaration name superclass methods))
  | reads {occurrence} : Deed.Of (.reads occurrence) (.expression (.reference occurrence))
  | assigns {target value} : Deed.Of (.assigns target) (.expression (.assign target value))
  | this {id line} : Deed.Of (.this id line) (.expression (.this id line))
  | super {id line method} : Deed.Of (.super id line) (.expression (.super id line method))
  | returns {line value} : Deed.Of (.returns line) (.statement (.returnValue line value))
  | inherits {name methods} {parent : Reference} :
      Deed.Of (.inherits name parent.name)
        (.statement (.classDeclaration name (some parent) methods))

/-- A site is a point of a node that occurs in a tree. -/
def Site.StemsFrom (tree : Node) (site : Site) : Prop :=
  ∃ node : Node, node.Occurs tree ∧ site.deed.Of node

/-- All sites in a row are points of nodes in a tree. -/
def Stem (tree : Node) (sites : List Site) : Prop :=
  ∀ site ∈ sites, site.StemsFrom tree

namespace Stem

variable {tree child : Node} {earlier later sites : List Site} {place : Place}
  {initializing : Option String} {deed : Deed}

/-- Sites in a row stem from a tree if all of them do. -/
theorem append
    (first : Stem tree earlier)
    (second : Stem tree later) :
    Stem tree (earlier ++ later) :=
  List.forall_mem_append.mpr ⟨first, second⟩

theorem cons
    (own : deed.Of tree)
    (behind : Stem tree sites) :
    Stem tree (⟨place, initializing, deed⟩ :: sites) :=
  List.forall_mem_cons.mpr ⟨⟨tree, .here, own⟩, behind⟩

/-- What stems from a part of a tree stems from the tree. -/
theorem part
    (isPart : child.Part tree)
    (stem : Stem child sites) :
    Stem tree sites := by
  intro site member
  obtain ⟨node, occurs, own⟩ := stem site member
  exact ⟨node, occurs.trans (.inside .here isPart), own⟩

theorem none : Stem tree [] :=
  nofun

end Stem

open Node (Part)

mutual

/-- The sites of an expression are points of nodes in it. -/
theorem stem_expression :
    ∀ (value : Expr) (place : Place) (initializing : Option String),
      Stem (.expression value) (value.sites place initializing)
  | .literal _, _, _ => .none
  | .grouping inner, place, initializing =>
      .part .grouped (stem_expression inner place initializing)
  | .unary _ _ operand, place, initializing =>
      .part .operand (stem_expression operand place initializing)
  | .binary _ _ left right, place, initializing =>
      .append (.part .leftOperand (stem_expression left place initializing))
        (.part .rightOperand (stem_expression right place initializing))
  | .logical _ left right, place, initializing =>
      .append (.part .leftCondition (stem_expression left place initializing))
        (.part .rightCondition (stem_expression right place initializing))
  | .reference _, _, _ => .cons .reads .none
  | .assign _ value, place, initializing =>
      .append (.part .assigned (stem_expression value place initializing))
        (.cons .assigns .none)
  | .call callee arguments _, place, initializing =>
      .append (.part .callee (stem_expression callee place initializing))
        (stem_expressions arguments place initializing fun _ member => .argument member)
  | .property object _, place, initializing =>
      .part .object (stem_expression object place initializing)
  | .setProperty object _ value, place, initializing =>
      .append (.part .field (stem_expression value place initializing))
        (.part .owner (stem_expression object place initializing))
  | .this _ _, _, _ => .cons .this .none
  | .super _ _ _, _, _ => .cons .super .none

/-- The sites of expressions in a row stem from the tree of which these are parts. -/
theorem stem_expressions :
    ∀ (values : List Expr) (place : Place) (initializing : Option String) {tree : Node},
      (∀ value ∈ values, Part (.expression value) tree) →
      Stem tree (Expr.sitesOfAll place initializing values)
  | [], _, _, _, _ => .none
  | first :: rest, place, initializing, _, parts =>
      .append (.part (parts first List.mem_cons_self) (stem_expression first place initializing))
        (stem_expressions rest place initializing fun value member =>
          parts value (List.mem_cons_of_mem _ member))

end

/-- The sites of an expression that may be left out stem from the tree of which it is a part. -/
theorem stem_optional
    (value : Option Expr)
    (place : Place)
    (initializing : Option String)
    {tree : Node}
    (parts : ∀ present ∈ value, Part (.expression present) tree) :
    Stem tree (Expr.sitesOfOptional place initializing value) := by
  cases value with
  | none => exact .none
  | some present => exact .part (parts present rfl) (stem_expression present place initializing)

/-- The sites of parameters stem from their function. -/
theorem stem_parameters
    (names : List Identifier)
    (place : Place)
    {tree : Node}
    (own : ∀ name ∈ names, (Deed.declares name).Of tree) :
    Stem tree (sitesOfParameters place names) := by
  induction names generalizing place with
  | nil => exact .none
  | cons first rest inductionHypothesis =>
      obtain ⟨here, behind⟩ := List.forall_mem_cons.mp own
      exact .cons here (inductionHypothesis _ behind)

/-- The sites of a superclass stem from its class declaration. -/
theorem stem_superclass
    (name : Identifier)
    (superclass : Option Reference)
    (methods : List FunctionDeclaration)
    (place : Place) :
    Stem (.statement (.classDeclaration name superclass methods))
      (sitesOfSuperclass place name superclass) := by
  cases superclass with
  | none => exact .none
  | some parent =>
      exact .cons .inherits (.part .superclass (stem_expression (.reference parent) place none))

mutual

/-- The sites of a statement are points of nodes in it. -/
theorem stem_statement :
    ∀ (single : Stmt) (place : Place), Stem (.statement single) (single.sites place)
  | .expression value, place => .part .effect (stem_expression value place none)
  | .print value, place => .part .printed (stem_expression value place none)
  | .varDeclaration _ initializer, _ =>
      .cons .variableName
        (stem_optional initializer _ _ fun _ present => present ▸ .initializer)
  | .block body, _ => stem_statements body _ fun _ member => .member member
  | .branch condition consequent none, place =>
      .append (.part .condition (stem_expression condition place none))
        (.part .consequent (stem_statement consequent place))
  | .branch condition consequent (some alternative), place =>
      .append (.part .condition (stem_expression condition place none))
        (.append (.part .consequent (stem_statement consequent place))
          (.part .alternative (stem_statement alternative _)))
  | .loop condition body, place =>
      .append (.part .loopCondition (stem_expression condition place none))
        (.part .round (stem_statement body place))
  | .functionDeclaration declaration, _ => by
      refine List.forall_mem_cons.mpr ⟨?_, ?_⟩
      · exact ⟨.function declaration, .inside .here .declared, .functionName⟩
      · exact Stem.part .declared (stem_function declaration .function _)
  | .returnValue _ value, place =>
      .cons .returns (stem_optional value place none fun _ present => present ▸ .returned)
  | .classDeclaration name superclass methods, _ =>
      .cons .className
        (.append (stem_superclass name superclass methods _)
          (stem_methods methods _ fun _ member => .method member))

/-- The sites of statements in a row stem from the tree of which these are parts. -/
theorem stem_statements :
    ∀ (body : List Stmt) (place : Place) {tree : Node},
      (∀ single ∈ body, Part (.statement single) tree) →
      Stem tree (Stmt.sitesOfAll place body)
  | [], _, _, _ => .none
  | first :: rest, place, _, parts =>
      .append (.part (parts first List.mem_cons_self) (stem_statement first place))
        (stem_statements rest _ fun single member =>
          parts single (List.mem_cons_of_mem _ member))

/-- The sites of a function stem from it. -/
theorem stem_function :
    ∀ (declaration : FunctionDeclaration) (role : FunctionRole) (place : Place),
      Stem (.function declaration) (declaration.sites role place)
  | .intro _ parameters body, _, _ =>
      .append (stem_parameters parameters _ fun _ member => .parameter member)
        (stem_statements body _ fun _ member => .run member)

/-- The sites of methods stem from the tree of which these are parts. -/
theorem stem_methods :
    ∀ (methods : List FunctionDeclaration) (place : Place) {tree : Node},
      (∀ method ∈ methods, Part (.function method) tree) →
      Stem tree (FunctionDeclaration.sitesOfAll place methods)
  | [], _, _, _ => .none
  | first :: rest, place, _, parts =>
      .append (.part (parts first List.mem_cons_self) (stem_function first .method place))
        (stem_methods rest place fun method member =>
          parts method (List.mem_cons_of_mem _ member))

end

/-- Every site of a program is a point of a node in one of its statements. -/
theorem stem_program
    (program : List Stmt)
    {site : Site}
    (member : site ∈ programSites program) :
    ∃ single ∈ program, site.StemsFrom (.statement single) := by
  unfold programSites at member
  generalize Place.outermost = place at member
  induction program generalizing place with
  | nil => cases member
  | cons first rest inductionHypothesis =>
      obtain here | behind := List.mem_append.mp member
      · exact ⟨first, List.mem_cons_self, stem_statement first place site here⟩
      · obtain ⟨single, later, stems⟩ := inductionHypothesis _ behind
        exact ⟨single, List.mem_cons_of_mem _ later, stems⟩

/-! ## Culprits -/

/-- Some token has the text of a name or keyword, on its line. -/
def ShownIn (tokens : List Token) (culprit : Identifier) : Prop :=
  ∃ token ∈ tokens, token.lexeme = culprit.text ∧ token.line = culprit.line

section

open Grammar (NamedIn StandsOn WellFormed)

variable {tokens : List Token}

/-- An identifier among the tokens is shown in the source. -/
theorem shownIn_of_named
    {name : Identifier}
    (named : NamedIn tokens name) :
    ShownIn tokens name := by
  obtain ⟨token, among, names⟩ := named
  exact ⟨token, among, names.text.symm, names.line.symm⟩

/-- A keyword among the tokens is shown in the source by its spelling. -/
theorem shownIn_of_keyword
    (spelled : Source.Spelled tokens)
    {word : Keyword}
    {line : Nat}
    (stands : StandsOn tokens (.keyword word) line) :
    ShownIn tokens ⟨word.spelling, line⟩ := by
  obtain ⟨token, among, kind, onLine⟩ := stands
  exact ⟨token, among, spelled token among _ (by rw [kind]; rfl), onLine⟩

/-- The name or keyword at a point of a well-formed node is among the tokens. -/
theorem Site.token_shownIn
    {site : Site}
    {node : Node}
    (own : site.deed.Of node)
    (spelled : Source.Spelled tokens)
    (formed : WellFormed tokens node) :
    ShownIn tokens site.token := by
  obtain ⟨place, initializing, deed⟩ := site
  have here := formed node .here
  cases own with
  | variableName | className | reads | assigns => exact shownIn_of_named here
  | functionName => exact shownIn_of_named here.name
  | parameter member => exact shownIn_of_named (here.parameters _ member)
  | this | returns => exact shownIn_of_keyword spelled here
  | super => exact shownIn_of_keyword spelled here.1
  | inherits => exact shownIn_of_named (formed _ (.inside .here .superclass))

/-- If a program of some tokens is rejected, the culprit is among the tokens. -/
theorem culprit_shown
    {program : List Stmt}
    {error : ScopeError}
    (spelled : Source.Spelled tokens)
    (formed : ∀ single ∈ program, WellFormed tokens (.statement single))
    (rejected : (resolve program).verdict = .error error) :
    ShownIn tokens error.culprit := by
  rw [(resolve_eq program).1] at rejected
  cases found : firstFault? (programSites program) with
  | none => simp [found] at rejected
  | some first =>
      obtain rfl : first = error := by simpa [found] using rejected
      obtain ⟨before, site, after, shape, -, faulty⟩ := firstFault?_eq_some found
      obtain ⟨single, member, node, occurs, own⟩ :=
        stem_program program (shape ▸ List.mem_append_cons_self)
      rw [site.culprit_of_fault? faulty]
      refine Site.token_shownIn own spelled fun part inside => ?_
      exact formed single member part (inside.trans occurs)

end

end Lox.Scoping
