import Lox.Proofs.Scoping.Walk

namespace Lox

open Scoping

/-!
# The scope rules

The rules are put as properties of a program: which names a scope declares, and
what surrounds the points at which names and keywords are used.  A program obeys
them exactly if no site breaks one, although a name that is declared twice is
found at its second declaration only.
-/

/-! ## Local scopes -/

mutual

/-- The names that every local scope in a statement declares, scope by scope. -/
def Stmt.localScopes : Stmt → List (List String)
  | .block body => Stmt.declaredByAll body :: Stmt.localScopesOfAll body
  | .branch _ consequent none => consequent.localScopes
  | .branch _ consequent (some alternative) =>
      consequent.localScopes ++ alternative.localScopes
  | .loop _ body => body.localScopes
  | .functionDeclaration declaration => declaration.localScopes
  | .classDeclaration _ _ methods => FunctionDeclaration.localScopesOfAll methods
  | .expression _ => []
  | .print _ => []
  | .varDeclaration _ _ => []
  | .returnValue _ _ => []

/-- The names that every local scope in statements declares. -/
def Stmt.localScopesOfAll : List Stmt → List (List String)
  | [] => []
  | first :: rest => first.localScopes ++ Stmt.localScopesOfAll rest

/-- The names that every local scope in a function declares; the first is its own. -/
def FunctionDeclaration.localScopes : FunctionDeclaration → List (List String)
  | .intro _ parameters body =>
      (parameters.map (·.text) ++ Stmt.declaredByAll body) ::
        Stmt.localScopesOfAll body

/-- The names that every local scope in functions declares. -/
def FunctionDeclaration.localScopesOfAll :
    List FunctionDeclaration → List (List String)
  | [] => []
  | first :: rest =>
      first.localScopes ++ FunctionDeclaration.localScopesOfAll rest

end

namespace Scoping

/-- The scope rules of the language. -/
structure ObeysScopeRules (program : List Stmt) : Prop where
  /-- No local scope declares a name twice. -/
  distinctNames : ∀ names ∈ Stmt.localScopesOfAll program, names.Nodup
  /-- No local variable is read in its own initializer. -/
  initializedFirst :
    ∀ site ∈ programSites program, ∀ occurrence, site.deed = .reads occurrence →
      site.place.scopes ≠ [] → site.initializing ≠ some occurrence.name.text
  /-- Every return is in a function. -/
  returnsInFunctions :
    ∀ site ∈ programSites program, ∀ line, site.deed = .returns line →
      site.place.functionRole ≠ none
  /-- Every `this` is in a class. -/
  receiversInClasses :
    ∀ site ∈ programSites program, ∀ id line, site.deed = .this id line →
      site.place.classRole ≠ none
  /-- Every `super` is in a class whose innermost declaration has a superclass. -/
  supersInSubclasses :
    ∀ site ∈ programSites program, ∀ id line, site.deed = .super id line →
      site.place.classRole = some .subclass
  /-- No class names itself as its superclass. -/
  othersAsSuperclass :
    ∀ site ∈ programSites program, ∀ name parent, site.deed = .inherits name parent →
      parent.text ≠ name.text

/-! ## Names declared twice -/

/-- A site does not declare a name that its scope has already. -/
def Site.Fresh (site : Site) : Prop :=
  ∀ name, site.deed = .declares name → site.place.hasLocally name.text = false

/-- The innermost scope of a place may declare more names without a repetition. -/
def Place.Fits (place : Place) (names : List String) : Prop :=
  ∀ innermost ∈ place.scopes.head?, (innermost ++ names).Nodup

namespace Place

/-- Names in two parts fit if the second part fits behind the first. -/
theorem fits_append (place : Place) (earlier later : List String) :
    place.Fits (earlier ++ later) ↔
      place.Fits earlier ∧ (place.declaring earlier).Fits later := by
  unfold Fits declaring
  cases shape : place.scopes with
  | nil => simp [shape]
  | cons innermost outer =>
      simp only [List.head?_cons, Option.mem_def, Option.some.injEq, forall_eq',
        List.append_assoc]
      constructor
      · intro distinct
        refine ⟨?_, distinct⟩
        rw [← List.append_assoc] at distinct
        exact (List.nodup_append.mp distinct).1
      · exact And.right

/-- One more name fits if the innermost scope does not have it. -/
theorem fits_one {place : Place} (fits : place.Fits []) (name : String) :
    place.Fits [name] ↔ place.hasLocally name = false := by
  unfold Fits hasLocally at *
  cases shape : place.scopes with
  | nil => simp
  | cons innermost outer =>
      have distinct : innermost.Nodup := by simpa [shape] using fits
      simp only [List.head?_cons, Option.mem_def, Option.some.injEq, forall_eq',
        Option.any_some, decide_eq_false_iff_not]
      rw [List.nodup_append]
      constructor
      · rintro ⟨-, -, apart⟩ member
        exact apart name member name (by simp) rfl
      · intro new
        refine ⟨distinct, by simp, ?_⟩
        intro found member other isName same
        simp only [List.mem_singleton] at isName
        exact new (isName ▸ same ▸ member)

theorem entering_fits (place : Place) (names : List String) :
    place.entering.Fits names ↔ names.Nodup := by
  simp [Fits, entering]

theorem Fits.behind {place : Place} {names : List String} (fits : place.Fits names) :
    (place.declaring names).Fits [] := by
  have split := place.fits_append names []
  rw [List.append_nil] at split
  exact (split.mp fits).2

end Place

/-! ## Sites of expressions -/

/-- A site inside an expression: an occurrence at the place of the whole expression. -/
structure Site.InExpression
    (site : Site)
    (place : Place)
    (initializing : Option String) :
    Prop where
  place : site.place = place
  initializing : site.initializing = initializing
  occurs : site.occurrence?.isSome = true

mutual

/-- All sites of an expression are at the place of the expression. -/
theorem sites_inExpression (place : Place) (initializing : Option String) :
    ∀ value : Expr, ∀ site ∈ value.sites place initializing,
      site.InExpression place initializing
  | .literal _, site, member => by simp [Expr.sites] at member
  | .grouping inner, site, member =>
      sites_inExpression place initializing inner site member
  | .unary _ _ operand, site, member =>
      sites_inExpression place initializing operand site member
  | .binary _ _ left right, site, member => by
      rcases List.mem_append.mp member with inLeft | inRight
      · exact sites_inExpression place initializing left site inLeft
      · exact sites_inExpression place initializing right site inRight
  | .logical _ left right, site, member => by
      rcases List.mem_append.mp member with inLeft | inRight
      · exact sites_inExpression place initializing left site inLeft
      · exact sites_inExpression place initializing right site inRight
  | .reference _, site, member => by
      obtain rfl := List.mem_singleton.mp member
      exact ⟨rfl, rfl, rfl⟩
  | .assign _ value, site, member => by
      rcases List.mem_append.mp member with inValue | isTarget
      · exact sites_inExpression place initializing value site inValue
      · obtain rfl := List.mem_singleton.mp isTarget
        exact ⟨rfl, rfl, rfl⟩
  | .call callee arguments _, site, member => by
      rcases List.mem_append.mp member with inCallee | inArguments
      · exact sites_inExpression place initializing callee site inCallee
      · exact sitesOfAll_inExpression place initializing arguments site inArguments
  | .property object _, site, member =>
      sites_inExpression place initializing object site member
  | .setProperty object _ value, site, member => by
      rcases List.mem_append.mp member with inValue | inObject
      · exact sites_inExpression place initializing value site inValue
      · exact sites_inExpression place initializing object site inObject
  | .this _ _, site, member => by
      obtain rfl := List.mem_singleton.mp member
      exact ⟨rfl, rfl, rfl⟩
  | .super _ _ _, site, member => by
      obtain rfl := List.mem_singleton.mp member
      exact ⟨rfl, rfl, rfl⟩

theorem sitesOfAll_inExpression (place : Place) (initializing : Option String) :
    ∀ values : List Expr, ∀ site ∈ Expr.sitesOfAll place initializing values,
      site.InExpression place initializing
  | [], site, member => by simp [Expr.sitesOfAll] at member
  | first :: rest, site, member => by
      rcases List.mem_append.mp member with inFirst | inRest
      · exact sites_inExpression place initializing first site inFirst
      · exact sitesOfAll_inExpression place initializing rest site inRest

end

theorem sitesOfOptional_inExpression
    (place : Place)
    (initializing : Option String)
    (value : Option Expr) :
    ∀ site ∈ Expr.sitesOfOptional place initializing value,
      site.InExpression place initializing := by
  cases value with
  | none => simp [Expr.sitesOfOptional]
  | some value => exact sites_inExpression place initializing value

/-- An occurrence declares nothing. -/
theorem Site.InExpression.fresh
    {site : Site}
    {place : Place}
    {initializing : Option String}
    (inside : site.InExpression place initializing) :
    site.Fresh := by
  intro name declares
  have occurs := inside.occurs
  simp [occurrence?, declares] at occurs

/-! ## Declarations at their sites -/

/-- All sites in a row are fresh. -/
def AllFresh (sites : List Site) : Prop :=
  ∀ site ∈ sites, site.Fresh

/-- Two rows of sites are fresh if both are. -/
theorem allFresh_append (earlier later : List Site) :
    AllFresh (earlier ++ later) ↔ AllFresh earlier ∧ AllFresh later := by
  simp only [AllFresh, List.mem_append]
  constructor
  · intro fresh
    exact ⟨fun site member => fresh site (.inl member),
      fun site member => fresh site (.inr member)⟩
  · rintro ⟨first, second⟩ site (inFirst | inSecond)
    · exact first site inFirst
    · exact second site inSecond

theorem allFresh_of_inExpression
    {sites : List Site}
    {place : Place}
    {initializing : Option String}
    (inside : ∀ site ∈ sites, site.InExpression place initializing) :
    AllFresh sites :=
  fun site member => (inside site member).fresh

/-- A declaration in front of sites is fresh if its name fits. -/
theorem allFresh_declares
    {place : Place}
    (fits : place.Fits [])
    (name : Identifier)
    (sites : List Site) :
    AllFresh (⟨place, none, .declares name⟩ :: sites) ↔
      place.Fits [name.text] ∧ AllFresh sites := by
  rw [Place.fits_one fits]
  simp only [AllFresh, List.mem_cons, forall_eq_or_imp, Site.Fresh]
  simp

/-- Parameters are fresh if their names are distinct. -/
theorem allFresh_parameters
    {place : Place}
    (fits : place.Fits [])
    (names : List Identifier) :
    AllFresh (sitesOfParameters place names) ↔ place.Fits (names.map (·.text)) := by
  induction names generalizing place with
  | nil => exact ⟨fun _ => fits, fun _ _ member => by simp [sitesOfParameters] at member⟩
  | cons first rest inductionHypothesis =>
      have split := place.fits_append [first.text] (rest.map (·.text))
      rw [sitesOfParameters, allFresh_declares fits]
      refine Iff.trans ?_ split.symm
      exact and_congr_right fun fitsFirst => inductionHypothesis fitsFirst.behind

theorem allFresh_cons_of_fresh
    {site : Site}
    (fresh : site.Fresh)
    (sites : List Site) :
    AllFresh (site :: sites) ↔ AllFresh sites := by
  simp [AllFresh, fresh]

theorem allFresh_superclass
    (place : Place)
    (name : Identifier)
    (superclass : Option Reference) :
    AllFresh (sitesOfSuperclass place name superclass) := by
  cases superclass <;> simp [AllFresh, sitesOfSuperclass, Site.Fresh]

/--
Sites are fresh exactly if the names they add to the scope around them fit there
and the scopes inside repeat no name.
-/
def FreshIff
    (place : Place)
    (sites : List Site)
    (declared : List String)
    (scopes : List (List String)) :
    Prop :=
  AllFresh sites ↔ place.Fits declared ∧ ∀ names ∈ scopes, names.Nodup

namespace FreshIff

variable {place : Place} {sites earlier later : List Site}
  {declared before behind : List String} {scopes outer inner : List (List String)}

theorem of_allFresh (fits : place.Fits []) (fresh : AllFresh sites) :
    FreshIff place sites [] [] :=
  ⟨fun _ => ⟨fits, by simp⟩, fun _ => fresh⟩

/-- Sites in a row, the later ones behind what the earlier ones declare. -/
theorem append
    (first : FreshIff place earlier before outer)
    (second : place.Fits before →
      FreshIff (place.declaring before) later behind inner) :
    FreshIff place (earlier ++ later) (before ++ behind) (outer ++ inner) := by
  unfold FreshIff
  rw [allFresh_append, place.fits_append]
  constructor
  · rintro ⟨freshFirst, freshSecond⟩
    obtain ⟨fits, scopes⟩ := first.mp freshFirst
    obtain ⟨fitsBehind, scopesBehind⟩ := (second fits).mp freshSecond
    refine ⟨⟨fits, fitsBehind⟩, fun names member => ?_⟩
    rcases List.mem_append.mp member with inOuter | inInner
    · exact scopes names inOuter
    · exact scopesBehind names inInner
  · rintro ⟨⟨fits, fitsBehind⟩, all⟩
    refine ⟨first.mpr ⟨fits, fun names member => ?_⟩,
      (second fits).mpr ⟨fitsBehind, fun names member => ?_⟩⟩
    · exact all names (List.mem_append_left inner member)
    · exact all names (List.mem_append_right outer member)

theorem behind_expression
    (fits : place.Fits [])
    (fresh : AllFresh earlier)
    (second : FreshIff place later declared scopes) :
    FreshIff place (earlier ++ later) declared scopes := by
  refine (of_allFresh fits fresh).append fun _ => ?_
  rwa [Place.declaring_nil]

end FreshIff

mutual

/-- A statement repeats no name if its own names fit and its scopes repeat none. -/
theorem freshIff_statement :
    ∀ (statement : Stmt) {place : Place}, place.Fits [] →
      FreshIff place (statement.sites place) statement.declared statement.localScopes
  | .expression value, _, fits =>
      .of_allFresh fits (allFresh_of_inExpression (sites_inExpression _ none value))
  | .print value, _, fits =>
      .of_allFresh fits (allFresh_of_inExpression (sites_inExpression _ none value))
  | .varDeclaration name initializer, place, fits => by
      unfold FreshIff
      rw [Stmt.sites, allFresh_declares fits]
      simpa [Stmt.declared, Stmt.localScopes] using fun _ =>
        allFresh_of_inExpression (sitesOfOptional_inExpression _ _ initializer)
  | .block body, place, fits => by
      have inside := freshIff_statements body ((place.entering_fits []).mpr (by simp))
      unfold FreshIff at inside ⊢
      rw [Stmt.sites, inside, Place.entering_fits]
      simp [Stmt.declared, Stmt.localScopes, fits]
  | .branch condition consequent none, _, fits =>
      .behind_expression fits
        (allFresh_of_inExpression (sites_inExpression _ none condition))
        (freshIff_statement consequent fits)
  | .branch condition consequent (some alternative), _, fits =>
      .behind_expression fits
        (allFresh_of_inExpression (sites_inExpression _ none condition))
        ((freshIff_statement consequent fits).append fun fitsConsequent =>
          freshIff_statement alternative fitsConsequent.behind)
  | .loop condition body, _, fits =>
      .behind_expression fits
        (allFresh_of_inExpression (sites_inExpression _ none condition))
        (freshIff_statement body fits)
  | .functionDeclaration declaration, place, fits => by
      unfold FreshIff
      rw [Stmt.sites, allFresh_declares fits, freshIff_function declaration]
      rfl
  | .returnValue line value, place, fits => by
      refine .of_allFresh fits ?_
      rw [Stmt.sites, allFresh_cons_of_fresh (by simp [Site.Fresh])]
      exact allFresh_of_inExpression (sitesOfOptional_inExpression _ _ value)
  | .classDeclaration name superclass methods, place, fits => by
      unfold FreshIff
      rw [Stmt.sites, allFresh_declares fits, allFresh_append, freshIff_methods methods]
      simp [Stmt.declared, Stmt.localScopes, allFresh_superclass]

theorem freshIff_statements :
    ∀ (body : List Stmt) {place : Place}, place.Fits [] →
      FreshIff place (Stmt.sitesOfAll place body) (Stmt.declaredByAll body)
        (Stmt.localScopesOfAll body)
  | [], _, fits => .of_allFresh fits fun _ member => by simp [Stmt.sitesOfAll] at member
  | first :: rest, _, fits =>
      (freshIff_statement first fits).append fun fitsFirst =>
        freshIff_statements rest fitsFirst.behind

/-- A function repeats no name if its scopes repeat none. -/
theorem freshIff_function :
    ∀ (declaration : FunctionDeclaration) (role : FunctionRole) (place : Place),
      AllFresh (declaration.sites role place) ↔
        ∀ names ∈ declaration.localScopes, names.Nodup
  | .intro _ parameters body, role, place => by
      have fits := ((place.asFunction role).entering_fits []).mpr (by simp)
      have listed : FreshIff (place.asFunction role).entering
          (sitesOfParameters (place.asFunction role).entering parameters)
          (parameters.map (·.text)) [] := by
        unfold FreshIff
        rw [allFresh_parameters fits]
        simp
      have whole := listed.append fun fitsParameters =>
        freshIff_statements body fitsParameters.behind
      unfold FreshIff at whole
      rw [FunctionDeclaration.sites, whole, Place.entering_fits]
      simp [FunctionDeclaration.localScopes]

/-- Methods repeat no name if their scopes repeat none. -/
theorem freshIff_methods :
    ∀ (methods : List FunctionDeclaration) (place : Place),
      AllFresh (FunctionDeclaration.sitesOfAll place methods) ↔
        ∀ names ∈ FunctionDeclaration.localScopesOfAll methods, names.Nodup
  | [], _ => by
      simp [AllFresh, FunctionDeclaration.sitesOfAll,
        FunctionDeclaration.localScopesOfAll]
  | first :: rest, place => by
      rw [FunctionDeclaration.sitesOfAll, allFresh_append, freshIff_function first,
        freshIff_methods rest, FunctionDeclaration.localScopesOfAll]
      simp [or_imp, forall_and]

end

/-! ## The rules at the sites -/

/-- A program obeys the rules exactly if none of its sites breaks one. -/
theorem obeysScopeRules_iff (program : List Stmt) :
    ObeysScopeRules program ↔ firstFault? (programSites program) = none := by
  -- Names declared twice are the only rule that is not about one site at a time.
  have names : AllFresh (programSites program) ↔
      ∀ scope ∈ Stmt.localScopesOfAll program, scope.Nodup := by
    have fits : Place.outermost.Fits [] := by simp [Place.Fits, Place.outermost]
    have whole := freshIff_statements program fits
    have everything : Place.outermost.Fits (Stmt.declaredByAll program) := by
      simp [Place.Fits, Place.outermost]
    simpa [programSites, FreshIff, everything] using whole
  unfold firstFault?
  rw [List.findSome?_eq_none_iff]
  constructor
  · intro obeys site member
    cases deed : site.deed with
    | declares name =>
        have fresh := names.mpr obeys.distinctNames site member name deed
        simp [Site.fault?, deed, fresh]
    | reads occurrence =>
        have rule := obeys.initializedFirst site member occurrence deed
        have allowed : ¬ (site.initializing = some occurrence.name.text ∧
            site.place.scopes ≠ []) := fun both => rule both.2 both.1
        simp only [Site.fault?, deed, if_neg allowed]
    | assigns target => simp [Site.fault?, deed]
    | this id line =>
        obtain ⟨role, known⟩ := Option.ne_none_iff_exists'.mp
          (obeys.receiversInClasses site member id line deed)
        simp [Site.fault?, deed, known]
    | super id line =>
        have known := obeys.supersInSubclasses site member id line deed
        simp [Site.fault?, deed, known]
    | returns line =>
        obtain ⟨role, known⟩ := Option.ne_none_iff_exists'.mp
          (obeys.returnsInFunctions site member line deed)
        simp [Site.fault?, deed, known]
    | inherits name parent =>
        have other := obeys.othersAsSuperclass site member name parent deed
        simp [Site.fault?, deed, other]
  · intro faultless
    refine ⟨names.mp ?_, ?_, ?_, ?_, ?_, ?_⟩
    · intro site member name deed
      have fine := faultless site member
      simpa [Site.fault?, deed] using fine
    · intro site member occurrence deed within own
      have fine := faultless site member
      simp [Site.fault?, deed, within, own] at fine
    · intro site member line deed outside
      have fine := faultless site member
      simp [Site.fault?, deed, outside] at fine
    · intro site member id line deed outside
      have fine := faultless site member
      simp [Site.fault?, deed, outside] at fine
    · intro site member id line deed
      have fine := faultless site member
      simp only [Site.fault?, deed] at fine
      split at fine
      · simp at fine
      · simp at fine
      · assumption
    · intro site member name parent deed same
      have fine := faultless site member
      simp [Site.fault?, deed, same] at fine

end Scoping

end Lox
