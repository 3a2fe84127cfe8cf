import Lox.Proofs.Computation
import Lox.Proofs.Scoping.Sites
import Lox.Scoping.Resolution
import Mathlib.Data.List.TakeWhile

namespace Lox.Scoping

/-!
# Resolution walks over the sites of a program

At every point of its walk the state of resolution is that of the place it has
reached: one table for every local scope, with all names defined but the one
whose initializer is being resolved.  So resolution checks and settles one site
after another, up to the first fault.
-/

/-! ## Sites in order -/

/-- The first fault among sites. -/
def firstFault? (sites : List Site) : Option ScopeError :=
  sites.findSome? Site.fault?

/-- The occurrences settled at sites in front of the first fault. -/
def settledAt (sites : List Site) : List Settlement :=
  (sites.takeWhile (·.fault?.isNone)).filterMap Site.settlement?

/-- Without a fault, every site is settled that is an occurrence. -/
theorem settledAt_of_faultless
    {sites : List Site}
    (faultless : firstFault? sites = none) :
    settledAt sites = sites.filterMap Site.settlement? := by
  unfold settledAt
  rw [List.takeWhile_eq_self_iff.mpr]
  intro site member
  rw [List.findSome?_eq_none_iff.mp faultless site member]
  rfl

/-- Behind sites without a fault, the first fault is the first one of the others. -/
theorem firstFault?_append_of_faultless
    {earlier : List Site}
    (faultless : firstFault? earlier = none)
    (later : List Site) :
    firstFault? (earlier ++ later) = firstFault? later := by
  unfold firstFault? at faultless ⊢
  rw [List.findSome?_append, faultless, Option.none_or]

/-- A fault that was found stays the first one. -/
theorem firstFault?_append_of_fault
    {earlier : List Site}
    {error : ScopeError}
    (faulty : firstFault? earlier = some error)
    (later : List Site) :
    firstFault? (earlier ++ later) = some error := by
  unfold firstFault? at faulty ⊢
  rw [List.findSome?_append, faulty, Option.some_or]

/-- Behind sites without a fault, more are settled. -/
theorem settledAt_append_of_faultless
    {earlier : List Site}
    (faultless : firstFault? earlier = none)
    (later : List Site) :
    settledAt (earlier ++ later) = settledAt earlier ++ settledAt later := by
  have all : ∀ site ∈ earlier, site.fault?.isNone = true := by
    intro site member
    rw [List.findSome?_eq_none_iff.mp faultless site member]
    rfl
  unfold settledAt
  rw [List.takeWhile_append_of_pos all, List.filterMap_append,
    List.takeWhile_eq_self_iff.mpr all]

/-- Behind a fault, nothing more is settled. -/
theorem settledAt_append_of_fault
    {earlier : List Site}
    {error : ScopeError}
    (faulty : firstFault? earlier = some error)
    (later : List Site) :
    settledAt (earlier ++ later) = settledAt earlier := by
  induction earlier with
  | nil => simp [firstFault?] at faulty
  | cons site rest inductionHypothesis =>
      unfold settledAt firstFault? at *
      cases found : site.fault? with
      | some error => simp [found]
      | none =>
          simp only [List.findSome?_cons, found] at faulty
          simp only [List.cons_append, List.takeWhile_cons, found, Option.isNone_none,
            ↓reduceIte, List.filterMap_cons]
          rw [inductionHypothesis faulty]

/-! ## The state at a place -/

/-- The table of a scope with some names, all defined but one. -/
def tableOf (initializing : Option String) (names : List String) : LocalScope :=
  ⟨names.map fun name =>
    (name, if initializing = some name then .declared else .defined)⟩

/-- The tables of the local scopes at a place. -/
def Place.tables (place : Place) (initializing : Option String) : List LocalScope :=
  match place.scopes with
  | [] => []
  | innermost :: outer => tableOf initializing innermost :: outer.map (tableOf none)

/-- The state of resolution at a place. -/
def Place.resolver
    (place : Place)
    (initializing : Option String)
    (settled : List Settlement) :
    Resolver :=
  ⟨place.tables initializing, place.functionRole, place.classRole, settled⟩

/-- Outside of an initializer, every name of a scope has been defined. -/
theorem Place.tables_none (place : Place) :
    place.tables none = place.scopes.map (tableOf none) := by
  unfold Place.tables
  cases place.scopes <;> rfl

/-- A name has a standing in a table if it is one of the names of the scope. -/
theorem find?_tableOf
    (initializing : Option String)
    (names : List String)
    (name : String) :
    (tableOf initializing names).get? name =
      if name ∈ names then
        some (if initializing = some name then .declared else .defined)
      else
        none := by
  unfold tableOf Bindings.get?
  induction names with
  | nil => rfl
  | cons first rest inductionHypothesis =>
      by_cases same : first = name
      · simp [Bindings.find?, same]
      · have different : name ≠ first := fun equal => same equal.symm
        simpa [Bindings.find?, same, different] using inductionHypothesis

/-- A scope has a name in its table if the name has been declared there. -/
@[simp]
theorem contains_tableOf
    (initializing : Option String)
    (names : List String)
    (name : String) :
    (tableOf initializing names).contains name = decide (name ∈ names) := by
  unfold Bindings.contains
  rw [find?_tableOf]
  by_cases member : name ∈ names <;> simp [member]

/-- The depth of a name in the state at a place is its depth at the place. -/
theorem Place.resolver_depth?
    (place : Place)
    (initializing : Option String)
    (settled : List Settlement)
    (name : String) :
    (place.resolver initializing settled).depth? name = place.depth? name := by
  unfold Place.resolver Resolver.depth? Place.depth? Place.tables
  cases place.scopes with
  | nil => rfl
  | cons innermost outer =>
      simp only [List.findIdx?_cons, contains_tableOf, List.findIdx?_map]
      congr
      funext names
      simp

/-! ## Walks -/

/--
From a state for every list of settled occurrences, an action visits sites: it
settles them on the way to another such state, or stops at their first fault.
-/
def Visits
    (action : Resolving Unit)
    (before : List Settlement → Resolver)
    (sites : List Site)
    (after : List Settlement → Resolver) :
    Prop :=
  ∀ settled,
    match firstFault? sites with
    | none =>
        action (before settled) =
          .ok () (after ((settledAt sites).reverse ++ settled))
    | some error =>
        ∃ final,
          action (before settled) = .error error final ∧
            final.settled = (settledAt sites).reverse ++ settled

namespace Visits

variable {first second action : Resolving Unit}
  {before middle after : List Settlement → Resolver}
  {sites earlier later : List Site}

theorem pure (state : List Settlement → Resolver) : Visits (pure ()) state [] state :=
  fun _ => rfl

/-- A change of the resolver visits no site. -/
theorem modify
    {change : Resolver → Resolver}
    (changes : ∀ settled, change (before settled) = after settled) :
    Visits (modify change) before [] after := by
  intro settled
  change EStateM.Result.ok () (change (before settled)) = _
  rw [changes]
  rfl

/-- A walk without a fault settles its sites, the last one first. -/
theorem ok
    (visits : Visits action before sites after)
    (faultless : firstFault? sites = none)
    (settled : List Settlement) :
    action (before settled) =
      .ok () (after ((settledAt sites).reverse ++ settled)) := by
  have found := visits settled
  rw [faultless] at found
  exact found

/-- With a fault, the action stops there. -/
theorem error
    (visits : Visits action before sites after)
    {error : ScopeError}
    (faulty : firstFault? sites = some error)
    (settled : List Settlement) :
    ∃ final,
      action (before settled) = .error error final ∧
        final.settled = (settledAt sites).reverse ++ settled := by
  have found := visits settled
  rw [faulty] at found
  exact found

/-- Actions in a row visit their sites in a row; the second one may count on the first. -/
theorem bind
    (visits : Visits first before earlier middle)
    (continues : firstFault? earlier = none → Visits second middle later after) :
    Visits (first >>= fun _ => second) before (earlier ++ later) after := by
  intro settled
  cases faults : firstFault? earlier with
  | some error =>
      obtain ⟨final, stopped, kept⟩ := visits.error faults settled
      rw [firstFault?_append_of_fault faults, settledAt_append_of_fault faults]
      exact ⟨final, by rw [bind_apply, stopped], kept⟩
  | none =>
      have given := visits.ok faults settled
      have continued := continues faults ((settledAt earlier).reverse ++ settled)
      rw [firstFault?_append_of_faultless faults, settledAt_append_of_faultless faults,
        List.reverse_append, List.append_assoc, bind_of_ok given]
      exact continued

/-- The resolver may be looked at. -/
theorem get
    {next : Resolver → Resolving Unit}
    (visits : ∀ settled, ∃ action,
      next (before settled) = action ∧ Visits action before sites after) :
    Visits (get >>= next) before sites after := by
  intro settled
  obtain ⟨action, same, known⟩ := visits settled
  rw [bind_of_ok (get_apply (before settled)), same]
  exact known settled

/-- A rule that a site breaks is checked in front of what goes on from the site. -/
theorem one
    {site : Site}
    (faulty : ∀ settled error, site.fault? = some error →
      action (before settled) = .error error (before settled))
    (faultless : ∀ settled, site.fault? = none →
      action (before settled) = .ok () (after (site.settlement?.toList ++ settled)))
    (unchanged : ∀ settled, (before settled).settled = settled) :
    Visits action before [site] after := by
  intro settled
  cases found : site.fault? with
  | some error =>
      simp only [firstFault?, List.findSome?_cons, found]
      refine ⟨before settled, faulty settled error found, ?_⟩
      simp [settledAt, found, unchanged]
  | none =>
      simp only [firstFault?, List.findSome?_cons, List.findSome?_nil, found]
      rw [faultless settled found]
      cases occurrence : site.settlement? <;>
        simp [settledAt, found, occurrence]

/--
An action that changes where it runs and restores it afterwards visits what it
visits there.
-/
theorem around
    {wrapped : Resolving Unit}
    {inner innerAfter : List Settlement → Resolver}
    (visits : Visits action inner sites innerAfter)
    (onOk : ∀ settled rest,
      action (inner settled) = .ok () (innerAfter rest) →
        wrapped (before settled) = .ok () (after rest))
    (onError : ∀ settled error final,
      action (inner settled) = .error error final →
        ∃ outer,
          wrapped (before settled) = .error error outer ∧
            outer.settled = final.settled) :
    Visits wrapped before sites after := by
  intro settled
  have found := visits settled
  split at found
  · exact onOk settled _ found
  next error _ =>
    obtain ⟨final, stopped, kept⟩ := found
    obtain ⟨outer, raised, same⟩ := onError settled error final stopped
    exact ⟨outer, raised, same.trans kept⟩

end Visits

/-! ## Names -/

/-- A name that is new in a table is put at its end. -/
theorem tableOf_insert_new
    {names : List String}
    {name : String}
    (new : name ∉ names)
    (standing : Standing) :
    (tableOf none names).insert name standing =
      tableOf (if standing = .declared then some name else none) (names ++ [name]) := by
  unfold tableOf Bindings.insert
  congr 1
  induction names with
  | nil => cases standing <;> simp [Bindings.replace]
  | cons first rest inductionHypothesis =>
      simp only [List.mem_cons, not_or] at new
      have different : first ≠ name := fun same => new.1 same.symm
      have others := inductionHypothesis new.2
      simp only [List.map_cons, Bindings.replace, if_neg different, List.cons_append,
        others]
      cases standing <;> simp [different.symm]

/-- The name that is being initialized is defined afterwards. -/
theorem tableOf_insert_initialized
    {names : List String}
    {name : String}
    (new : name ∉ names) :
    (tableOf (some name) (names ++ [name])).insert name .defined =
      tableOf none (names ++ [name]) := by
  unfold tableOf Bindings.insert
  congr 1
  induction names with
  | nil => simp [Bindings.replace]
  | cons first rest inductionHypothesis =>
      simp only [List.mem_cons, not_or] at new
      have different : first ≠ name := fun same => new.1 same.symm
      have others := inductionHypothesis new.2
      simp only [List.cons_append, List.map_cons, Bindings.replace, if_neg different,
        others]
      simp [different.symm]

section

variable {place : Place} {name : Identifier}

/-- A name that is declared without a fault was not declared in this scope. -/
theorem not_mem_of_faultless
    {innermost : List String}
    {outer : List (List String)}
    (faultless : firstFault? [⟨place, none, .declares name⟩] = none)
    (shape : place.scopes = innermost :: outer) :
    name.text ∉ innermost := by
  intro member
  simp [firstFault?, Site.fault?, Place.hasLocally, shape, member] at faultless

/-- Declaring a name checks that the scope does not have it. -/
theorem declare_visits :
    Visits (declare name) (place.resolver none) [⟨place, none, .declares name⟩]
      ((place.declaring [name.text]).resolver (some name.text)) := by
  refine .one ?_ ?_ fun _ => rfl
  · intro settled error faulty
    cases shape : place.scopes with
    | nil => simp [Site.fault?, Place.hasLocally, shape] at faulty
    | cons innermost outer =>
        have given : name.text ∈ innermost ∧ ⟨.redeclaration, name⟩ = error := by
          simpa [Site.fault?, Place.hasLocally, shape] using faulty
        obtain ⟨member, rfl⟩ := given
        unfold declare
        rw [bind_of_ok (get_apply _)]
        simp [Place.resolver, Place.tables, shape, member, fail, throw_apply]
  · intro settled faultless
    have none : firstFault? [⟨place, none, .declares name⟩] = none := by
      simp [firstFault?, faultless]
    cases shape : place.scopes with
    | nil =>
        unfold declare
        rw [bind_of_ok (get_apply _)]
        simp [Place.resolver, Place.tables, Place.declaring, shape, pure_apply,
          Site.settlement?, Site.occurrence?]
    | cons innermost outer =>
        have new := not_mem_of_faultless none shape
        unfold declare
        rw [bind_of_ok (get_apply _)]
        simp [Place.resolver, Place.tables, Place.declaring, shape, new, record,
          modify_apply, tableOf_insert_new new, Site.settlement?, Site.occurrence?]

/-- Behind its initializer, a name is defined. -/
theorem define_visits
    (faultless : firstFault? [⟨place, none, .declares name⟩] = none) :
    Visits (define name.text)
      ((place.declaring [name.text]).resolver (some name.text)) []
      ((place.declaring [name.text]).resolver none) := by
  refine .modify fun settled => ?_
  cases shape : place.scopes with
  | nil => simp [Place.resolver, Place.tables, Place.declaring, shape]
  | cons innermost outer =>
      have new := not_mem_of_faultless faultless shape
      simp [Place.resolver, Place.tables, Place.declaring, shape,
        tableOf_insert_initialized new]

/-- A name that is introduced is declared and defined at once. -/
theorem introduce_visits :
    Visits (introduce name) (place.resolver none) [⟨place, none, .declares name⟩]
      ((place.declaring [name.text]).resolver none) :=
  declare_visits.bind define_visits

end

/-- Names may be declared in two parts. -/
theorem Place.declaring_append (place : Place) (earlier later : List String) :
    (place.declaring earlier).declaring later = place.declaring (earlier ++ later) := by
  unfold Place.declaring
  cases shape : place.scopes <;> simp [shape]

theorem Place.declaring_nil (place : Place) : place.declaring [] = place := by
  unfold Place.declaring
  split
  · rfl
  next shape => simp [← shape]

/-- Declarations put no scope around a place. -/
theorem Place.length_declaring (place : Place) (names : List String) :
    (place.declaring names).scopes.length = place.scopes.length := by
  unfold Place.declaring
  cases shape : place.scopes with
  | nil => rw [shape, List.length_nil]
  | cons innermost outer => rfl

/-- Introducing names checks them one after another. -/
theorem introduceAll_visits (place : Place) (names : List Identifier) :
    Visits (introduceAll names) (place.resolver none) (sitesOfParameters place names)
      ((place.declaring (names.map (·.text))).resolver none) := by
  induction names generalizing place with
  | nil =>
      rw [List.map_nil, Place.declaring_nil]
      exact .pure _
  | cons first rest inductionHypothesis =>
      have others := inductionHypothesis (place.declaring [first.text])
      rw [Place.declaring_append] at others
      exact introduce_visits.bind fun _ => others

/-! ## Occurrences -/

section

variable {place : Place} {initializing : Option String}

/-- An occurrence is settled at the depth of its name. -/
theorem settle_apply (id : NodeId) (name : String) (settled : List Settlement) :
    settle id name (place.resolver initializing settled) =
      .ok () (place.resolver initializing (⟨id, name, place.depth? name⟩ :: settled)) := by
  unfold settle
  rw [modify_apply, Place.resolver_depth?]
  rfl

/-- The variable that is being initialized, if there is one, has been declared. -/
def Place.Awaits (place : Place) (initializing : Option String) : Prop :=
  ∀ waiting, initializing = some waiting →
    place.scopes = [] ∨ place.hasLocally waiting = true

/-- A name is being initialized in the innermost scope only where that is so. -/
theorem Place.declared_iff
    (place : Place)
    (name : String)
    (declared : place.Awaits initializing) :
    (place.tables initializing).head?.any (·.get? name = some .declared) = true ↔
      initializing = some name ∧ place.scopes ≠ [] := by
  unfold Place.tables
  cases shape : place.scopes with
  | nil => simp
  | cons innermost outer =>
      simp only [List.head?_cons, Option.any_some, find?_tableOf, decide_eq_true_eq,
        ne_eq, reduceCtorEq, not_false_eq_true, and_true]
      constructor
      · intro found
        split at found
        · split at found
          · assumption
          · simp at found
        · simp at found
      · intro waiting
        have has := declared name waiting
        have member : name ∈ innermost := by
          simpa [Place.hasLocally, shape] using has
        simp [member, waiting]

/-- Reading a variable checks that it is not being initialized. -/
theorem resolveReference_visits
    (occurrence : Reference)
    (declared : place.Awaits initializing) :
    Visits (resolveReference occurrence) (place.resolver initializing)
      [⟨place, initializing, .reads occurrence⟩] (place.resolver initializing) := by
  have decides := place.declared_iff occurrence.name.text declared
  refine .one ?_ ?_ fun _ => rfl
  · intro settled error faulty
    have given :
        (initializing = some occurrence.name.text ∧ place.scopes ≠ []) ∧
          ⟨.ownInitializer, occurrence.name⟩ = error := by
      simpa [Site.fault?, and_assoc] using faulty
    obtain ⟨own, rfl⟩ := given
    unfold resolveReference
    rw [bind_of_ok (get_apply _)]
    simp only [Place.resolver, decides.mpr own, ↓reduceIte]
    rfl
  · intro settled faultless
    have others : ¬ (initializing = some occurrence.name.text ∧ place.scopes ≠ []) := by
      intro own
      simp [Site.fault?, own] at faultless
    unfold resolveReference
    rw [bind_of_ok (get_apply _)]
    have unread := mt decides.mp others
    simp only [Place.resolver, unread, Bool.false_eq_true, ↓reduceIte]
    exact settle_apply occurrence.id occurrence.name.text settled

/-- The target of an assignment is settled, whatever its scope. -/
theorem settle_target_visits (target : Reference) :
    Visits (settle target.id target.name.text) (place.resolver initializing)
      [⟨place, initializing, .assigns target⟩] (place.resolver initializing) := by
  refine .one ?_ ?_ fun _ => rfl
  · intro settled error faulty
    simp [Site.fault?] at faulty
  · intro settled _
    exact settle_apply target.id target.name.text settled

/-- Reading `this` checks that a class is around it. -/
theorem resolveThis_visits (id : NodeId) (line : Nat) :
    Visits (resolveThis id line) (place.resolver initializing)
      [⟨place, initializing, .this id line⟩] (place.resolver initializing) := by
  obtain ⟨scopes, functionRole, classRole⟩ := place
  refine .one ?_ ?_ fun _ => rfl
  · intro settled error faulty
    cases classRole with
    | none =>
        obtain rfl : ⟨.thisOutsideClass, ⟨receiverName, line⟩⟩ = error := by
          simpa [Site.fault?] using faulty
        rfl
    | some role => simp [Site.fault?] at faulty
  · intro settled faultless
    cases classRole with
    | none => simp [Site.fault?] at faultless
    | some role => exact settle_apply id receiverName settled

/-- Reading `super` checks that a subclass is around it. -/
theorem resolveSuper_visits (id : NodeId) (line : Nat) :
    Visits (resolveSuper id line) (place.resolver initializing)
      [⟨place, initializing, .super id line⟩] (place.resolver initializing) := by
  obtain ⟨scopes, functionRole, classRole⟩ := place
  refine .one ?_ ?_ fun _ => rfl
  · intro settled error faulty
    cases classRole with
    | none =>
        obtain rfl : ⟨.superOutsideClass, ⟨superclassName, line⟩⟩ = error := by
          simpa [Site.fault?] using faulty
        rfl
    | some role =>
        cases role with
        | base =>
            obtain rfl : ⟨.superWithoutSuperclass, ⟨superclassName, line⟩⟩ = error := by
              simpa [Site.fault?] using faulty
            rfl
        | subclass => simp [Site.fault?] at faulty
  · intro settled faultless
    cases classRole with
    | none => simp [Site.fault?] at faultless
    | some role =>
        cases role with
        | base => simp [Site.fault?] at faultless
        | subclass => exact settle_apply id superclassName settled

end

/-! ## Expressions -/

mutual

/-- Resolving an expression visits its sites. -/
theorem resolveExpr_visits
    {place : Place}
    {initializing : Option String}
    (declared : place.Awaits initializing) :
    ∀ value : Expr,
      Visits (resolveExpr value) (place.resolver initializing)
        (value.sites place initializing) (place.resolver initializing)
  | .literal _ => .pure _
  | .grouping inner => resolveExpr_visits declared inner
  | .unary _ _ operand => resolveExpr_visits declared operand
  | .binary _ _ left right =>
      (resolveExpr_visits declared left).bind fun _ => resolveExpr_visits declared right
  | .logical _ left right =>
      (resolveExpr_visits declared left).bind fun _ => resolveExpr_visits declared right
  | .reference occurrence => resolveReference_visits occurrence declared
  | .assign target value =>
      (resolveExpr_visits declared value).bind fun _ => settle_target_visits target
  | .call callee arguments _ =>
      (resolveExpr_visits declared callee).bind fun _ =>
        resolveExprs_visits declared arguments
  | .property object _ => resolveExpr_visits declared object
  | .setProperty object _ value =>
      (resolveExpr_visits declared value).bind fun _ => resolveExpr_visits declared object
  | .this id line => resolveThis_visits id line
  | .super id line _ => resolveSuper_visits id line

/-- Resolving expressions visits their sites in order. -/
theorem resolveExprs_visits
    {place : Place}
    {initializing : Option String}
    (declared : place.Awaits initializing) :
    ∀ values : List Expr,
      Visits (resolveExprs values) (place.resolver initializing)
        (Expr.sitesOfAll place initializing values) (place.resolver initializing)
  | [] => .pure _
  | first :: rest =>
      (resolveExpr_visits declared first).bind fun _ => resolveExprs_visits declared rest

end

/-- Resolving an expression that may be absent visits its sites. -/
theorem resolveOptional_visits
    {place : Place}
    {initializing : Option String}
    (declared : place.Awaits initializing)
    (value : Option Expr) :
    Visits (resolveOptional value) (place.resolver initializing)
      (Expr.sitesOfOptional place initializing value) (place.resolver initializing) := by
  cases value with
  | none => exact .pure _
  | some value => exact resolveExpr_visits declared value

/-- Outside of initializers, no variable is being initialized. -/
theorem Place.awaits_none (place : Place) : place.Awaits none :=
  fun _ waiting => by simp at waiting

/-- In an initializer, its variable has been declared. -/
theorem Place.awaits_declaring (place : Place) (name : String) :
    (place.declaring [name]).Awaits (some name) := by
  rintro _ ⟨⟩
  unfold Place.declaring
  cases shape : place.scopes with
  | nil => exact .inl shape
  | cons innermost outer => exact .inr (by simp [Place.hasLocally])

/-! ## Scopes -/

section

variable {action : Resolving Unit} {place : Place} {sites : List Site}
  {names : List String}

/-- A declaration leaves functions and classes around a place alone. -/
theorem Place.declaring_roles (place : Place) (names : List String) :
    (place.declaring names).functionRole = place.functionRole ∧
      (place.declaring names).classRole = place.classRole := by
  unfold Place.declaring
  cases place.scopes <;> exact ⟨rfl, rfl⟩

/-- A new scope is left again at the end. -/
theorem inScope_visits
    (visits : Visits action (place.entering.resolver none) sites
      ((place.entering.declaring names).resolver none)) :
    Visits (inScope action) (place.resolver none) sites (place.resolver none) := by
  have start : ∀ settled,
      { place.resolver none settled with
        scopes := Bindings.empty :: (place.resolver none settled).scopes } =
        place.entering.resolver none settled := by
    intro settled
    simp only [Place.resolver, Place.tables_none]
    rfl
  obtain ⟨functionRole, classRole⟩ := place.entering.declaring_roles names
  refine visits.around ?_ ?_
  · intro settled rest given
    unfold inScope
    rw [start, given]
    simp only [Place.resolver, functionRole, classRole]
    rfl
  · intro settled error final stopped
    refine ⟨{ final with scopes := (place.resolver none settled).scopes }, ?_, rfl⟩
    unfold inScope
    rw [start, stopped]

/-- A function is left again at the end. -/
theorem inFunction_visits
    {role : FunctionRole}
    (visits : Visits action ((place.asFunction role).resolver none) sites
      ((place.asFunction role).resolver none)) :
    Visits (inFunction role action) (place.resolver none) sites
      (place.resolver none) := by
  have start : ∀ settled,
      { place.resolver none settled with functionRole := some role } =
        (place.asFunction role).resolver none settled :=
    fun _ => rfl
  refine visits.around ?_ ?_
  · intro settled rest given
    unfold inFunction
    rw [start, given]
    rfl
  · intro settled error final stopped
    refine ⟨{ final with functionRole := place.functionRole }, ?_, rfl⟩
    unfold inFunction
    rw [start, stopped]
    rfl

/-- A class is left again at the end. -/
theorem leavingClass_visits
    {role : ClassRole}
    (visits : Visits action ((place.asClass role).resolver none) sites
      ((place.asClass role).resolver none)) :
    Visits (leavingClass place.classRole action) ((place.asClass role).resolver none)
      sites (place.resolver none) := by
  refine visits.around ?_ ?_
  · intro settled rest given
    unfold leavingClass
    rw [given]
    rfl
  · intro settled error final stopped
    refine ⟨{ final with classRole := place.classRole }, ?_, rfl⟩
    unfold leavingClass
    rw [stopped]

/-- A new scope may hold a name from the start. -/
theorem inScope_holding_visits
    {name : String}
    (visits : Visits action ((place.holding name).resolver none) sites
      ((place.holding name).resolver none)) :
    Visits
      (inScope do
        define name
        action)
      (place.resolver none) sites (place.resolver none) := by
  have defined : Visits (define name) (place.entering.resolver none) []
      ((place.holding name).resolver none) :=
    .modify fun _ => rfl
  exact inScope_visits (defined.bind fun _ => visits)

end

/-! ## Classes -/

/-- It does not matter whether a name is declared in front of a class or in its first scope. -/
theorem Place.asClass_declaring (place : Place) (role : ClassRole) (names : List String) :
    (place.asClass role).declaring names = (place.declaring names).asClass role := by
  obtain ⟨scopes, functionRole, classRole⟩ := place
  cases scopes <;> rfl

/-- A site at which nothing is wrong and nothing is settled may be left out. -/
theorem Visits.skip
    {action : Resolving Unit}
    {before after : List Settlement → Resolver}
    {site : Site}
    {sites : List Site}
    (faultless : site.fault? = none)
    (unsettled : site.settlement? = none)
    (visits : Visits action before sites after) :
    Visits action before (site :: sites) after := by
  intro settled
  have found := visits settled
  simpa [firstFault?, settledAt, faultless, unsettled] using found

/-- A site may be given with another place if that makes no difference. -/
theorem Visits.relabel
    {action : Resolving Unit}
    {before after : List Settlement → Resolver}
    {site other : Site}
    (visits : Visits action before [site] after)
    (sameFault : site.fault? = other.fault?)
    (sameSettlement : site.settlement? = other.settlement?) :
    Visits action before [other] after := by
  have faults : firstFault? [other] = firstFault? [site] := by
    simp [firstFault?, sameFault]
  have settlements : settledAt [other] = settledAt [site] := by
    simp only [settledAt, List.takeWhile_cons, sameFault]
    split <;> simp only [List.filterMap_cons, sameSettlement]
  intro settled
  rw [faults, settlements]
  exact visits settled

/-- Naming a class checks that the scope does not have the name. -/
theorem introduceClass_visits
    (place : Place)
    (name : Identifier) :
    Visits
      (do
        setClassRole (some .base)
        introduce name)
      (place.resolver none) [⟨place, none, .declares name⟩]
      (((place.declaring [name.text]).asClass .base).resolver none) := by
  have entered : Visits (setClassRole (some .base)) (place.resolver none) []
      ((place.asClass .base).resolver none) :=
    .modify fun _ => rfl
  have named : Visits (introduce name) ((place.asClass .base).resolver none)
      [⟨place.asClass .base, none, .declares name⟩]
      (((place.asClass .base).declaring [name.text]).resolver none) :=
    introduce_visits
  rw [Place.asClass_declaring] at named
  exact entered.bind fun _ => named.relabel rfl rfl

/-- A class that would inherit from itself is rejected. -/
theorem selfInheritance_visits
    {place : Place}
    {name : Identifier}
    {parent : Reference}
    (same : parent.name.text = name.text)
    {outer : Option ClassRole}
    {next : Resolving Unit}
    {sites : List Site}
    {after : List Settlement → Resolver} :
    Visits
      (leavingClass outer (fail .selfInheritance parent.name) >>= fun (_ : Unit) => next)
      ((place.asClass .base).resolver none)
      (⟨place, none, .inherits name parent.name⟩ :: sites) after := by
  intro settled
  have faulty :
      (⟨place, none, .inherits name parent.name⟩ : Site).fault? =
        some ⟨.selfInheritance, parent.name⟩ := by
    simp [Site.fault?, same]
  simp only [firstFault?, settledAt, List.findSome?_cons, List.takeWhile_cons, faulty]
  exact ⟨_, rfl, rfl⟩

/-- Resolving a class visits the sites of its header and of its methods. -/
theorem resolveClass_visits
    {place : Place}
    (name : Identifier)
    (superclass : Option Reference)
    {methods : Resolving Unit}
    {sites : List Site}
    (visits :
      Visits methods (((place.declaring [name.text]).ofMethods superclass).resolver none)
        sites (((place.declaring [name.text]).ofMethods superclass).resolver none)) :
    Visits (resolveClass name superclass methods) (place.resolver none)
      (⟨place, none, .declares name⟩ ::
        (sitesOfSuperclass (place.declaring [name.text]) name superclass ++ sites))
      ((place.declaring [name.text]).resolver none) := by
  have outer : ∀ settled,
      (place.resolver none settled).classRole = (place.declaring [name.text]).classRole :=
    fun _ => (place.declaring_roles [name.text]).2.symm
  refine .get fun settled => ⟨_, rfl, ?_⟩
  change Visits
    (setClassRole (some .base) >>= fun _ => introduce name >>= fun _ => _)
    (place.resolver none) _ _
  rw [← bind_assoc]
  refine (introduceClass_visits place name).bind fun _ => ?_
  cases superclass with
  | none =>
      simp only [outer]
      exact leavingClass_visits (inScope_holding_visits visits)
  | some parent =>
      by_cases same : parent.name.text = name.text
      · simp only [same, ↓reduceIte]
        exact selfInheritance_visits same
      · simp only [same, ↓reduceIte]
        refine .skip (by simp [Site.fault?, same]) rfl ?_
        -- The superclass is read with the class set already, which no read looks at.
        have entered : Visits (setClassRole (some .subclass))
            (((place.declaring [name.text]).asClass .base).resolver none) []
            (((place.declaring [name.text]).asClass .subclass).resolver none) :=
          .modify fun _ => rfl
        have inherited := (resolveReference_visits parent
          ((place.declaring [name.text]).asClass .subclass).awaits_none).relabel rfl rfl
        refine entered.bind fun _ => ?_
        refine inherited.bind fun _ => ?_
        simp only [outer]
        have body := inScope_holding_visits (inScope_holding_visits visits)
        exact leavingClass_visits body

/-! ## Statements -/

/-- Resolving a return checks that a function is around it. -/
theorem resolveReturn_visits (line : Nat) (value : Option Expr) (place : Place) :
    Visits (resolveStmt (.returnValue line value)) (place.resolver none)
      (⟨place, none, .returns line⟩ :: Expr.sitesOfOptional place none value)
      (place.resolver none) := by
  cases role : place.functionRole with
  | none =>
      have faulty :
          (⟨place, none, .returns line⟩ : Site).fault? =
            some ⟨.returnOutsideFunction, ⟨returnKeyword, line⟩⟩ := by
        simp [Site.fault?, role]
      intro settled
      simp only [firstFault?, settledAt, List.findSome?_cons, List.takeWhile_cons, faulty]
      refine ⟨place.resolver none settled, ?_, rfl⟩
      rw [resolveStmt, bind_of_ok (get_apply _)]
      simp [Place.resolver, role, fail, bind_apply, throw_apply]
  | some role =>
      refine .skip (by simp [Site.fault?, *]) rfl ?_
      rw [resolveStmt]
      refine .get fun settled => ⟨_, ?_, resolveOptional_visits place.awaits_none value⟩
      simp [Place.resolver, *]

mutual

/-- What a statement leads to: the place behind its declarations. -/
theorem resolveStmt_visits :
    ∀ (statement : Stmt) (place : Place),
      Visits (resolveStmt statement) (place.resolver none) (statement.sites place)
        ((place.declaring statement.declared).resolver none)
  | .expression value, place => by
      rw [Stmt.declared, Place.declaring_nil]
      exact resolveExpr_visits place.awaits_none value
  | .print value, place => by
      rw [Stmt.declared, Place.declaring_nil]
      exact resolveExpr_visits place.awaits_none value
  | .varDeclaration name initializer, place => by
      have initialized :=
        resolveOptional_visits (place.awaits_declaring name.text) initializer
      refine declare_visits.bind fun faultless => ?_
      have defined := initialized.bind fun _ => define_visits faultless
      rwa [List.append_nil] at defined
  | .block body, place => by
      rw [Stmt.declared, Place.declaring_nil]
      exact inScope_visits (resolveStmts_visits body place.entering)
  | .branch condition consequent none, place =>
      (resolveExpr_visits place.awaits_none condition).bind fun _ =>
        resolveStmt_visits consequent place
  | .branch condition consequent (some alternative), place => by
      rw [Stmt.declared, ← Place.declaring_append]
      refine (resolveExpr_visits place.awaits_none condition).bind fun _ => ?_
      refine (resolveStmt_visits consequent place).bind fun _ => ?_
      exact resolveStmt_visits alternative (place.declaring consequent.declared)
  | .loop condition body, place =>
      (resolveExpr_visits place.awaits_none condition).bind fun _ =>
        resolveStmt_visits body place
  | .functionDeclaration declaration, place =>
      introduce_visits.bind fun _ =>
        resolveFunction_visits declaration .function
          (place.declaring [declaration.name.text])
  | .returnValue line value, place => by
      rw [Stmt.declared, Place.declaring_nil]
      exact resolveReturn_visits line value place
  | .classDeclaration name superclass methods, place =>
      resolveClass_visits name superclass
        (resolveMethods_visits methods
          ((place.declaring [name.text]).ofMethods superclass))

/-- Statements lead to the place behind all of their declarations. -/
theorem resolveStmts_visits :
    ∀ (body : List Stmt) (place : Place),
      Visits (resolveStmts body) (place.resolver none) (Stmt.sitesOfAll place body)
        ((place.declaring (Stmt.declaredByAll body)).resolver none)
  | [], place => by
      rw [Stmt.declaredByAll, Place.declaring_nil]
      exact .pure _
  | first :: rest, place => by
      rw [Stmt.declaredByAll, ← Place.declaring_append]
      refine (resolveStmt_visits first place).bind fun _ => ?_
      exact resolveStmts_visits rest (place.declaring first.declared)

/-- A function is walked through at its sites, in a scope of its own. -/
theorem resolveFunction_visits :
    ∀ (declaration : FunctionDeclaration) (role : FunctionRole) (place : Place),
      Visits (resolveFunction role declaration) (place.resolver none)
        (declaration.sites role place) (place.resolver none)
  | .intro _ parameters body, role, place => by
      have inside := (introduceAll_visits (place.asFunction role).entering parameters).bind
        fun _ => resolveStmts_visits body _
      rw [Place.declaring_append] at inside
      exact inFunction_visits (inScope_visits inside)

/-- Methods are walked through at their sites, one after the other. -/
theorem resolveMethods_visits :
    ∀ (methods : List FunctionDeclaration) (place : Place),
      Visits (resolveMethods methods) (place.resolver none)
        (FunctionDeclaration.sitesOfAll place methods) (place.resolver none)
  | [], _ => .pure _
  | first :: rest, place =>
      (resolveFunction_visits first .method place).bind fun _ =>
        resolveMethods_visits rest place

end

/-! ## Programs -/

/--
Resolving a program checks and settles its sites in order, up to the first fault.
-/
theorem resolve_eq (program : List Stmt) :
    (resolve program).verdict =
        (match firstFault? (programSites program) with
        | none => .ok ()
        | some error => .error error) ∧
      (resolve program).settled = settledAt (programSites program) := by
  have visits := resolveStmts_visits program .outermost
  have start : { Resolver.initial with settled := [] } =
      Place.outermost.resolver none [] := rfl
  unfold resolve Resolver.resolve
  rw [start]
  cases faults : firstFault? (programSites program) with
  | none =>
      rw [visits.ok faults]
      simp [Place.resolver, programSites]
  | some error =>
      obtain ⟨final, stopped, kept⟩ := visits.error faults []
      rw [stopped]
      simp [kept, programSites]

/-- An accepted program breaks no rule. -/
theorem faultless_of_accepted
    {program : List Stmt}
    (accepted : (resolve program).verdict = .ok ()) :
    firstFault? (programSites program) = none := by
  rw [(resolve_eq program).1] at accepted
  cases found : firstFault? (programSites program) with
  | none => rfl
  | some error => simp [found] at accepted

/-- What is settled in an accepted program are the occurrences at its sites. -/
theorem settled_of_accepted
    {program : List Stmt}
    (accepted : (resolve program).verdict = .ok ()) :
    (resolve program).settled = (programSites program).filterMap Site.settlement? := by
  rw [(resolve_eq program).2, settledAt_of_faultless (faultless_of_accepted accepted)]

/-- Every occurrence in an accepted program is settled where its name is found. -/
theorem mem_settled_of_accepted
    {program : List Stmt}
    (accepted : (resolve program).verdict = .ok ())
    {site : Site}
    (inSites : site ∈ programSites program)
    {id : NodeId}
    {name : String}
    (known : site.occurrence? = some (id, name)) :
    ⟨id, name, site.place.depth? name⟩ ∈ (resolve program).settled := by
  rw [settled_of_accepted accepted]
  exact List.mem_filterMap.mpr ⟨site, inSites, by simp [Site.settlement?, known]⟩

end Lox.Scoping
