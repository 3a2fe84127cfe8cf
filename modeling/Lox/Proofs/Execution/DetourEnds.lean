import Lox.Proofs.Execution.DetourRuns
import Lox.Proofs.Execution.Mentions
import Lox.Proofs.Execution.Receivers
import Lox.Proofs.Execution.Restoration

namespace Lox.Execution

/-!
# Two runs from one state

Before the first detour, both runs may begin in one and the same state, in which every scope
is its own counterpart.  Afterwards nothing can be told from the two states: they show the
same texts, they hold the same scopes and instances as far as these were there before, and
whatever is run from them, other than what has been copied, ends alike again.
-/

/-! ## One state -/

/-- Nothing in a state refers to what has not been made. -/
structure State.Whole (state : State) : Prop where
  heap : state.heap.Whole
  scope : state.heap.Has (.scope state.scope)
  globals : state.heap.Has (.scope state.globals)

/-- Every scope of a heap is its own counterpart. -/
def unmoved (heap : Heap) : List Counterpart :=
  (List.range heap.scopes.size).map fun id => ⟨id, none⟩

theorem getElem?_unmoved {heap : Heap} {id : ScopeId} (has : heap.Has (.scope id)) :
    (unmoved heap)[id]? = some ⟨id, none⟩ := by
  have within : id < heap.scopes.size := has
  simp [unmoved, List.getElem?_range within]

/-- There are no counterparts but those of the scopes that there are. -/
theorem eq_of_unmoved
    {heap : Heap}
    {id : ScopeId}
    {mark : Counterpart}
    (known : (unmoved heap)[id]? = some mark) :
    heap.Has (.scope id) ∧ mark = ⟨id, none⟩ := by
  obtain ⟨within, rfl⟩ := List.getElem?_eq_some_iff.mp known
  have has : id < heap.scopes.size := by simpa [unmoved] using within
  exact ⟨has, by simp [unmoved]⟩

theorem madeFor_unmoved {heap : Heap} {id : ScopeId} (has : heap.Has (.scope id)) :
    MadeFor (unmoved heap) id id :=
  ⟨none, by simp, getElem?_unmoved has⟩

section

variable {kept : NodeId → Prop} {long short : Distances} {heap : Heap}

/-- Code whose identities are known has the same distances in both runs. -/
theorem FunctionShortened.of_keeping
    (same : ∀ id, kept id → short.get? id = long.get? id)
    {declaration : FunctionDeclaration}
    (keeps : FunctionCopies (keeping kept) declaration declaration) :
    FunctionShortened long short none declaration declaration :=
  .self declaration fun id occurs => same id (List.forall₂_same.mp keeps.ids id occurs).2

/-- A heap is like itself, without any detour. -/
theorem HeapShortened.self
    (whole : heap.Whole)
    (mentions : Mentions kept heap)
    (same : ∀ id, kept id → short.get? id = long.get? id) :
    HeapShortened long short (unmoved heap) heap heap where
  size := by simp [unmoved]
  made := by
    intro id other detour known _
    obtain ⟨has, isSame⟩ := eq_of_unmoved known
    obtain ⟨rfl, rfl⟩ := Counterpart.mk.inj isSame
    obtain ⟨scope, isScope⟩ : ∃ scope, heap.scopes[other]? = some scope :=
      ⟨_, Array.getElem?_eq_getElem has⟩
    refine ⟨scope, scope, isScope, isScope, ?_⟩
    obtain ⟨bindings, _ | outer⟩ := scope
    · exact .outermost
    · have refers : heap.Refers (.scope other) (.scope outer) := .enclosing isScope rfl
      have around := getElem?_unmoved (whole _ _ has refers)
      exact .inner around
  skipped := by
    intro id other known
    have isSame := (eq_of_unmoved known).2
    cases isSame
  distinct := by
    rintro first second other ⟨_, -, isFirst⟩ ⟨_, -, isSecond⟩
    obtain rfl := congrArg Counterpart.scope (eq_of_unmoved isFirst).2
    exact (congrArg Counterpart.scope (eq_of_unmoved isSecond).2)
  functions := by
    refine ⟨rfl, fun id first second isFirst isSecond => ?_⟩
    obtain rfl : first = second := by simpa [isFirst] using isSecond
    have has := whole.has_closure isFirst
    have keeps := (mentions.functions.related id first first isFirst isFirst).declaration
    exact ⟨rfl, fun _ => madeFor_unmoved has, none, getElem?_unmoved has,
      .of_keeping same keeps⟩
  classes := by
    refine ⟨rfl, fun id first second isFirst isSecond => ?_⟩
    obtain rfl : first = second := by simpa [isFirst] using isSecond
    refine ⟨rfl, rfl, fun name => ?_⟩
    have methods := (mentions.classes.related id first first isFirst isFirst).methods
    have keeps := find?_copies methods name
    have own : ∀ method, first.methods.get? name = some method →
        heap.Has (.scope method.closure) := fun method known =>
      whole.has_methodClosure ⟨first, name, isFirst, known⟩
    unfold Bindings.get? at own ⊢
    generalize Bindings.find? name first.methods.entries = found at keeps own ⊢
    cases found with
    | none => exact .none
    | some method =>
        cases keeps with
        | some keeps =>
            exact .some ⟨rfl, none, getElem?_unmoved (own method rfl),
              .of_keeping same keeps.declaration⟩
  instances := rfl

/-- A state is like itself with other distances for what is not known in it. -/
theorem StateShortened.self
    {state : State}
    (whole : state.Whole)
    (mentions : Mentions kept state.heap)
    (same : ∀ id, kept id → short.get? id = state.distances.get? id) :
    StateShortened state.distances short (unmoved state.heap) none state
      { state with distances := short } where
  heap := .self whole.heap mentions same
  scope := getElem?_unmoved whole.scope
  globals := madeFor_unmoved whole.globals
  long := rfl
  short := rfl
  transcript := rfl
  clock := rfl

end

/-! ## What has become of it -/

theorem grows_steady : Steady fun before after => Grows before.heap after.heap where
  refl _ := .refl _
  trans := Grows.trans
  inside := id
  addScope _ _ _ := .addScope _ _
  define _ _ _ _ := .define _ _ _ _
  addFunction _ _ := .of_scopes rfl
  addClass _ _ := .of_scopes rfl
  addInstance _ _ := .of_scopes rfl
  setField _ _ _ _ := .of_scopes rfl
  print _ _ := .refl _
  tick _ := .refl _

/--
States of two runs that have begun in one state: they show the same texts, they are in the
scope of the beginning, and they hold the same in all scopes that were there at the
beginning and in all instances.
-/
structure SameSince (before left right : State) : Prop where
  transcript : left.transcript = right.transcript
  clock : left.clock = right.clock
  scope : left.scope = before.scope ∧ right.scope = before.scope
  globals : left.globals = before.globals ∧ right.globals = before.globals
  scopes :
    ∀ id : ScopeId, before.heap.Has (.scope id) →
      left.heap.scopes[id]? = right.heap.scopes[id]?
  instances : left.heap.instances = right.heap.instances
  display : ∀ value, left.heap.display value = right.heap.display value

/--
Whatever is run from two states, of known identities only, ends alike.  With nothing to run,
these are the two states themselves.
-/
def AlikeSince (known : NodeId → Prop) (before left right : State) : Prop :=
  ∀ fuel body, (∀ id ∈ idsOf (Stmt.occurrencesOfAll body), known id) →
    Corresponds (SameSince before) ExitShortened Eq (executeAll fuel body left)
      (executeAll fuel body right)

namespace StateShortened

variable {kept : NodeId → Prop} {long short : Distances} {later : List Counterpart}
  {before left right : State}

/-- What was there at the beginning is its own counterpart for ever. -/
theorem sameSince
    (related : StateShortened long short later none left right)
    (longer : unmoved before.heap <+: later)
    (whole : before.Whole)
    (restores : Restores before left)
    (grows : Grows before.heap left.heap) :
    SameSince before left right := by
  have kept : ∀ id : ScopeId, before.heap.Has (.scope id) → later[id]? = some ⟨id, none⟩ :=
    fun id has => mark_kept longer (getElem?_unmoved has)
  refine ⟨related.transcript, related.clock, ⟨restores.scope, ?_⟩, ⟨restores.globals, ?_⟩,
    fun id has => ?_, related.heap.instances, related.heap.display⟩
  · have here := related.scope
    rw [restores.scope, kept _ whole.scope] at here
    exact (congrArg Counterpart.scope (Option.some.inj here)).symm
  · obtain ⟨_, -, here⟩ := related.globals
    rw [restores.globals, kept _ whole.globals] at here
    exact (congrArg Counterpart.scope (Option.some.inj here)).symm
  · obtain ⟨first, second, isFirst, isSecond, alike⟩ :=
      related.heap.made (kept id has) (by simp)
    have enclosing : first.enclosing = second.enclosing := by
      rcases alike.around with ⟨none, none'⟩ | ⟨outer, outer', _, isOuter, isOuter', around⟩
      · rw [none, none']
      · -- The scope around an old one is an old one as well.
        have isOld := Array.getElem?_eq_getElem has
        obtain ⟨found, isFound, unchanged, -⟩ := grows id _ isOld
        obtain rfl := Option.some.inj (isFirst.symm.trans isFound)
        have refers : before.heap.Refers (.scope id) (.scope outer) :=
          .enclosing isOld (unchanged.symm.trans isOuter)
        rw [kept outer (whole.heap _ _ has refers)] at around
        obtain rfl : outer = outer' := congrArg Counterpart.scope (Option.some.inj around)
        rw [isOuter, isOuter']
    obtain ⟨bindings, around⟩ := first
    obtain ⟨bindings', around'⟩ := second
    obtain rfl : bindings = bindings' := alike.bindings
    obtain rfl : around = around' := enclosing
    rw [isFirst, isSecond]

/-- Whatever is run further on, both runs do the same. -/
theorem alikeSince
    (related : StateShortened long short later none left right)
    (longer : unmoved before.heap <+: later)
    (whole : before.Whole)
    (restores : Restores before left)
    (grows : Grows before.heap left.heap)
    (same : ∀ id, kept id → short.get? id = long.get? id) :
    AlikeSince kept before left right := by
  intro fuel body known
  have shortened : BodyShortened long short none body body :=
    .self body fun id occurs => same id (known id occurs)
  obtain ⟨last, further, ended⟩ :=
    body_shadows (everything_shadows long short fuel).2.1 shortened left right related
  have restoresFurther := restores_steady.executeAll fuel body left
  have growsFurther := grows_steady.executeAll fuel body left
  have since : ∀ {final final'}, StateShortened long short last none final final' →
      Restores left final → Grows left.heap final.heap → SameSince before final final' :=
    fun related back grown => related.sameSince (longer.trans further) whole
      (restores_steady.trans restores back) (grows.trans grown)
  unfold executeAll at restoresFurther growsFurther ⊢
  generalize body.forM (execute fuel) left = outcome at ended restoresFurther growsFurther ⊢
  generalize body.forM (execute fuel) right = outcome' at ended ⊢
  cases ended with
  | ok _ related => exact .ok rfl (since related restoresFurther growsFurther)
  | error alike related => exact .error alike (since related restoresFurther growsFurther)

end StateShortened

end Lox.Execution
