import Lox.Proofs.Execution.CopiedRuns

namespace Lox.Execution

/-!
# The identities that a run depends on

A function keeps its tree for as long as the heap lives, and with it the identities of
the occurrences in the tree.  A run adds to those in the heap only such as occur in the
program that is run.  These are all that it depends on: with other distances recorded for
other occurrences, it ends in the same way.
-/

/-! ## Copies that are the same -/

theorem Aligned.eq
    {α : Type}
    {relation : α → α → Prop}
    (equal : ∀ first second, relation first second → first = second)
    {left right : Array α}
    (aligned : Aligned relation left right) :
    left = right :=
  Array.ext_getElem? fun id => eq_of_rel equal (aligned.find id)

section

variable {matching : Matching} (lines : matching.KeepsLines)

include lines

theorem TypeFaultCopies.eq
    {fault fault' : TypeFault}
    (copies : TypeFaultCopies matching fault fault') :
    fault = fault' := by
  cases copies with
  | operandNotNumber line => rw [lines line]
  | operandsNotNumbers line => rw [lines line]
  | operandsNotAddable line => rw [lines line]
  | notCallable line => rw [lines line]
  | propertyOfNonInstance name => rw [name.eq lines]
  | fieldOfNonInstance name => rw [name.eq lines]
  | superclassNotClass name => rw [name.eq lines]
  | returnOutsideFunction line => rw [lines line]

theorem RuntimeErrorCopies.eq
    {error error' : RuntimeError}
    (copies : RuntimeErrorCopies matching error error') :
    error = error' := by
  cases copies with
  | undefinedVariable name => rw [name.eq lines]
  | undefinedProperty name => rw [name.eq lines]
  | typeFault fault => rw [fault.eq lines]
  | divisionByZero line => rw [lines line]
  | arityMismatch line => rw [lines line]

theorem ExitCopies.eq
    {exit exit' : Exit}
    (copies : ExitCopies matching exit exit') :
    exit = exit' := by
  cases copies with
  | error error => rw [error.eq lines]
  | returned line => rw [lines line]
  | mismatch => rfl
  | exhausted => rfl

end

section

variable {matching : Matching} (exactly : matching.Exact)

include exactly

theorem ClosureCopies.eq
    {function function' : Function}
    (copies : ClosureCopies matching function function') :
    function = function' := by
  obtain ⟨declaration, closure, isConstructor⟩ := function
  obtain ⟨declaration', closure', isConstructor'⟩ := function'
  obtain rfl : declaration = declaration' := copies.declaration.eq exactly
  obtain rfl : closure = closure' := copies.closure
  obtain rfl : isConstructor = isConstructor' := copies.isConstructor
  rfl

theorem ClassCopies.eq
    {declared declared' : Class}
    (copies : ClassCopies matching declared declared') :
    declared = declared' := by
  obtain ⟨name, superclass, ⟨methods⟩⟩ := declared
  obtain ⟨name', superclass', ⟨methods'⟩⟩ := declared'
  obtain rfl : name = name' := copies.name
  obtain rfl : superclass = superclass' := copies.superclass
  obtain rfl : methods = methods' :=
    eq_of_forall₂ (fun _ _ entry => Prod.ext entry.name (entry.method.eq exactly))
      copies.methods
  rfl

theorem HeapCopies.eq
    {left right : Heap}
    (copies : HeapCopies matching left right) :
    left = right := by
  obtain ⟨scopes, functions, classes, instances⟩ := left
  obtain ⟨scopes', functions', classes', instances'⟩ := right
  obtain rfl : scopes = scopes' := copies.scopes
  obtain rfl : instances = instances' := copies.instances
  obtain rfl : functions = functions' :=
    copies.functions.eq fun _ _ same => same.eq exactly
  obtain rfl : classes = classes' := copies.classes.eq fun _ _ same => same.eq exactly
  rfl

/-- States of runs of one program differ at most in what is recorded for other programs. -/
theorem StateCopies.eq
    {left right : State}
    (copies : StateCopies matching left right) :
    left = { right with distances := left.distances } := by
  obtain ⟨heap, globals, scope, distances, transcript, clock⟩ := left
  obtain rfl : heap = right.heap := copies.heap.eq exactly
  obtain rfl : globals = right.globals := copies.globals
  obtain rfl : scope = right.scope := copies.scope
  obtain rfl : transcript = right.transcript := copies.transcript
  obtain rfl : clock = right.clock := copies.clock
  rfl

end

/-! ## The identities in a heap -/

/-- Some identities stand for themselves, and every line does. -/
def keeping (kept : NodeId → Prop) : Matching where
  ids id id' := id = id' ∧ kept id
  lines := Eq
  unique := by
    rintro id _ other _ ⟨rfl, _⟩ ⟨rfl, _⟩
    exact Iff.rfl

theorem keeping_exact (kept : NodeId → Prop) : (keeping kept).Exact :=
  ⟨And.left, id⟩

/-- All identities in the functions of a heap are among given ones. -/
def Mentions (kept : NodeId → Prop) (heap : Heap) : Prop :=
  HeapCopies (keeping kept) heap heap

section

variable {kept : NodeId → Prop} {matching : Matching}
  (reflexive : ∀ line, matching.lines line line)
  (known : ∀ id, kept id → matching.ids id id)

include reflexive known

theorem ClosureCopies.self
    {function : Function}
    (keeps : ClosureCopies (keeping kept) function function) :
    ClosureCopies matching function function :=
  ⟨.self reflexive _ fun id occurs =>
      known id (List.forall₂_same.mp keeps.declaration.ids id occurs).2,
    rfl, rfl⟩

/-- A heap is a copy of itself if the identities in it may stand for themselves. -/
theorem Mentions.copies
    {heap : Heap}
    (mentions : Mentions kept heap) :
    HeapCopies matching heap heap where
  scopes := rfl
  functions := by
    refine ⟨rfl, fun id first second isFirst isSecond => ?_⟩
    obtain rfl : first = second := by simpa [isFirst] using isSecond
    exact (mentions.functions.related id first first isFirst isFirst).self reflexive known
  classes := by
    refine ⟨rfl, fun id first second isFirst isSecond => ?_⟩
    obtain rfl : first = second := by simpa [isFirst] using isSecond
    have methods := (mentions.classes.related id first first isFirst isFirst).methods
    refine ⟨rfl, rfl, List.forall₂_same.mpr fun entry member => ⟨rfl, ?_⟩⟩
    exact (List.forall₂_same.mp methods entry member).method.self reflexive known
  instances := rfl

end

section

variable {kept : NodeId → Prop} {state : State} {program : List Stmt}

/-- A new state has no functions but native ones. -/
theorem mentions_initial (kept : NodeId → Prop) (clock : Clock) :
    Mentions kept (State.initial clock).heap where
  scopes := rfl
  functions := .empty
  classes := .empty
  instances := rfl

theorem Mentions.imp
    {heap : Heap}
    (mentions : Mentions kept heap)
    {others : NodeId → Prop}
    (implies : ∀ id, kept id → others id) :
    Mentions others heap := by
  have known : ∀ id, kept id → (keeping others).ids id id := fun id keeps =>
    ⟨rfl, implies id keeps⟩
  exact mentions.copies (fun _ => rfl) known

/-! ## Runs -/

/-- A run leaves the distances alone. -/
theorem distances_steady :
    Steady fun before after => after.distances = before.distances where
  refl _ := rfl
  trans first second := second.trans first
  inside := id
  addScope _ _ _ := rfl
  define _ _ _ _ := rfl
  addFunction _ _ := rfl
  addClass _ _ := rfl
  addInstance _ _ := rfl
  setField _ _ _ _ := rfl
  print _ _ := rfl
  tick _ := rfl

/-- A run mirrors the same run with other distances for other occurrences. -/
theorem interpret_twice
    (mentions : Mentions kept state.heap)
    (inProgram : ∀ id ∈ idsOf (Stmt.occurrencesOfAll program), kept id)
    {distances : Distances}
    (agree : ∀ id, kept id → distances.get? id = state.distances.get? id)
    (fuel : Nat) :
    Corresponds (StateCopies (keeping kept)) (ExitCopies (keeping kept)) Eq
      (interpret fuel program { state with distances := distances })
      (interpret fuel program state) := by
  refine interpret_mirror ?_ fuel _ _ ⟨mentions, rfl, rfl, ?_, rfl, rfl⟩
  · exact StmtCopies.allSelf (fun _ => rfl) program fun id occurs => ⟨rfl, inProgram id occurs⟩
  · rintro id _ ⟨rfl, keeps⟩
    exact agree id keeps

/-- A run adds to the identities in the heap only those in the program. -/
theorem interpret_mentions
    (mentions : Mentions kept state.heap)
    (inProgram : ∀ id ∈ idsOf (Stmt.occurrencesOfAll program), kept id)
    (fuel : Nat) :
    Mentions kept (endState (interpret fuel program state)).heap :=
  (interpret_twice mentions inProgram (fun _ _ => rfl) fuel).endState.heap

/--
A run depends on the distances only of occurrences in the program and in the functions
of the heap.
-/
theorem interpret_congr
    (mentions : Mentions kept state.heap)
    (inProgram : ∀ id ∈ idsOf (Stmt.occurrencesOfAll program), kept id)
    {distances : Distances}
    (agree : ∀ id, kept id → distances.get? id = state.distances.get? id)
    (fuel : Nat) :
    interpret fuel program { state with distances := distances } =
      mapState (fun final => { final with distances := distances })
        (interpret fuel program state) := by
  have ended := interpret_twice mentions inProgram agree fuel
  have unchanged := distances_steady.interpret fuel program { state with distances := distances }
  generalize interpret fuel program { state with distances := distances } = outcome
    at ended unchanged ⊢
  generalize interpret fuel program state = outcome' at ended ⊢
  obtain rfl : distances = (endState outcome).distances := unchanged.symm
  cases ended with
  | ok same further => exact congrArg (EStateM.Result.ok _) (further.eq (keeping_exact kept))
  | error alike further =>
      rw [alike.eq (keeping_exact kept).lines]
      exact congrArg (EStateM.Result.error _) (further.eq (keeping_exact kept))

end

end Lox.Execution
