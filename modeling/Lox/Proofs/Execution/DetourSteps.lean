import Lox.Proofs.Correspondence
import Lox.Proofs.Execution.Composition
import Lox.Proofs.Execution.DetourStates

namespace Lox.Execution

/-!
# Single steps with and without detours

Two actions shadow each other if they end alike from states of which the first one has a
detour.  The counterparts of scopes that there were before are kept; what is made on the way
gets counterparts of its own.  Everything that is put together from actions that shadow
each other does so, too, and there is one lemma for each step that needs no recursion.
-/

/-! ## Ends -/

/-- Mismatches of one kind; only how far away the scope is may differ. -/
inductive MismatchShortened : ScopeMismatch → ScopeMismatch → Prop where
  | superNotClass {depth depth' found} :
      MismatchShortened (.superNotClass depth found) (.superNotClass depth' found)
  | thisNotInstance {depth depth' found} :
      MismatchShortened (.thisNotInstance depth found) (.thisNotInstance depth' found)

/-- Exits of one kind with the same error or value. -/
inductive ExitShortened : Exit → Exit → Prop where
  | error {error} : ExitShortened (.error error) (.error error)
  | returned {line value} : ExitShortened (.returned line value) (.returned line value)
  | mismatch {found found'} :
      MismatchShortened found found' →
      ExitShortened (.mismatch found) (.mismatch found')
  | exhausted : ExitShortened .exhausted .exhausted

section

variable (long short : Distances)

/-- Outcomes that are alike, with counterparts for everything made on the way. -/
def EndAlike
    {α : Type}
    (marks : List Counterpart)
    (detour : Detour)
    (values : List Counterpart → α → α → Prop)
    (first second : EStateM.Result Exit State α) :
    Prop :=
  ∃ later, marks <+: later ∧
    Corresponds (StateShortened long short later detour) ExitShortened (values later)
      first second

/-- Two actions that end alike, the first one with a detour. -/
def Shadows
    {α : Type}
    (marks : List Counterpart)
    (detour : Detour)
    (values : List Counterpart → α → α → Prop)
    (first second : Eval α) :
    Prop :=
  ∀ left right, StateShortened long short marks detour left right →
    EndAlike long short marks detour values (first left) (second right)

/-- Values that are the same in both runs. -/
def Equal {α : Type} (_ : List Counterpart) (left right : α) : Prop :=
  left = right

/-- Scopes of which the second one is the counterpart of the first. -/
def Placed (detour : Detour) (marks : List Counterpart) (left right : ScopeId) : Prop :=
  marks[left]? = some ⟨right, detour⟩

end

variable {long short : Distances} {marks : List Counterpart} {detour inner : Detour}

/-- Runs inside other scopes come back to the scopes that they began in. -/
theorem EndAlike.within
    {α : Type}
    {values : List Counterpart → α → α → Prop}
    {first second : Eval α}
    {scope scope' : ScopeId}
    {left right : State}
    (inside :
      EndAlike long short marks inner values (first { left with scope := scope })
        (second { right with scope := scope' }))
    (back : Placed detour marks left.scope right.scope) :
    EndAlike long short marks detour values (within scope first left)
      (within scope' second right) := by
  obtain ⟨later, longer, ended⟩ := inside
  refine ⟨later, longer, ?_⟩
  unfold Execution.within
  generalize first { left with scope := scope } = outcome at ended ⊢
  generalize second { right with scope := scope' } = outcome' at ended ⊢
  have scope := mark_kept longer back
  cases ended with
  | ok same further => exact .ok same { further with scope := scope }
  | error alike further => exact .error alike { further with scope := scope }

namespace Shadows

variable {α β : Type} {values : List Counterpart → α → α → Prop}
  {results : List Counterpart → β → β → Prop}

/-! ## Actions in a row -/

theorem pure {value value' : α} (same : values marks value value') :
    Shadows long short marks detour values (pure value) (pure value') :=
  fun _ _ related => ⟨marks, List.prefix_rfl, .ok same related⟩

theorem throw {exit exit' : Exit} (alike : ExitShortened exit exit') :
    Shadows long short marks detour values (throw exit) (throw exit') :=
  fun _ _ related => ⟨marks, List.prefix_rfl, .error alike related⟩

theorem raise (error : RuntimeError) :
    Shadows long short marks detour values (raise error) (raise error) :=
  throw .error

/-- Both states are changed alike. -/
theorem modify
    {change change' : State → State}
    (keeps : ∀ left right, StateShortened long short marks detour left right →
      StateShortened long short marks detour (change left) (change' right)) :
    Shadows long short marks detour Equal (modify change) (modify change') :=
  fun left right related => ⟨marks, List.prefix_rfl, .ok rfl (keeps left right related)⟩

/-- Actions in a row end alike if they do from whatever has been made until then. -/
theorem bind
    {first second : Eval α}
    {next next' : α → Eval β}
    (head : Shadows long short marks detour values first second)
    (tail : ∀ later value value', marks <+: later → values later value value' →
      Shadows long short later detour results (next value) (next' value')) :
    Shadows long short marks detour results (first >>= next) (second >>= next') := by
  intro left right related
  rw [bind_apply, bind_apply]
  obtain ⟨later, longer, begun⟩ := head left right related
  generalize first left = outcome at begun ⊢
  generalize second right = outcome' at begun ⊢
  cases begun with
  | ok same further =>
      obtain ⟨last, longest, ended⟩ := tail later _ _ longer same _ _ further
      exact ⟨last, longer.trans longest, ended⟩
  | error alike further => exact ⟨later, longer, .error alike further⟩

/-- The states may be looked at if what is done with them ends alike. -/
theorem get
    {next next' : State → Eval α}
    (known : ∀ left right, StateShortened long short marks detour left right →
      Shadows long short marks detour values (next left) (next' right)) :
    Shadows long short marks detour values (get >>= next) (get >>= next') :=
  fun left right related => known left right related left right related

/-- What is made of values that correspond corresponds. -/
theorem map
    {first second : Eval α}
    {convert convert' : α → β}
    (head : Shadows long short marks detour values first second)
    (implies : ∀ later value value', values later value value' →
      results later (convert value) (convert' value')) :
    Shadows long short marks detour results (convert <$> first) (convert' <$> second) := by
  rw [map_eq_pure_bind, map_eq_pure_bind]
  exact head.bind fun later value value' _ same => pure (implies later value value' same)

theorem discard
    {first second : Eval α}
    (head : Shadows long short marks detour values first second) :
    Shadows long short marks detour Equal (discard first) (discard second) :=
  head.map fun _ _ _ _ => rfl

/-- The same condition leads both ways to the same side. -/
theorem either
    {condition : Prop}
    [Decidable condition]
    {first second other other' : Eval α}
    (consequent : Shadows long short marks detour values first second)
    (alternative : Shadows long short marks detour values other other') :
    Shadows long short marks detour values (if condition then first else other)
      (if condition then second else other') := by
  by_cases holds : condition
  · rw [if_pos holds, if_pos holds]
    exact consequent
  · rw [if_neg holds, if_neg holds]
    exact alternative

/-- One action for every one of corresponding elements. -/
theorem mapM
    {γ : Type}
    {elements : γ → γ → Prop}
    {step step' : γ → Eval α}
    (steps : ∀ marks element element', elements element element' →
      Shadows long short marks detour Equal (step element) (step' element'))
    {inputs inputs' : List γ}
    (related : List.Forall₂ elements inputs inputs') :
    Shadows long short marks detour Equal (inputs.mapM step) (inputs'.mapM step') := by
  induction related generalizing marks with
  | nil => exact pure rfl
  | cons first _ inductionHypothesis =>
      rw [List.mapM_cons, List.mapM_cons]
      refine (steps _ _ _ first).bind ?_
      rintro _ value _ - rfl
      refine inductionHypothesis.bind ?_
      rintro _ others _ - rfl
      exact pure rfl

/-- Both runs go on in scopes of their own, which they leave again. -/
theorem within
    {first second : Eval α}
    {scope scope' : ScopeId}
    (inside : Shadows long short marks inner values first second)
    (placed : Placed inner marks scope scope') :
    Shadows long short marks detour values (within scope first) (within scope' second) :=
  fun _ _ related =>
    EndAlike.within (inside _ _ { related with scope := placed }) related.scope

/-- Bodies that may be left by a return give the same value. -/
theorem returning
    {first second : Eval Unit}
    (inside : Shadows long short marks detour Equal first second) :
    Shadows long short marks detour Equal (returning first) (returning second) := by
  intro left right related
  obtain ⟨later, longer, ended⟩ := inside left right related
  refine ⟨later, longer, ?_⟩
  unfold Execution.returning
  generalize first left = outcome at ended ⊢
  generalize second right = outcome' at ended ⊢
  cases ended with
  | ok _ further => exact .ok rfl further
  | error alike further =>
      cases alike with
      | returned => exact .ok rfl further
      | error => exact .error .error further
      | mismatch found => exact .error (.mismatch found) further
      | exhausted => exact .error .exhausted further

end Shadows

/-! ## Changes of the state -/

namespace StateShortened

variable {left right : State}

/-- Only the heaps of both states are changed. -/
theorem withHeap
    (related : StateShortened long short marks detour left right)
    {heap heap' : Heap}
    (changed : HeapShortened long short marks heap heap') :
    StateShortened long short marks detour { left with heap := heap }
      { right with heap := heap' } :=
  { related with heap := changed }

/-- Only the heaps are changed, in which there are now more scopes. -/
theorem growing
    (related : StateShortened long short marks detour left right)
    {later : List Counterpart}
    (longer : marks <+: later)
    {heap heap' : Heap}
    (changed : HeapShortened long short later heap heap') :
    StateShortened long short later detour { left with heap := heap }
      { right with heap := heap' } :=
  { related with
    heap := changed
    scope := mark_kept longer related.scope
    globals := related.globals.grows longer }

/-- Counterparts bind a name to one value. -/
theorem define
    (related : StateShortened long short marks detour left right)
    {scope scope' : ScopeId}
    (made : MadeFor marks scope scope')
    (name : String)
    (value : Value) :
    StateShortened long short marks detour (left.define scope name value)
      (right.define scope' name value) :=
  related.withHeap (related.heap.define made name value)

/-- The global variables have the same values with and without the detour. -/
theorem global?
    (related : StateShortened long short marks detour left right)
    (name : String) :
    left.global? name = right.global? name :=
  related.heap.getLocal? related.globals name

end StateShortened

/-- Counterparts are made around the body of a block, the second one without the detour. -/
theorem newScope_shadows
    {outer outer' : ScopeId}
    (around : Placed inner marks outer outer')
    (bindings : Bindings Value) :
    Shadows long short marks detour (Placed inner.inside) (newScope bindings outer)
      (newScope bindings outer') := by
  intro left right related
  have longer := List.prefix_append marks [⟨right.heap.scopes.size, inner.inside⟩]
  refine ⟨_, longer, .ok ?_ (related.growing longer (related.heap.addScope around bindings))⟩
  rw [related.heap.size]
  exact mark_new _

/-- Functions that correspond are put at the same place. -/
theorem newFunction_shadows
    {first second : Function}
    (functions : ClosureShortened long short marks first second) :
    Shadows long short marks detour Equal (newFunction first) (newFunction second) :=
  fun _ _ related => ⟨marks, List.prefix_rfl,
    .ok (congrArg Value.functionObject related.heap.functions.size)
      (related.withHeap (related.heap.addFunction functions))⟩

/-- Classes that correspond are put at the same place. -/
theorem newClass_shadows
    {first second : Class}
    (classes : ClassShortened long short marks first second) :
    Shadows long short marks detour Equal (newClass first) (newClass second) :=
  fun _ _ related => ⟨marks, List.prefix_rfl,
    .ok (congrArg Value.classObject related.heap.classes.size)
      (related.withHeap (related.heap.addClass classes))⟩

theorem newInstance_shadows (classId : ClassId) :
    Shadows long short marks detour Equal (newInstance classId) (newInstance classId) :=
  fun _ _ related => ⟨marks, List.prefix_rfl,
    .ok (congrArg Array.size related.heap.instances)
      (related.withHeap (related.heap.addInstance _))⟩

theorem writeField_shadows (object : InstanceId) (name : String) (value : Value) :
    Shadows long short marks detour Equal (writeField object name value)
      (writeField object name value) :=
  .modify fun _ _ related => related.withHeap (related.heap.setField object name value)

/-- What is declared is never declared in a scope that the second run does without. -/
theorem defineHere_shadows
    (apart : detour ≠ some 0)
    (name : String)
    (value : Value) :
    Shadows long short marks detour Equal (defineHere name value) (defineHere name value) :=
  .modify fun _ _ related => related.define ⟨detour, apart, related.scope⟩ name value

namespace HeapShortened

variable {left right : Heap}

/-- Both heaps have tables that are read alike. -/
theorem tables (shortened : HeapShortened long short marks left right) :
    TablesAlike (ClosureShortened long short marks) (MethodShortened long short marks)
      left right :=
  ⟨shortened.functions, shortened.classes, shortened.instances⟩

/-- Values are displayed alike with and without the detour. -/
theorem display (shortened : HeapShortened long short marks left right) (value : Value) :
    left.display value = right.display value := by
  refine shortened.tables.display (fun _ _ functions => ?_) value
  obtain ⟨_, -, declaration⟩ := functions.declaration
  exact congrArg Identifier.text declaration.name

/-- What is called takes equally many arguments with and without the detour. -/
theorem arity
    (shortened : HeapShortened long short marks left right)
    {callee callee' : Callee}
    (same : CalleeAlike (ClosureShortened long short marks) callee callee') :
    left.arity callee = right.arity callee' := by
  refine shortened.tables.arity ?_ ?_ same
  · intro _ _ functions
    obtain ⟨_, -, declaration⟩ := functions.declaration
    exact congrArg List.length declaration.parameters
  · intro _ _ methods
    obtain ⟨_, -, declaration⟩ := methods.declaration
    exact congrArg List.length declaration.parameters

end HeapShortened

theorem printValue_shadows (value : Value) :
    Shadows long short marks detour Equal (printValue value) (printValue value) :=
  .modify fun _ _ related =>
    { related with transcript := by rw [related.transcript, related.heap.display] }

theorem readClock_shadows : Shadows long short marks detour Equal readClock readClock :=
  fun _ _ related => ⟨marks, List.prefix_rfl,
    .ok (congrArg (fun clock : Clock => Value.number clock.seconds) related.clock)
      { related with clock := congrArg Clock.next related.clock }⟩

/-! ## Variables -/

/-- A variable is found without the detour. -/
theorem lookUp_shadows
    {occurrence occurrence' : Reference}
    (same : ReferenceShortened long short detour occurrence occurrence') :
    Shadows long short marks detour Equal (lookUp occurrence.id occurrence.name)
      (lookUp occurrence'.id occurrence'.name) := by
  refine .get fun left right related => ?_
  dsimp only
  rw [related.long, related.short, same.distance, ← same.name]
  cases known : long.get? occurrence.id with
  | none =>
      dsimp only [Option.map_none]
      rw [related.global?]
      cases right.global? occurrence.name.text with
      | none => exact .raise _
      | some value => exact .pure rfl
  | some depth =>
      dsimp only [Option.map_some]
      rw [related.heap.getAt? related.scope (same.avoids depth known)]
      cases right.heap.getAt? right.scope (detour.shorten depth) occurrence.name.text with
      | none => exact .raise _
      | some value => exact .pure rfl

/-- A variable is assigned to without the detour. -/
theorem assignTo_shadows
    {target target' : Reference}
    (same : ReferenceShortened long short detour target target')
    (value : Value) :
    Shadows long short marks detour Equal (assignTo target value) (assignTo target' value) := by
  intro left right related
  refine ⟨marks, List.prefix_rfl, ?_⟩
  unfold assignTo
  dsimp only
  rw [related.long, related.short, same.distance, ← same.name]
  cases known : long.get? target.id with
  | none =>
      dsimp only [Option.map_none]
      rw [related.global?]
      cases right.global? target.name.text with
      | none => exact .error .error related
      | some old => exact .ok rfl (related.define related.globals _ value)
  | some depth =>
      dsimp only [Option.map_some]
      rcases eq_none_or_some_of_rel
          (related.heap.ancestor? related.scope (same.avoids depth known)) with
        ⟨none, none'⟩ | ⟨found, found', isFound, isFound', made⟩
      · rw [none, none']
        exact .error .error related
      · rw [isFound, isFound']
        exact .ok rfl (related.define made _ value)

/-! ## Methods and properties -/

/-- Both runs bind a method in scopes of its own, behind which the detour goes on. -/
theorem bindMethod_shadows
    {method method' : Function}
    (same : MethodShortened long short marks method method')
    (object : InstanceId) :
    Shadows long short marks detour (ClosureShortened long short) (bindMethod method object)
      (bindMethod method' object) := by
  obtain ⟨inner, around, declaration⟩ := same.declaration
  unfold bindMethod
  refine (newScope_shadows around _).bind fun later scope scope' longer placed => ?_
  exact .pure ⟨same.isConstructor, fun _ => ⟨_, inner.inside_ne_here, placed⟩,
    _, placed, declaration⟩

/-- Both runs give a bound method the same value. -/
theorem boundValue_shadows
    {method method' : Function}
    (same : MethodShortened long short marks method method')
    (object : InstanceId) :
    Shadows long short marks detour Equal (boundValue method object)
      (boundValue method' object) :=
  (bindMethod_shadows same object).bind fun _ _ _ _ bound => newFunction_shadows bound

/-- Both runs bind the method that they have found, if they have found one. -/
theorem methodFound_shadows
    {found found' : Option Function}
    (name : Identifier)
    (object : InstanceId) :
    Option.Rel (MethodShortened long short marks) found found' →
      Shadows long short marks detour Equal
        (match found with
        | some method => boundValue method object
        | none => raise (.undefinedProperty name))
        (match found' with
        | some method => boundValue method object
        | none => raise (.undefinedProperty name)) := by
  intro same
  cases same with
  | none => exact .raise _
  | some methods => exact boundValue_shadows methods object

/-- Both runs find the same field, or bind methods that correspond. -/
theorem propertyOf_shadows (object : Value) (name : Identifier) :
    Shadows long short marks detour Equal (propertyOf object name) (propertyOf object name) := by
  cases object with
  | instanceObject id =>
      refine .get fun left right related => ?_
      dsimp only [Heap.getField?]
      rw [related.heap.instances]
      cases right.heap.instances[id]?.bind (·.fields.get? name.text) with
      | some value => exact .pure rfl
      | none => exact methodFound_shadows name id (related.heap.tables.methodOf? id name.text)
  | _ => exact .raise _

/-- Both runs find the same instance to set a field of, or reject what is none. -/
theorem fieldOwner_shadows (object : Value) (name : Identifier) :
    Shadows long short marks detour Equal (fieldOwner object name) (fieldOwner object name) := by
  cases object with
  | instanceObject id => exact .pure rfl
  | _ => exact .raise _

/-! ## Superclasses -/

/-- A superclass is found without the detour, if not in the scope of the detour itself. -/
theorem superclassAt_shadows
    {depth : Nat}
    (apart : detour ≠ some depth) :
    Shadows long short marks detour Equal (superclassAt depth)
      (superclassAt (detour.shorten depth)) := by
  refine .get fun left right related => ?_
  rw [related.heap.getAt? related.scope apart]
  split
  · exact .pure rfl
  · exact .throw (.mismatch .superNotClass)

/-- The receiver is right inside the scope of `super`, in both runs. -/
theorem receiverInside_shadows
    {depth : Nat}
    (together : ∀ nearer, depth = nearer + 1 → detour ≠ some nearer) :
    Shadows long short marks detour Equal (receiverInside depth)
      (receiverInside (detour.shorten depth)) := by
  refine .get fun left right related => ?_
  cases depth with
  | zero =>
      rw [detour.shorten_zero]
      exact .throw (.mismatch .thisNotInstance)
  | succ nearer =>
      have apart := together nearer rfl
      rw [Detour.shorten_succ apart]
      dsimp only
      rw [related.heap.getAt? related.scope apart]
      split
      · exact .pure rfl
      · exact .throw (.mismatch .thisNotInstance)

/-- A method of a superclass is found and bound without the detour. -/
theorem superMethod_shadows
    {id id' : NodeId}
    (same : SuperShortened long short detour id id')
    (line : Nat)
    (method : Identifier) :
    Shadows long short marks detour Equal (superMethod id line method)
      (superMethod id' line method) := by
  refine .get fun left right related => ?_
  rw [related.long, related.short, same.distance]
  cases known : long.get? id with
  | none => exact .raise _
  | some depth =>
      refine (superclassAt_shadows (same.avoids depth known)).bind ?_
      rintro later parent _ - rfl
      have together : ∀ nearer, depth = nearer + 1 → detour ≠ some nearer := by
        rintro nearer rfl
        exact same.together nearer known
      refine (receiverInside_shadows together).bind ?_
      rintro last object _ - rfl
      refine .get fun left right related => ?_
      exact methodFound_shadows method object (related.heap.tables.findMethod? parent method.text)

/-- Both runs inherit from the same class, or reject what is none. -/
theorem superclassOf_shadows
    {parent parent' : Reference}
    (same : ReferenceShortened long short detour parent parent') :
    Shadows long short marks detour Equal (superclassOf parent) (superclassOf parent') := by
  refine (lookUp_shadows same).bind ?_
  rintro later value _ - rfl
  rw [← same.name]
  cases value with
  | classObject id => exact .pure rfl
  | _ => exact .raise _

/-! ## Declarations -/

/-- Both runs declare a function where the detour does not begin. -/
theorem declareFunction_shadows
    {declaration declaration' : FunctionDeclaration}
    (apart : detour ≠ some 0)
    (same : FunctionShortened long short detour declaration declaration') :
    Shadows long short marks detour Equal (declareFunction declaration)
      (declareFunction declaration') := by
  refine .get fun left right related => ?_
  have functions : ClosureShortened long short marks ⟨declaration, left.scope, false⟩
      ⟨declaration', right.scope, false⟩ :=
    ⟨rfl, by simp, detour, related.scope, same⟩
  refine (newFunction_shadows functions).bind ?_
  rintro later function _ - rfl
  rw [← same.name]
  exact defineHere_shadows apart _ function

/-- Methods are entered into both tables under the same names. -/
theorem methodTable_shortened
    {methods methods' : List FunctionDeclaration}
    (same : MethodsShortened long short detour.inside methods methods')
    {closure closure' : ScopeId}
    (placed : Placed detour marks closure closure')
    (name : String) :
    Option.Rel (MethodShortened long short marks) ((methodTable closure methods).get? name)
      ((methodTable closure' methods').get? name) :=
  methodTable_alike (same.forall₂.imp fun _ _ function =>
    ⟨congrArg Identifier.text function.name, fun _ => ⟨rfl, detour, placed, function⟩⟩) name

/-- Both runs make the same class, closed over scopes that correspond. -/
theorem defineClass_shadows
    {methods methods' : List FunctionDeclaration}
    (apart : detour ≠ some 0)
    (name : String)
    (superclass : Option ClassId)
    {closure closure' : ScopeId}
    (placed : Placed inner marks closure closure')
    (same : MethodsShortened long short inner.inside methods methods') :
    Shadows long short marks detour Equal
      (newClass ⟨name, superclass, methodTable closure methods⟩ >>= defineHere name)
      (newClass ⟨name, superclass, methodTable closure' methods'⟩ >>= defineHere name) := by
  have classes : ClassShortened long short marks ⟨name, superclass, methodTable closure methods⟩
      ⟨name, superclass, methodTable closure' methods'⟩ :=
    ⟨rfl, rfl, methodTable_shortened same placed⟩
  refine (newClass_shadows classes).bind ?_
  rintro later declared _ - rfl
  exact defineHere_shadows apart name declared

/-- Both runs declare a class that inherits from none. -/
theorem declareBaseClass_shadows
    {methods methods' : List FunctionDeclaration}
    (apart : detour ≠ some 0)
    (name : Identifier)
    (same : MethodsShortened long short detour.inside methods methods') :
    Shadows long short marks detour Equal (declareClass name none methods)
      (declareClass name none methods') := by
  rw [declareClass_none, declareClass_none]
  refine (defineHere_shadows apart _ _).bind fun later _ _ _ _ => ?_
  refine .get fun left right related => ?_
  exact defineClass_shadows apart _ _ related.scope same

/-- Both runs declare a class that inherits, each with a scope for its superclass. -/
theorem declareSubclass_shadows
    {parent parent' : Reference}
    {methods methods' : List FunctionDeclaration}
    (apart : detour ≠ some 0)
    (name : Identifier)
    (inherits : ReferenceShortened long short detour parent parent')
    (same : MethodsShortened long short detour.inside.inside methods methods') :
    Shadows long short marks detour Equal (declareClass name (some parent) methods)
      (declareClass name (some parent') methods') := by
  rw [declareClass_some, declareClass_some]
  refine (superclassOf_shadows inherits).bind ?_
  rintro later id _ - rfl
  refine (defineHere_shadows apart _ _).bind fun later _ _ _ _ => ?_
  refine .get fun left right related => ?_
  refine (newScope_shadows related.scope _).bind fun later closure closure' _ placed => ?_
  exact defineClass_shadows apart _ _ placed same

/-! ## Calls -/

/-- Both runs begin a call in a new scope, the second one closed over the counterpart. -/
theorem activate_shadows
    {function function' : Function}
    (placed : Placed inner marks function.closure function'.closure)
    (same : FunctionShortened long short inner function.declaration function'.declaration)
    (arguments : List Value) :
    Shadows long short marks detour (Placed inner.inside) (activate function arguments)
      (activate function' arguments) := by
  unfold activate
  rw [same.parameters]
  exact newScope_shadows placed _

/-- Both runs give the same value after a call, also from an initializer. -/
theorem callResult_shadows
    {function function' : Function}
    (same : ClosureShortened long short marks function function')
    (result : Value) :
    Shadows long short marks detour Equal (callResult function result)
      (callResult function' result) := by
  unfold callResult
  rw [← same.isConstructor]
  split
  case isTrue isConstructor =>
    refine .get fun left right related => .pure ?_
    rw [related.heap.getLocal? (same.receiver isConstructor)]
    rfl
  case isFalse => exact .pure rfl

/-- Both runs call what corresponds, or reject the call alike. -/
theorem calleeFor_shadows (subject : Value) (count line : Nat) :
    Shadows long short marks detour
      (fun marks => CalleeAlike (ClosureShortened long short marks))
      (calleeFor subject count line) (calleeFor subject count line) := by
  refine .get fun left right related => ?_
  dsimp only
  rcases eq_none_or_some_of_rel (related.heap.tables.callee? subject) with
    ⟨none, none'⟩ | ⟨callee, callee', known, known', same⟩
  · rw [none, none']
    exact .raise _
  · rw [known, known']
    dsimp only
    rw [related.heap.arity same]
    exact .either (.pure same) (.raise _)

theorem lift_shadows (outcome : Except RuntimeError Value) :
    Shadows long short marks detour Equal (lift outcome) (lift outcome) := by
  cases outcome with
  | ok value => exact .pure rfl
  | error error => exact .raise error

end Lox.Execution
