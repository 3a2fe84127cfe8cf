import Lox.Proofs.Execution.Endings
import Lox.Proofs.Execution.Lockstep

namespace Lox.Execution

/-!
# Single steps in lockstep

One lemma for each step that needs no recursion.  A variable is looked up equally
many scopes up in both runs, in scopes that are twins, under the name that it has
there.  Everything that a run makes is made in both runs at once.
-/

/-- Callees that do the same. -/
inductive CalleeTwins (pairing : Pairing) (labels : List Label) (heap : Heap) :
    Callee → Callee → Prop where
  | native {function} : CalleeTwins pairing labels heap (.native function) (.native function)
  | function {first second} :
      ClosureTwins pairing labels heap first second →
      CalleeTwins pairing labels heap (.function first) (.function second)
  | classObject {id} : CalleeTwins pairing labels heap (.classObject id) (.classObject id)

/-- Both functions of a pair have one name. -/
theorem FunctionTwins.name
    {pairing : Pairing}
    {levels : List Label}
    {declaration declaration' : FunctionDeclaration}
    (twins : FunctionTwins pairing levels declaration declaration') :
    declaration.name.text = declaration'.name.text := by
  cases twins with
  | intro same _ _ => exact same

/-- Both functions of a pair have equally many parameters. -/
theorem FunctionTwins.arity
    {pairing : Pairing}
    {levels : List Label}
    {declaration declaration' : FunctionDeclaration}
    (twins : FunctionTwins pairing levels declaration declaration') :
    declaration.arity = declaration'.arity := by
  cases twins with
  | intro _ parameters _ => exact parameters.length_eq

/-! ## What twin heaps hold -/

namespace HeapTwins

variable {pairing : Pairing} {labels : List Label} {first second : Heap}

/-- Both heaps have tables that are read alike. -/
theorem tables (twins : HeapTwins pairing labels first second) :
    TablesAlike (ClosureTwins pairing labels first) (MethodTwins pairing labels first)
      first second where
  functions := twins.functions
  classes := twins.classes.imp fun _ _ same => ⟨same.name, same.superclass, same.methods⟩
  instances := twins.instances

/-- Both runs find corresponding methods. -/
theorem findMethod?
    (twins : HeapTwins pairing labels first second)
    (classId : ClassId)
    (name : String) :
    Option.Rel (MethodTwins pairing labels first) (first.findMethod? classId name)
      (second.findMethod? classId name) :=
  twins.tables.findMethod? classId name

/-- Both runs print the same text for a value. -/
theorem display
    (twins : HeapTwins pairing labels first second)
    (value : Value) :
    first.display value = second.display value := by
  refine twins.tables.display (fun _ _ functions => ?_) value
  obtain ⟨_, _, declaration⟩ := functions.declaration
  exact declaration.name

/-- A value is called as two functions of a pair, or as one class, or not at all. -/
theorem callee?
    (twins : HeapTwins pairing labels first second)
    (value : Value) :
    Option.Rel (CalleeTwins pairing labels first) (first.callee? value)
      (second.callee? value) := by
  refine rel_imp (twins.tables.callee? value) fun _ _ same => ?_
  cases same with
  | native => exact .native
  | function functions => exact .function functions
  | classObject => exact .classObject

/-- Corresponding callees take as many arguments. -/
theorem arity
    (twins : HeapTwins pairing labels first second)
    {callee callee' : Callee}
    (same : CalleeTwins pairing labels first callee callee') :
    first.arity callee = second.arity callee' := by
  refine twins.tables.arity ?_ ?_ ?_
  · intro _ _ functions
    obtain ⟨_, _, declaration⟩ := functions.declaration
    exact declaration.arity
  · intro _ _ methods
    obtain ⟨_, _, declaration⟩ := methods.declaration
    exact declaration.arity
  · cases same with
    | native => exact .native
    | function functions => exact .function functions
    | classObject => exact .classObject

end HeapTwins

section

variable {pairing : Pairing} {labels levels : List Label} {left right : State}

/-! ## Variables -/

/-- Corresponding names have the same value equally many scopes up. -/
theorem getAt?_twins
    {depth : Nat}
    {name other : String}
    (twins : StateTwins pairing labels left right)
    (layered : Layered pairing labels left.heap left.scope levels)
    (renames : Renames levels (some depth) name other) :
    right.heap.getAt? right.scope depth other = left.heap.getAt? left.scope depth name := by
  obtain ⟨label, level, isRenamed⟩ := renames
  obtain ⟨id, above, isLabel⟩ := layered.ancestor? level
  rw [Heap.getAt?, Heap.getAt?, twins.heap.ancestor?, ← twins.scope, above]
  exact twins.heap.getLocal? isLabel isRenamed

/-- Global variables have the same values in both states. -/
theorem global?_twins
    (twins : StateTwins pairing labels left right)
    (name : String) :
    right.global? name = left.global? name := by
  rw [State.global?, State.global?, twins.leftGlobals, twins.rightGlobals,
    twins.heap.global?]

/-- Corresponding occurrences have the depth at which both variables are found. -/
theorem lookUp_lockstep
    {occurrence occurrence' : Reference}
    (twins : StateTwins pairing labels left right)
    (layered : Layered pairing labels left.heap left.scope levels)
    (same : ReferenceTwins pairing levels occurrence occurrence') :
    Lockstep pairing labels (lookUp occurrence.id occurrence.name) left
      (lookUp occurrence'.id occurrence'.name) right Same := by
  obtain ⟨depth, settled, renames⟩ := same.renames
  obtain ⟨distance, distance'⟩ := twins.distances _ _ _ settled
  refine .get ?_
  rw [distance, distance']
  cases depth with
  | none =>
      have sameName : occurrence.name.text = occurrence'.name.text := renames
      dsimp only
      rw [← sameName, global?_twins twins]
      cases left.global? occurrence.name.text with
      | none => exact .throw twins same.reports
      | some value => exact .pure twins rfl
  | some depth =>
      dsimp only
      rw [getAt?_twins twins layered renames]
      cases left.heap.getAt? left.scope depth occurrence.name.text with
      | none => exact .throw twins same.reports
      | some value => exact .pure twins rfl

/-- Both runs bind corresponding names of one scope. -/
theorem StateTwins.define
    (twins : StateTwins pairing labels left right)
    {scope : ScopeId}
    {label : Label}
    (isLabel : labels[scope]? = some label)
    {name other : String}
    (renames : label.renames name other)
    (value : Value) :
    Onward pairing labels left labels (left.define scope name value)
      (right.define scope other value) :=
  ⟨List.prefix_rfl, ⟨.define _ _ _ _, rfl, rfl⟩,
    { twins with heap := twins.heap.define isLabel renames value }⟩

/-- Both runs assign to corresponding variables. -/
theorem assignTo_lockstep
    {target target' : Reference}
    (twins : StateTwins pairing labels left right)
    (layered : Layered pairing labels left.heap left.scope levels)
    (same : ReferenceTwins pairing levels target target')
    (value : Value) :
    Lockstep pairing labels (assignTo target value) left (assignTo target' value) right
      (fun _ _ _ _ => True) := by
  obtain ⟨depth, settled, renames⟩ := same.renames
  obtain ⟨distance, distance'⟩ := twins.distances _ _ _ settled
  unfold Lockstep assignTo
  rw [distance, distance']
  cases depth with
  | none =>
      have sameName : target.name.text = target'.name.text := renames
      dsimp only
      rw [← sameName, global?_twins twins]
      cases left.global? target.name.text with
      | none => exact ⟨labels, .refl twins, same.reports⟩
      | some old =>
          dsimp only [Option.map_some]
          rw [twins.leftGlobals, twins.rightGlobals]
          exact ⟨labels, twins.define twins.heap.globals (Label.identity_renames _) value, trivial⟩
  | some depth =>
      obtain ⟨label, level, isRenamed⟩ := renames
      obtain ⟨id, above, isLabel⟩ := layered.ancestor? level
      dsimp only
      rw [twins.heap.ancestor?, ← twins.scope, above]
      exact ⟨labels, twins.define isLabel isRenamed value, trivial⟩

/-- Both runs declare corresponding names in the current scope. -/
theorem defineHere_lockstep
    {name other : String}
    (twins : StateTwins pairing labels left right)
    (layered : Layered pairing labels left.heap left.scope levels)
    (declares : Declares levels name other)
    (value : Value) :
    Lockstep pairing labels (defineHere name value) left (defineHere other value) right
      (fun _ _ _ _ => True) := by
  obtain ⟨label, isLabel, renames⟩ := twins.heap.declares layered declares
  have onward := twins.define isLabel renames value
  rw [show right.define left.scope other value = right.define right.scope other value by
    rw [twins.scope]] at onward
  exact .of_ok rfl rfl onward trivial

/-! ## Scopes and methods -/

/-- Both runs make a scope with corresponding bindings under the same scope. -/
theorem newScope_lockstep
    {label : Label}
    {bindings bindings' : Bindings Value}
    {enclosing : ScopeId}
    (twins : StateTwins pairing labels left right)
    (layered : Layered pairing labels left.heap enclosing levels)
    (relates : label.Relates bindings bindings') :
    Lockstep pairing labels (newScope bindings enclosing) left
      (newScope bindings' enclosing) right
      (fun later after scope scope' =>
        scope = scope' ∧ Layered pairing later after.heap scope (label :: levels)) := by
  have sizes : left.heap.scopes.size = right.heap.scopes.size :=
    twins.heap.leftSize.trans twins.heap.rightSize.symm
  have grown := Grows.addScope left.heap ⟨bindings, some enclosing⟩
  have longer := List.prefix_append labels [label]
  refine .of_ok rfl rfl
    ⟨longer, ⟨grown, rfl, rfl⟩, { twins with heap := twins.heap.addScope relates _ }⟩
    ⟨sizes, .inner ?_ ?_ ?_ (layered.grows longer grown)⟩
  · simp [twins.heap.leftSize]
  · simp [Heap.enclosing?, Heap.addScope]
  · cases layered with
    | outermost =>
        rw [twins.heap.leftSize]
        exact (List.getElem?_eq_some_iff.mp twins.heap.globals).1
    | inner isLabel _ _ _ =>
        rw [twins.heap.leftSize]
        exact (List.getElem?_eq_some_iff.mp isLabel).1

/-- Both runs bind a method, in scopes at the same place. -/
theorem bindMethod_lockstep
    {method method' : Function}
    (twins : StateTwins pairing labels left right)
    (methods : MethodTwins pairing labels left.heap method method')
    (object : InstanceId) :
    Lockstep pairing labels (bindMethod method object) left (bindMethod method' object) right
      (fun later after function function' =>
        ClosureTwins pairing later after.heap function function') := by
  obtain ⟨levels, layered, declaration⟩ := methods.declaration
  unfold bindMethod
  rw [← methods.closure]
  refine (newScope_lockstep twins layered (.single pairing.receiver_renames _)).bind ?_
  rintro scope _ later after after' onward ⟨rfl, inside⟩
  exact .pure onward.twins ⟨rfl, methods.isConstructor,
    fun _ => ⟨_, inside.innermost, pairing.receiver_renames⟩, _, inside, declaration⟩

/-- Both runs make a function, which is the same value in both. -/
theorem newFunction_lockstep
    {function function' : Function}
    (twins : StateTwins pairing labels left right)
    (functions : ClosureTwins pairing labels left.heap function function') :
    Lockstep pairing labels (newFunction function) left (newFunction function') right Same :=
  .of_ok rfl rfl
    ⟨List.prefix_rfl, ⟨.of_scopes rfl, rfl, rfl⟩,
      { twins with heap := twins.heap.addFunction functions }⟩
    (congrArg Value.functionObject twins.heap.functions.size)

/-- Both runs give a bound method the same value. -/
theorem boundValue_lockstep
    {method method' : Function}
    (twins : StateTwins pairing labels left right)
    (methods : MethodTwins pairing labels left.heap method method')
    (object : InstanceId) :
    Lockstep pairing labels (boundValue method object) left (boundValue method' object) right
      Same :=
  (bindMethod_lockstep twins methods object).bind
    fun _ _ _ _ _ onward functions => newFunction_lockstep onward.twins functions

/-! ## Instances -/

/-- Both runs read a property of one name. -/
theorem propertyOf_lockstep
    {name name' : Identifier}
    (twins : StateTwins pairing labels left right)
    (same : name.text = name'.text)
    (reports : pairing.Reports name name')
    (object : Value) :
    Lockstep pairing labels (propertyOf object name) left (propertyOf object name') right
      Same := by
  cases object with
  | instanceObject id =>
      refine .get ?_
      dsimp only
      rw [← same, Heap.getField?, Heap.getField?, ← twins.heap.instances]
      cases left.heap.instances[id]?.bind (·.fields.get? name.text) with
      | some value => exact .pure twins rfl
      | none =>
          dsimp only
          have found : Option.Rel (MethodTwins pairing labels left.heap)
              (left.heap.methodOf? id name.text) (right.heap.methodOf? id name.text) := by
            rw [Heap.methodOf?, Heap.methodOf?, ← twins.heap.instances]
            cases left.heap.instances[id]? with
            | none => exact .none
            | some receiver => exact twins.heap.findMethod? receiver.classId name.text
          obtain ⟨none, none'⟩ | ⟨method, method', known, known', methods⟩ :=
            eq_none_or_some_of_rel found
          · rw [none, none']
            exact .throw twins reports
          · rw [known, known']
            exact boundValue_lockstep twins methods id
  | _ => exact .throw twins reports

/-- Both runs find the same instance to set a field of, or reject what is none. -/
theorem fieldOwner_lockstep
    {name name' : Identifier}
    (twins : StateTwins pairing labels left right)
    (reports : pairing.Reports name name')
    (object : Value) :
    Lockstep pairing labels (fieldOwner object name) left (fieldOwner object name') right
      Same := by
  cases object with
  | instanceObject id => exact .pure twins rfl
  | _ => exact .throw twins reports

/-- Both runs set the same field. -/
theorem writeField_lockstep
    (twins : StateTwins pairing labels left right)
    (object : InstanceId)
    (name : String)
    (value : Value) :
    Lockstep pairing labels (writeField object name value) left
      (writeField object name value) right (fun _ _ _ _ => True) :=
  .of_ok rfl rfl
    ⟨List.prefix_rfl, ⟨.of_scopes rfl, rfl, rfl⟩,
      { twins with heap := twins.heap.setField object name value }⟩
    trivial

/-- Both runs make an instance of the same class. -/
theorem newInstance_lockstep
    (twins : StateTwins pairing labels left right)
    (classId : ClassId) :
    Lockstep pairing labels (newInstance classId) left (newInstance classId) right Same :=
  .of_ok rfl rfl
    ⟨List.prefix_rfl, ⟨.of_scopes rfl, rfl, rfl⟩,
      { twins with heap := twins.heap.addInstance ⟨classId, Bindings.empty⟩ }⟩
    (congrArg Array.size twins.heap.instances)

/-! ## Superclasses -/

/-- Both runs find the same superclass, whose name is never changed. -/
theorem superclassAt_lockstep
    {depth : Nat}
    (twins : StateTwins pairing labels left right)
    (layered : Layered pairing labels left.heap left.scope levels)
    (renames : Renames levels (some depth) superclassName superclassName) :
    Lockstep pairing labels (superclassAt depth) left (superclassAt depth) right Same := by
  refine .get ?_
  rw [getAt?_twins twins layered renames]
  split
  · exact .pure twins rfl
  · exact .throw twins rfl

/-- Both runs find the same receiver, whose name is never changed. -/
theorem receiverInside_lockstep
    {depth : Nat}
    (twins : StateTwins pairing labels left right)
    (layered : Layered pairing labels left.heap left.scope levels)
    (renames : ∀ nearer, depth = nearer + 1 →
      Renames levels (some nearer) receiverName receiverName) :
    Lockstep pairing labels (receiverInside depth) left (receiverInside depth) right Same := by
  refine .get ?_
  cases depth with
  | zero => exact .throw twins rfl
  | succ nearer =>
      dsimp only
      rw [getAt?_twins twins layered (renames nearer rfl)]
      split
      · exact .pure twins rfl
      · exact .throw twins rfl

/-- Both runs find the method of a superclass and bind it to the same instance. -/
theorem superMethod_lockstep
    {id id' : NodeId}
    {line line' : Nat}
    {method method' : Identifier}
    (twins : StateTwins pairing labels left right)
    (layered : Layered pairing labels left.heap left.scope levels)
    (same : SuperTwins pairing levels id id')
    (keyword : pairing.Reports ⟨superclassName, line⟩ ⟨superclassName, line'⟩)
    (sameName : method.text = method'.text)
    (reports : pairing.Reports method method') :
    Lockstep pairing labels (superMethod id line method) left
      (superMethod id' line' method') right Same := by
  obtain ⟨depth, settled, superclass, receiver⟩ := same.renames
  obtain ⟨distance, distance'⟩ := twins.distances _ _ _ settled
  refine .get ?_
  rw [distance, distance']
  cases depth with
  | none => exact .throw twins keyword
  | some depth =>
      refine (superclassAt_lockstep twins layered (superclass depth rfl)).bind ?_
      rintro parent _ later after after' onward rfl
      refine (receiverInside_lockstep onward.twins (onward.layered layered) ?_).bind ?_
      · rintro nearer rfl
        exact receiver nearer rfl
      rintro object _ last final final' further rfl
      refine .get ?_
      rw [← sameName]
      obtain ⟨none, none'⟩ | ⟨found, found', known, known', methods⟩ :=
        eq_none_or_some_of_rel (further.twins.heap.findMethod? parent method.text)
      · rw [none, none']
        exact .throw further.twins reports
      · rw [known, known']
        exact boundValue_lockstep further.twins methods object

/-! ## Declarations -/

/-- Both runs declare a function, under names that stand for each other. -/
theorem declareFunction_lockstep
    {declaration declaration' : FunctionDeclaration}
    (twins : StateTwins pairing labels left right)
    (layered : Layered pairing labels left.heap left.scope levels)
    (declares : Declares levels declaration.name.text declaration'.name.text)
    (same : FunctionTwins pairing levels declaration declaration') :
    Lockstep pairing labels (declareFunction declaration) left (declareFunction declaration')
      right (fun _ _ _ _ => True) := by
  refine .get ?_
  have functions : ClosureTwins pairing labels left.heap
      ⟨declaration, left.scope, false⟩ ⟨declaration', right.scope, false⟩ :=
    ⟨twins.scope, rfl, by simp, levels, layered, same⟩
  refine (newFunction_lockstep twins functions).bind ?_
  rintro function _ later after after' onward rfl
  exact defineHere_lockstep onward.twins (onward.layered layered) declares function

/-- Both runs look up a class to inherit from. -/
theorem superclassOf_lockstep
    {parent parent' : Reference}
    (twins : StateTwins pairing labels left right)
    (layered : Layered pairing labels left.heap left.scope levels)
    (same : ReferenceTwins pairing levels parent parent') :
    Lockstep pairing labels (superclassOf parent) left (superclassOf parent') right Same := by
  refine (lookUp_lockstep twins layered same).bind ?_
  rintro value _ later after after' onward rfl
  cases value with
  | classObject id => exact .pure onward.twins rfl
  | _ => exact .throw onward.twins same.reports

/-- The methods of both classes are pairs, one for one. -/
theorem MethodsTwins.forall₂
    {methods methods' : List FunctionDeclaration}
    (twins : MethodsTwins pairing levels methods methods') :
    List.Forall₂ (FunctionTwins pairing levels) methods methods' := by
  induction methods generalizing methods' with
  | nil =>
      cases twins
      exact .nil
  | cons first rest inductionHypothesis =>
      cases twins with
      | cons function others => exact .cons function (inductionHypothesis others)

/-- Corresponding methods stand under corresponding names in both tables. -/
theorem methodTable_twins
    {heap : Heap}
    {closure : ScopeId}
    {methods methods' : List FunctionDeclaration}
    (layered : Layered pairing labels heap closure levels)
    (same : MethodsTwins pairing (pairing.receiver :: levels) methods methods')
    (name : String) :
    Option.Rel (MethodTwins pairing labels heap) ((methodTable closure methods).get? name)
      ((methodTable closure methods').get? name) :=
  methodTable_alike (same.forall₂.imp fun _ _ function =>
    ⟨function.name, fun _ => ⟨rfl, rfl, levels, layered, function⟩⟩) name

/-- Both runs make a class and bind it to its name. -/
theorem defineClass_lockstep
    {name name' : Identifier}
    {superclass : Option ClassId}
    {closure : ScopeId}
    {inside : List Label}
    {methods methods' : List FunctionDeclaration}
    (twins : StateTwins pairing labels left right)
    (layered : Layered pairing labels left.heap left.scope levels)
    (sameName : name.text = name'.text)
    (declares : Declares levels name.text name'.text)
    (around : Layered pairing labels left.heap closure inside)
    (same : MethodsTwins pairing (pairing.receiver :: inside) methods methods') :
    Lockstep pairing labels
      (newClass ⟨name.text, superclass, methodTable closure methods⟩ >>= defineHere name.text)
      left
      (newClass ⟨name'.text, superclass, methodTable closure methods'⟩ >>=
        defineHere name'.text)
      right (fun _ _ _ _ => True) := by
  have classes : ClassTwins pairing labels left.heap
      ⟨name.text, superclass, methodTable closure methods⟩
      ⟨name'.text, superclass, methodTable closure methods'⟩ :=
    ⟨sameName, rfl, methodTable_twins around same⟩
  have made : Lockstep pairing labels
      (newClass ⟨name.text, superclass, methodTable closure methods⟩) left
      (newClass ⟨name'.text, superclass, methodTable closure methods'⟩) right Same :=
    .of_ok rfl rfl
      ⟨List.prefix_rfl, ⟨.of_scopes rfl, rfl, rfl⟩,
        { twins with heap := twins.heap.addClass classes }⟩
      (congrArg Value.classObject twins.heap.classes.size)
  refine made.bind ?_
  rintro declared _ later after after' onward rfl
  exact defineHere_lockstep onward.twins (onward.layered layered) declares declared

/-- Both runs declare a class that inherits from none. -/
theorem declareBaseClass_lockstep
    {name name' : Identifier}
    {methods methods' : List FunctionDeclaration}
    (twins : StateTwins pairing labels left right)
    (layered : Layered pairing labels left.heap left.scope levels)
    (sameName : name.text = name'.text)
    (declares : Declares levels name.text name'.text)
    (same : MethodsTwins pairing (pairing.receiver :: levels) methods methods') :
    Lockstep pairing labels (declareClass name none methods) left
      (declareClass name' none methods') right (fun _ _ _ _ => True) := by
  rw [declareClass_none, declareClass_none]
  refine (defineHere_lockstep twins layered declares .nil).bind ?_
  rintro _ _ later after after' onward -
  refine .get ?_
  have inside := onward.layered layered
  rw [← onward.twins.scope]
  exact defineClass_lockstep onward.twins inside sameName declares inside same

/-- Both runs declare a class that inherits, each with a scope for its superclass. -/
theorem declareSubclass_lockstep
    {name name' : Identifier}
    {parent parent' : Reference}
    {methods methods' : List FunctionDeclaration}
    (twins : StateTwins pairing labels left right)
    (layered : Layered pairing labels left.heap left.scope levels)
    (sameName : name.text = name'.text)
    (declares : Declares levels name.text name'.text)
    (inherits : ReferenceTwins pairing levels parent parent')
    (same :
      MethodsTwins pairing (pairing.receiver :: pairing.superclass :: levels) methods
        methods') :
    Lockstep pairing labels (declareClass name (some parent) methods) left
      (declareClass name' (some parent') methods') right (fun _ _ _ _ => True) := by
  rw [declareClass_some, declareClass_some]
  refine (superclassOf_lockstep twins layered inherits).bind ?_
  rintro id _ found state state' first rfl
  have atFound := first.layered layered
  refine (defineHere_lockstep first.twins atFound declares .nil).bind ?_
  rintro _ _ bound middle middle' second -
  refine .get ?_
  have atBound := second.layered atFound
  rw [← second.twins.scope]
  refine (newScope_lockstep second.twins atBound
    (.single pairing.superclass_renames _)).bind ?_
  rintro closure _ later after after' third ⟨rfl, inside⟩
  exact defineClass_lockstep third.twins (third.layered atBound) sameName declares inside same

/-! ## Calls -/

/-- Both runs make the scope of a call, with the same arguments. -/
theorem activate_lockstep
    {function function' : Function}
    (twins : StateTwins pairing labels left right)
    (functions : ClosureTwins pairing labels left.heap function function')
    (arguments : List Value) :
    ∃ inside,
      BodyTwins pairing inside function.declaration.body function'.declaration.body ∧
        Lockstep pairing labels (activate function arguments) left
          (activate function' arguments) right
          (fun later after scope scope' =>
            scope = scope' ∧ Layered pairing later after.heap scope inside) := by
  obtain ⟨levels, layered, declaration⟩ := functions.declaration
  obtain ⟨declared, closure, isConstructor⟩ := function
  obtain ⟨declared', closure', isConstructor'⟩ := function'
  obtain rfl : closure = closure' := functions.closure
  cases declaration with
  | @intro _ label name name' parameters parameters' body body' _ same bodies =>
      refine ⟨label :: levels, bodies, newScope_lockstep twins layered ?_⟩
      refine .ofList_zip ?_ arguments
      exact List.forall₂_map_left_iff.mpr (List.forall₂_map_right_iff.mpr same)

/-- Both runs give the same value after a call, also from an initializer. -/
theorem callResult_lockstep
    {function function' : Function}
    (twins : StateTwins pairing labels left right)
    (functions : ClosureTwins pairing labels left.heap function function')
    (result : Value) :
    Lockstep pairing labels (callResult function result) left (callResult function' result)
      right Same := by
  unfold callResult
  rw [← functions.isConstructor]
  split
  next isConstructor =>
    refine .get (.pure twins ?_)
    obtain ⟨label, isLabel, renames⟩ := functions.receiver isConstructor
    rw [Same, ← functions.closure, twins.heap.getLocal? isLabel renames]
  next => exact .pure twins rfl

/-- Both runs find corresponding callees, or neither finds one that can be called. -/
theorem calleeFor_lockstep
    {line line' : Nat}
    (twins : StateTwins pairing labels left right)
    (lines : pairing.lines line line')
    (subject : Value)
    (count : Nat) :
    Lockstep pairing labels (calleeFor subject count line) left
      (calleeFor subject count line') right
      (fun later after callee callee' => CalleeTwins pairing later after.heap callee callee') := by
  refine .get ?_
  dsimp only
  obtain ⟨none, none'⟩ | ⟨callee, callee', known, known', same⟩ :=
    eq_none_or_some_of_rel (twins.heap.callee? subject)
  · rw [none, none']
    exact .throw twins lines
  · rw [known, known']
    dsimp only
    rw [← twins.heap.arity same]
    split
    · exact .pure twins same
    · exact .throw twins ⟨rfl, rfl, lines⟩

theorem printValue_lockstep
    (twins : StateTwins pairing labels left right)
    (value : Value) :
    Lockstep pairing labels (printValue value) left (printValue value) right
      (fun _ _ _ _ => True) := by
  have printed : left.transcript.print (left.heap.display value) =
      right.transcript.print (right.heap.display value) := by
    rw [twins.transcript, twins.heap.display]
  exact .of_ok rfl rfl
    ⟨List.prefix_rfl, ⟨.refl _, rfl, rfl⟩, { twins with transcript := printed }⟩ trivial

theorem readClock_lockstep (twins : StateTwins pairing labels left right) :
    Lockstep pairing labels readClock left readClock right Same :=
  .of_ok rfl rfl
    ⟨List.prefix_rfl, ⟨.refl _, rfl, rfl⟩,
      { twins with clock := congrArg Clock.next twins.clock }⟩
    (congrArg (fun clock : Clock => Value.number clock.seconds) twins.clock)

/-! ## Operators -/

/-- Operators with one operand give the same in both runs. -/
theorem applyUnary_lockstep
    {line line' : Nat}
    (twins : StateTwins pairing labels left right)
    (lines : pairing.lines line line')
    (operator : UnaryOperator)
    (operand : Value) :
    Lockstep pairing labels (lift (applyUnary operator line operand)) left
      (lift (applyUnary operator line' operand)) right Same := by
  cases operator with
  | not => exact .pure twins rfl
  | negate =>
      cases operand with
      | number value => exact .pure twins rfl
      | _ => exact .throw twins lines

/-- An operation on numbers is in lockstep with itself if it is on all numbers. -/
theorem onNumbers_lockstep
    {line line' : Nat}
    {operation operation' : Number → Number → Except RuntimeError Value}
    (twins : StateTwins pairing labels left right)
    (lines : pairing.lines line line')
    (operator : BinaryOperator)
    (first second : Value)
    (steps : ∀ one other,
      Lockstep pairing labels (lift (operation one other)) left (lift (operation' one other))
        right Same) :
    Lockstep pairing labels (lift (onNumbers operator line operation first second)) left
      (lift (onNumbers operator line' operation' first second)) right Same := by
  unfold onNumbers
  split
  · exact steps _ _
  · exact .throw twins ⟨rfl, lines⟩

/-- Operators with two operands give the same in both runs. -/
theorem applyBinary_lockstep
    {line line' : Nat}
    (twins : StateTwins pairing labels left right)
    (lines : pairing.lines line line')
    (operator : BinaryOperator)
    (first second : Value) :
    Lockstep pairing labels (lift (applyBinary operator line first second)) left
      (lift (applyBinary operator line' first second)) right Same := by
  have total (operation : Number → Number → Value) :
      Lockstep pairing labels
        (lift (onNumbers operator line (fun one other => .ok (operation one other)) first second))
        left
        (lift (onNumbers operator line' (fun one other => .ok (operation one other)) first
          second))
        right Same :=
    onNumbers_lockstep twins lines operator first second fun _ _ => .pure twins rfl
  cases operator with
  | add =>
      simp only [applyBinary, addValues]
      split
      · exact .pure twins rfl
      · exact .pure twins rfl
      · exact .pure twins rfl
      · exact .pure twins rfl
      · exact .throw twins lines
  | divide =>
      refine onNumbers_lockstep twins lines _ first second fun one other => ?_
      unfold divideNumbers
      split
      · exact .throw twins lines
      · exact .pure twins rfl
  | equal => exact .pure twins rfl
  | notEqual => exact .pure twins rfl
  | subtract => exact total _
  | multiply => exact total _
  | greater => exact total _
  | greaterEqual => exact total _
  | less => exact total _
  | lessEqual => exact total _

end

end Lox.Execution
