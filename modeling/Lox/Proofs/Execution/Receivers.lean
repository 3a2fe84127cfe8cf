import Lox.Proofs.Execution.Keywords

namespace Lox.Execution

open Scoping

/-!
# Methods and their receivers

A class, the scope with its `super`, the methods that are closed over it, and the scopes
with `this` in which they are bound are made one after another.  What ties them together
is kept by every act: a scope with `this` has a method of some class around it, and what it
holds is an instance of this class or of one that descends from it.
-/

/-! ## What classes and instances keep -/

namespace Heap

/-- A class has a method itself, under some name. -/
def HasMethod (heap : Heap) (classId : ClassId) (method : Function) : Prop :=
  ∃ made name, heap.classes[classId]? = some made ∧ made.methods.get? name = some method

/-- A class is in the chain of another one. -/
def Descends (heap : Heap) (id ancestor : ClassId) : Prop :=
  ∃ ids, heap.Lineage id ids ∧ ancestor ∈ ids

/-- An instance is of a class or of one that descends from it. -/
def IsA (heap : Heap) (object : InstanceId) (classId : ClassId) : Prop :=
  ∃ made, heap.instances[object]? = some made ∧ heap.Descends made.classId classId

/-- A scope has an instance as `this` for a method of a class. -/
structure Receives
    (heap : Heap)
    (scope : ScopeId)
    (classId : ClassId)
    (method : Function)
    (object : InstanceId) :
    Prop where
  this : heap.getLocal? scope receiverName = some (.instanceObject object)
  around : heap.enclosing? scope = some method.closure
  declared : heap.HasMethod classId method
  receiver : heap.IsA object classId

variable {heap : Heap} {id classId : ClassId} {ids : List ClassId} {name : String}
  {method : Function}

/-- The chain of a class goes on with the chain of each class in it. -/
theorem Lineage.rest
    (lineage : heap.Lineage id ids)
    (member : classId ∈ ids) :
    ∃ rest, heap.Lineage classId rest ∧ ∀ ancestor ∈ rest, ancestor ∈ ids := by
  induction lineage with
  | base known isLast =>
      obtain rfl := List.mem_singleton.mp member
      exact ⟨_, .base known isLast, fun _ inRest => inRest⟩
  | derived known isParent inherited inductionHypothesis =>
      rcases List.mem_cons.mp member with rfl | above
      · exact ⟨_, .derived known isParent inherited, fun _ inRest => inRest⟩
      · obtain ⟨rest, lineage, within⟩ := inductionHypothesis above
        exact ⟨rest, lineage, fun _ inRest => List.mem_cons_of_mem _ (within _ inRest)⟩

/-- A chain has only one class without a superclass, its last one. -/
theorem Lineage.base_unique
    {others : List ClassId}
    {left right : ClassId}
    {made other : Class}
    (lineage : heap.Lineage id ids)
    (again : heap.Lineage id others)
    (isLeft : left ∈ ids)
    (isRight : right ∈ others)
    (knownLeft : heap.classes[left]? = some made)
    (knownRight : heap.classes[right]? = some other)
    (baseLeft : made.superclass = none)
    (baseRight : other.superclass = none) :
    left = right := by
  induction lineage generalizing others with
  | base known isLast =>
      obtain rfl := List.mem_singleton.mp isLeft
      cases again with
      | base => exact (List.mem_singleton.mp isRight).symm
      | derived knownAgain isParent =>
          obtain rfl := Option.some.inj (known.symm.trans knownAgain)
          cases isLast.symm.trans isParent
  | derived known isParent _ inductionHypothesis =>
      cases again with
      | base knownAgain isLast =>
          obtain rfl := Option.some.inj (known.symm.trans knownAgain)
          cases isLast.symm.trans isParent
      | derived knownAgain isParentAgain inherited =>
          obtain rfl := Option.some.inj (known.symm.trans knownAgain)
          obtain rfl := Option.some.inj (isParent.symm.trans isParentAgain)
          rcases List.mem_cons.mp isLeft with rfl | aboveLeft
          · obtain rfl := Option.some.inj (known.symm.trans knownLeft)
            cases baseLeft.symm.trans isParent
          rcases List.mem_cons.mp isRight with rfl | aboveRight
          · obtain rfl := Option.some.inj (known.symm.trans knownRight)
            cases baseRight.symm.trans isParent
          exact inductionHypothesis inherited aboveLeft aboveRight

theorem Lineage.self_mem (lineage : heap.Lineage id ids) : id ∈ ids := by
  cases lineage with
  | base _ _ => exact List.mem_cons_self
  | derived _ _ _ => exact List.mem_cons_self

/-- The superclass of a class in a chain is in the chain. -/
theorem Lineage.superclass_mem
    (lineage : heap.Lineage id ids)
    (member : classId ∈ ids)
    {declared : Class}
    {parent : ClassId}
    (known : heap.classes[classId]? = some declared)
    (above : declared.superclass = some parent) :
    parent ∈ ids := by
  obtain ⟨rest, isRest, within⟩ := lineage.rest member
  cases isRest with
  | base knownAgain isLast =>
      obtain rfl := Option.some.inj (known.symm.trans knownAgain)
      cases isLast.symm.trans above
  | derived knownAgain isParent inherited =>
      obtain rfl := Option.some.inj (known.symm.trans knownAgain)
      obtain rfl := Option.some.inj (above.symm.trans isParent)
      exact within _ (List.mem_cons_of_mem _ inherited.self_mem)

/-- What is found through a class is a method of a class in its chain. -/
theorem Lineage.exists_hasMethod
    (lineage : heap.Lineage id ids)
    (found : heap.findMethod? id name = some method) :
    ∃ ancestor ∈ ids, heap.HasMethod ancestor method := by
  obtain ⟨ancestor, made, member, known, own⟩ := exists_of_findMethod? (· ∈ ids)
    (fun _ _ _ member known above => lineage.superclass_mem member known above)
    lineage.self_mem found
  exact ⟨ancestor, member, made, name, known, own⟩

end Heap

namespace Heap.Carries

variable {before after : Heap} (carries : before.Carries after)

include carries

theorem lineage
    {id : ClassId}
    {ids : List ClassId}
    (lineage : before.Lineage id ids) :
    after.Lineage id ids := by
  induction lineage with
  | base known isLast => exact .base (carries.classes _ _ known) isLast
  | derived known isParent _ inductionHypothesis =>
      exact .derived (carries.classes _ _ known) isParent inductionHypothesis

theorem hasMethod
    {classId : ClassId}
    {method : Function}
    (has : before.HasMethod classId method) :
    after.HasMethod classId method := by
  obtain ⟨made, name, known, own⟩ := has
  exact ⟨made, name, carries.classes _ _ known, own⟩

theorem isA
    {object : InstanceId}
    {classId : ClassId}
    (isA : before.IsA object classId) :
    after.IsA object classId := by
  obtain ⟨made, known, ids, lineage, member⟩ := isA
  obtain ⟨later, isLater, same⟩ := carries.instances _ _ known
  exact ⟨later, isLater, ids, same ▸ carries.lineage lineage, member⟩

/-- The receiver of a method is the same all the time. -/
theorem receives
    {scope : ScopeId}
    {classId : ClassId}
    {method : Function}
    {object : InstanceId}
    (receives : before.Receives scope classId method object) :
    after.Receives scope classId method object := by
  obtain ⟨found, known, -⟩ := Option.bind_eq_some_iff.mp receives.around
  have has : before.Has (.scope scope) := (Array.getElem?_eq_some_iff.mp known).1
  exact ⟨(carries.keywords scope _ has (.inl rfl)).trans receives.this,
    (carries.around scope has).trans receives.around, carries.hasMethod receives.declared,
    carries.isA receives.receiver⟩

end Heap.Carries

namespace Act

variable {act : Act} {state : State}

/-! ## What is new after an act -/

/-- A class is an old one, or the one that the act declares, with methods over one scope. -/
theorem classes_cases
    {id : ClassId}
    {made : Class}
    (known : (act.result state).heap.classes[id]? = some made) :
    state.heap.classes[id]? = some made ∨
      ∃ name parent methods, act = .declareClass name parent methods ∧
        id = state.heap.classes.size ∧ made.superclass = parent ∧
        ∀ name method, made.methods.get? name = some method →
          method.closure = if parent.isSome then state.heap.scopes.size else state.scope := by
  cases act with
  | declareClass name parent methods =>
      let around := (state.heap.define state.scope name .nil).withSuperclass state.scope parent
      have same : (result state (declareClass name parent methods)).heap.classes =
          state.heap.classes.push ⟨name, parent, methodTable around.2 methods⟩ := by
        cases parent <;> rfl
      have closure : around.2 =
          if parent.isSome then state.heap.scopes.size else state.scope := by
        cases parent <;> simp [around, Heap.withSuperclass, Heap.define]
      rw [same, Array.getElem?_push] at known
      split at known
      next new =>
        obtain rfl := Option.some.inj known
        exact .inr ⟨name, parent, methods, rfl, new, rfl, fun _ _ own =>
          (mem_of_get?_methodTable own).1.trans closure⟩
      · exact .inl known
  | _ => exact .inl known

theorem functions_cases
    {id : FunctionId}
    {function : Function}
    (known : (act.result state).heap.functions[id]? = some function) :
    state.heap.functions[id]? = some function ∨
      (∃ method object, act = .bind method object ∧
        function = { method with closure := state.heap.scopes.size }) ∨
      ∃ declaration, act = .declareFunction declaration ∧
        function = ⟨declaration, state.scope, false⟩ := by
  cases act with
  | bind method object =>
      simp only [result, Heap.addFunction, Heap.functions_withReceiver,
        Array.getElem?_push] at known
      split at known
      · exact .inr (.inl ⟨method, object, rfl, (Option.some.inj known).symm⟩)
      · exact .inl known
  | declareFunction declaration =>
      simp only [result, Heap.addFunction, Heap.define, Array.getElem?_push] at known
      split at known
      · obtain rfl := Option.some.inj known
        exact .inr (.inr ⟨declaration, rfl, rfl⟩)
      · exact .inl known
  | declareClass name parent methods => cases parent <;> exact .inl known
  | _ => exact .inl known

end Act

/-! ## What every act keeps of methods and receivers -/

/-- A scope in which a run declares things: it holds no keyword. -/
def Heap.Plain (heap : Heap) (scope : ScopeId) : Prop :=
  ∀ keyword, IsKeyword keyword → heap.getLocal? scope keyword = none

/--
What ties classes, methods and their receivers together.  Every scope with `this` is there
for a method of a class, a function that is closed over one is this method, and every
method of a class is closed over a scope that has the superclass, if the class has one,
which is a scope of this class alone.
-/
structure Dispatching (heap : Heap) : Prop where
  receivers :
    ∀ scope value, heap.getLocal? scope receiverName = some value →
      ∃ classId method object, value = .instanceObject object ∧
        heap.Receives scope classId method object
  functions :
    ∀ (id : FunctionId) function, heap.functions[id]? = some function →
      (heap.getLocal? function.closure receiverName).isSome →
        ∃ classId method object,
          heap.Receives function.closure classId method object ∧
            function = { method with closure := function.closure }
  supers :
    ∀ (classId : ClassId) made name method, heap.classes[classId]? = some made →
      made.methods.get? name = some method →
        heap.getLocal? method.closure superclassName = made.superclass.map .classObject
  apart :
    ∀ classId method other inherited, heap.HasMethod classId method →
      heap.HasMethod other inherited → method.closure = inherited.closure →
        (heap.getLocal? method.closure superclassName).isSome → classId = other

/-- An act that binds a method binds one of a class from which its receiver descends. -/
def Act.Sourced (heap : Heap) : Act → Prop
  | .bind method object => ∃ classId, heap.HasMethod classId method ∧ heap.IsA object classId
  | .receive method object => ∃ classId, heap.HasMethod classId method ∧ heap.IsA object classId
  | _ => True

section

variable {act : Act} {state : State}

/-- A method that is bound has its receiver in a new scope. -/
theorem Act.receives_new
    {method : Function}
    {object : InstanceId}
    (binds : act = .bind method object ∨ act = .receive method object)
    (sourced : act.Sourced state.heap) :
    ∃ classId,
      (act.result state).heap.Receives state.heap.scopes.size classId method object := by
  have source : ∃ classId, state.heap.HasMethod classId method ∧ state.heap.IsA object classId := by
    rcases binds with rfl | rfl <;> exact sourced
  obtain ⟨classId, has, isA⟩ := source
  have carries : state.heap.Carries (act.result state).heap :=
    act.carries (by rcases binds with rfl | rfl <;> exact legible_of_none rfl) state
  refine ⟨classId, ?_, ?_, carries.hasMethod has, carries.isA isA⟩
  · rcases binds with rfl | rfl
    · exact (Heap.getLocal?_addScope _ _ _).trans (if_pos rfl)
    · exact (Heap.getLocal?_addScope _ _ _).trans (if_pos rfl)
  · rcases binds with rfl | rfl
    · simp [result, Heap.enclosing?, Heap.withReceiver, Heap.addScope, Heap.addFunction]
    · simp [result, Heap.enclosing?, Heap.withReceiver, Heap.addScope]

theorem Heap.Whole.has_closure
    {heap : Heap}
    (whole : heap.Whole)
    {id : FunctionId}
    {function : Function}
    (known : heap.functions[id]? = some function) :
    heap.Has (.scope function.closure) := by
  have refers : heap.Refers (.function id) (.scope function.closure) := .closure known
  exact whole _ _ (has_of_refers refers) refers

theorem Heap.Whole.has_methodClosure
    {heap : Heap}
    (whole : heap.Whole)
    {classId : ClassId}
    {method : Function}
    (has : heap.HasMethod classId method) :
    heap.Has (.scope method.closure) := by
  obtain ⟨made, name, known, own⟩ := has
  have refers : heap.Refers (.classObject classId) (.scope method.closure) := .method known own
  exact whole _ _ (has_of_refers refers) refers

namespace Dispatching

variable (dispatching : Dispatching state.heap) (whole : state.heap.Whole)
  (legible : act.Legible) (here : state.heap.Has (.scope state.scope))
  (plain : state.heap.Plain state.scope)

include dispatching whole legible here plain

/-- Every act that binds no method to a stranger keeps all of this. -/
theorem after (sourced : act.Sourced state.heap) : Dispatching (act.result state).heap where
  receivers scope value found := by
    rw [Act.getLocal?_result legible (.inl rfl)] at found
    split at found
    next isNew =>
      cases act with
      | bind method object =>
          obtain rfl := Option.some.inj found
          obtain ⟨classId, receives⟩ := Act.receives_new (.inl rfl) sourced
          exact ⟨classId, method, object, rfl, isNew ▸ receives⟩
      | receive method object =>
          obtain rfl := Option.some.inj found
          obtain ⟨classId, receives⟩ := Act.receives_new (.inr rfl) sourced
          exact ⟨classId, method, object, rfl, isNew ▸ receives⟩
      | declareClass name parent methods => cases parent <;> cases found
      | _ => cases found
    · obtain ⟨classId, method, object, same, receives⟩ := dispatching.receivers scope value found
      exact ⟨classId, method, object, same, (act.carries legible state).receives receives⟩
  functions id function known isReceiver := by
    rcases Act.functions_cases known with before | ⟨method, object, rfl, rfl⟩ | ⟨_, rfl, rfl⟩
    · have has := whole.has_closure before
      rw [(act.carries legible state).keywords _ _ has (.inl rfl)] at isReceiver
      obtain ⟨classId, method, object, receives, bound⟩ :=
        dispatching.functions id function before isReceiver
      exact ⟨classId, method, object, (act.carries legible state).receives receives, bound⟩
    · obtain ⟨classId, receives⟩ := Act.receives_new (.inl rfl) sourced
      exact ⟨classId, method, object, receives, rfl⟩
    · rw [(Act.carries legible state).keywords _ _ here (.inl rfl),
        plain _ (.inl rfl)] at isReceiver
      cases isReceiver
  supers classId made name method known own := by
    rcases Act.classes_cases known with before | ⟨_, parent, _, rfl, _, isParent, closed⟩
    · have has := whole.has_methodClosure ⟨made, name, before, own⟩
      rw [(act.carries legible state).keywords _ _ has (.inr rfl)]
      exact dispatching.supers classId made name method before own
    · rw [closed name method own, isParent]
      cases parent with
      | none =>
          have kept := (Act.carries legible state).keywords _ _ here (.inr rfl)
          exact kept.trans (plain _ (.inr rfl))
      | some parent => exact (Act.getLocal?_result legible (.inr rfl) _).trans (if_pos rfl)
  apart classId method other inherited has hasOther same isSuper := by
    -- A scope with `super` is new together with the class whose methods are closed over it.
    have sort : ∀ {id : ClassId} {found : Function},
        (act.result state).heap.HasMethod id found →
        ((act.result state).heap.getLocal? found.closure superclassName).isSome →
        state.heap.HasMethod id found ∨
          id = state.heap.classes.size ∧ found.closure = state.heap.scopes.size := by
      rintro id found ⟨made, name, known, own⟩ isSuper
      rcases Act.classes_cases known with before | ⟨_, parent, _, rfl, isNew, _, closed⟩
      · exact .inl ⟨made, name, before, own⟩
      · cases parent with
        | none =>
            have isHere : found.closure = state.scope := closed name found own
            rw [isHere, (Act.carries legible state).keywords _ _ here (.inr rfl),
              plain _ (.inr rfl)] at isSuper
            cases isSuper
        | some parent => exact .inr ⟨isNew, closed name found own⟩
    have old : ∀ {id : ClassId} {found : Function}, state.heap.HasMethod id found →
        found.closure ≠ state.heap.scopes.size :=
      fun has => Nat.ne_of_lt (whole.has_methodClosure has)
    rcases sort has isSuper with before | ⟨isNew, closure⟩
    · rcases sort hasOther (same ▸ isSuper) with beforeOther | ⟨-, closure⟩
      · rw [(act.carries legible state).keywords _ _ (whole.has_methodClosure before)
          (.inr rfl)] at isSuper
        exact dispatching.apart classId method other inherited before beforeOther same isSuper
      · exact absurd (same.trans closure) (old before)
    · rcases sort hasOther (same ▸ isSuper) with beforeOther | ⟨isNewOther, -⟩
      · exact absurd (same.symm.trans closure) (old beforeOther)
      · exact isNew.trans isNewOther.symm

end Dispatching

/-! ## Where methods are bound -/

/-- The scope around the one a number of steps up. -/
theorem Heap.ancestor?_succ (heap : Heap) (distance : Nat) (scope : ScopeId) :
    heap.ancestor? (distance + 1) scope =
      (heap.ancestor? distance scope).bind heap.enclosing? := by
  induction distance generalizing scope with
  | zero => cases around : heap.enclosing? scope <;> simp [ancestor?, around]
  | succ distance inductionHypothesis =>
      rw [ancestor?]
      cases around : heap.enclosing? scope with
      | none => simp [ancestor?, around]
      | some outer => simpa [ancestor?, around] using inductionHypothesis outer

/-- A scope has `this` for the methods of one class only, and for one instance. -/
theorem Dispatching.receives_unique
    {heap : Heap}
    (dispatching : Dispatching heap)
    {scope : ScopeId}
    {classId other : ClassId}
    {method otherMethod : Function}
    {object otherObject : InstanceId}
    (receives : heap.Receives scope classId method object)
    (again : heap.Receives scope other otherMethod otherObject) :
    classId = other ∧ object = otherObject := by
  obtain rfl : object = otherObject :=
    Value.instanceObject.inj (Option.some.inj (receives.this.symm.trans again.this))
  refine ⟨?_, rfl⟩
  have same : method.closure = otherMethod.closure :=
    Option.some.inj (receives.around.symm.trans again.around)
  obtain ⟨made, name, known, own⟩ := receives.declared
  obtain ⟨madeAgain, nameAgain, knownAgain, ownAgain⟩ := again.declared
  have super := dispatching.supers classId made name method known own
  have superAgain := dispatching.supers other madeAgain nameAgain otherMethod knownAgain ownAgain
  cases held : heap.getLocal? method.closure superclassName with
  | some value =>
      exact dispatching.apart classId method other otherMethod receives.declared
        again.declared same (by simp [held])
  | none =>
      -- Neither has a superclass, and the class of the receiver descends from only one such.
      have base : made.superclass = none := Option.map_eq_none_iff.mp (super.symm.trans held)
      have baseAgain : madeAgain.superclass = none :=
        Option.map_eq_none_iff.mp (superAgain.symm.trans (same ▸ held))
      obtain ⟨instance', isInstance, ids, lineage, member⟩ := receives.receiver
      obtain ⟨instanceAgain, isAgain, others, lineageAgain, memberAgain⟩ := again.receiver
      obtain rfl := Option.some.inj (isInstance.symm.trans isAgain)
      exact lineage.base_unique lineageAgain member memberAgain known knownAgain base baseAgain

/-- What a number of steps up is `super`, with `this` one step nearer, is what the class says. -/
theorem Dispatching.superclass
    {heap : Heap}
    (dispatching : Dispatching heap)
    {scope : ScopeId}
    {distance : Nat}
    {parent : ClassId}
    {object : InstanceId}
    (isClass :
      heap.getAt? scope (distance + 1) superclassName = some (.classObject parent))
    (isInstance : heap.getAt? scope distance receiverName = some (.instanceObject object)) :
    ∃ receiving classId method made ancestors,
      heap.ancestor? distance scope = some receiving ∧
        heap.Receives receiving classId method object ∧
        heap.classes[classId]? = some made ∧ made.superclass = some parent ∧
        heap.Lineage parent ancestors ∧ ∀ ancestor ∈ ancestors, heap.IsA object ancestor := by
  obtain ⟨receiving, above, this⟩ := Option.bind_eq_some_iff.mp isInstance
  obtain ⟨classId, method, owner, same, receives⟩ := dispatching.receivers receiving _ this
  obtain rfl := Value.instanceObject.inj same
  obtain ⟨made, name, known, own⟩ := receives.declared
  have isParent : made.superclass = some parent := by
    obtain ⟨around, isAround, super⟩ := Option.bind_eq_some_iff.mp isClass
    rw [Heap.ancestor?_succ, above, Option.bind_some, receives.around] at isAround
    obtain rfl := Option.some.inj isAround
    rw [dispatching.supers classId made name method known own] at super
    obtain ⟨_, isParent, isSame⟩ := Option.map_eq_some_iff.mp super
    exact Value.classObject.inj isSame ▸ isParent
  obtain ⟨instance', isInstance', ids, lineage, member⟩ := receives.receiver
  obtain ⟨rest, chain, within⟩ := lineage.rest member
  cases chain with
  | base knownAgain isLast =>
      obtain rfl := Option.some.inj (known.symm.trans knownAgain)
      cases isParent.symm.trans isLast
  | derived knownAgain isParentAgain inherited =>
      obtain rfl := Option.some.inj (known.symm.trans knownAgain)
      obtain rfl := Option.some.inj (isParent.symm.trans isParentAgain)
      exact ⟨receiving, classId, method, made, _, above, receives, known, isParent, inherited,
        fun ancestor inherits => ⟨instance', isInstance', ids, lineage,
          within ancestor (List.mem_cons_of_mem _ inherits)⟩⟩

variable {history : List Act}

/-- A method that an instance finds is one of a class from which it descends. -/
theorem Heap.exists_isA
    {heap : Heap}
    (whole : heap.Whole)
    (ordered : Ordered history heap)
    {object : InstanceId}
    {made : Instance}
    (known : heap.instances[object]? = some made)
    {name : String}
    {method : Function}
    (found : heap.findMethod? made.classId name = some method) :
    ∃ classId, heap.HasMethod classId method ∧ heap.IsA object classId := by
  have refers : heap.Refers (.instanceObject object) (.classObject made.classId) := .classOf known
  obtain ⟨ids, lineage⟩ :=
    Heap.exists_lineage ordered.superclasses (whole _ _ (Heap.has_of_refers refers) refers)
  obtain ⟨classId, member, has⟩ := lineage.exists_hasMethod found
  exact ⟨classId, has, made, known, ids, lineage, member⟩

theorem Does.sourced
    {task : Task}
    {begun : State}
    (does : Does task begun state act)
    (dispatching : Dispatching state.heap)
    (whole : state.heap.Whole)
    (ordered : Ordered history state.heap) :
    act.Sourced state.heap := by
  cases does with
  | property _ _ inherited =>
      obtain ⟨made, known, found⟩ := Option.bind_eq_some_iff.mp inherited
      exact Heap.exists_isA whole ordered known found
  | super _ isClass isInstance found =>
      obtain ⟨_, _, _, _, ancestors, -, -, -, -, lineage, isA⟩ :=
        dispatching.superclass isClass isInstance
      obtain ⟨classId, member, has⟩ := lineage.exists_hasMethod found
      exact ⟨classId, has, isA classId member⟩
  | @constructor _ classId _ _ _ found =>
      have known : ((Act.construct classId).result begun).heap.instances[
          begun.heap.instances.size]? = some ⟨classId, Bindings.empty⟩ := by
        simp [Act.result, Heap.addInstance]
      exact Heap.exists_isA whole ordered known found
  | _ => trivial

/--
What a task finds where it begins: the scopes have what it looks for, nothing is missing
from the heap, methods and receivers are tied together, and no keyword is in its way.
-/
structure Grounded (resolved : Settlement → Prop) (state : State) (task : Task) : Prop where
  ready : TaskReady resolved state task
  whole : state.heap.Whole
  roots : ∀ entry ∈ task.roots state, state.heap.Has entry
  ordered : ∃ history, Ordered history state.heap
  dispatching : Dispatching state.heap
  plain : state.heap.Plain state.scope

section

variable {resolved : Settlement → Prop} {root task : Task} {start : State} {progress : Progress}

/-- The course of a grounded task keeps what ties methods and receivers together. -/
theorem Course.dispatching
    (course : Course root start progress)
    (grounded : Grounded resolved start root) :
    Dispatching progress.state.heap ∧
      (∀ scope ∈ progress.entered, progress.state.heap.Plain scope) ∧
      ∀ act ∈ progress.acts, act.Legible := by
  obtain ⟨ready, whole, roots, ⟨history, ordered⟩, dispatching, plain⟩ := grounded
  induction course with
  | begin => exact ⟨dispatching, by simpa using plain, by simp⟩
  | learn _ _ inductionHypothesis => exact inductionHypothesis
  | @act progress task begun act course reaches does atHand inductionHypothesis =>
      obtain ⟨holds, entered, legible⟩ := inductionHypothesis
      have wholeHere := course.whole whole roots
      have orderedHere := course.ordered whole roots ordered
      have legibleAct := does.legible (TaskReady.of_reaches reaches ready)
      have hasEntered : ∀ scope ∈ progress.entered, progress.state.heap.Has (.scope scope) :=
        fun scope member => wholeHere.known _ (course.entered.2 scope member)
      have here := course.entered.1
      refine ⟨holds.after wholeHere.heap legibleAct (hasEntered _ here) (entered _ here)
        (does.sourced holds wholeHere.heap orderedHere), ?_, ?_⟩
      · have kept : ∀ scope ∈ progress.entered, (act.result progress.state).heap.Plain scope :=
          fun scope member keyword isKeyword =>
            ((act.carries legibleAct progress.state).keywords scope keyword
              (hasEntered scope member) isKeyword).trans
              (entered scope member keyword isKeyword)
        refine List.forall_mem_cons.mpr ⟨?_, kept⟩
        cases act with
        | enterBlock =>
            intro _ isKeyword
            exact (Act.getLocal?_result legibleAct isKeyword _).trans (if_pos rfl)
        | activate function arguments =>
            intro _ isKeyword
            exact (Act.getLocal?_result legibleAct isKeyword _).trans (if_pos rfl)
        | leave scope => exact kept scope (atHand.entered scope rfl)
        | _ => exact kept _ here
      · intro other member
        rcases List.mem_append.mp member with before | last
        · exact legible other before
        · exact List.mem_singleton.mp last ▸ legibleAct

/-- A course carries on what there was at its start. -/
theorem Course.carries
    (course : Course root start progress)
    (grounded : Grounded resolved start root) :
    start.heap.Carries progress.state.heap := by
  rw [course.replay]
  exact start.carries_replay (course.dispatching grounded).2.2

/-- Whatever a grounded task reaches is grounded. -/
theorem Grounded.reaches
    (grounded : Grounded resolved start root)
    (reaches : Reaches root start task state) :
    Grounded resolved state task := by
  have ready := TaskReady.of_reaches reaches grounded.ready
  obtain ⟨progress, course, rfl, handed⟩ := reaches.course
  have whole := course.whole grounded.whole grounded.roots
  obtain ⟨history, ordered⟩ := grounded.ordered
  obtain ⟨dispatching, entered, -⟩ := course.dispatching grounded
  have scope := course.entered.2 _ course.entered.1
  have globals := course.globals.1 ▸ course.globals.2
  refine ⟨ready, whole.heap, ?_,
    ⟨_, course.ordered grounded.whole grounded.roots ordered⟩, dispatching,
    entered _ course.entered.1⟩
  exact List.forall_mem_cons.mpr ⟨whole.known _ scope,
    List.forall_mem_cons.mpr ⟨whole.known _ globals,
      fun entry isHanded => whole.known _ (handed entry isHanded)⟩⟩

end

end

end Lox.Execution
