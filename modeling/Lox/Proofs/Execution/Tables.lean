import Lox.Execution.Evaluation
import Lox.Proofs.Bindings

namespace Lox.Execution

/-!
# Tables of two runs

Two runs may make functions, classes and instances in the same order.  What one of them
then finds at some position, the other one finds there, too: methods of classes and of
their superclasses, callees, and the texts that are printed for values.
-/

/-! ## Entries one by one -/

/-- Corresponding options are both empty, or both hold what corresponds. -/
theorem eq_none_or_some_of_rel
    {α β : Type}
    {relation : α → β → Prop}
    {left : Option α}
    {right : Option β}
    (related : Option.Rel relation left right) :
    (left = none ∧ right = none) ∨
      ∃ first second, left = some first ∧ right = some second ∧ relation first second := by
  cases related with
  | none => exact .inl ⟨rfl, rfl⟩
  | some related => exact .inr ⟨_, _, rfl, rfl, related⟩

theorem rel_imp
    {α β : Type}
    {relation other : α → β → Prop}
    {left : Option α}
    {right : Option β}
    (related : Option.Rel relation left right)
    (implies : ∀ first second, relation first second → other first second) :
    Option.Rel other left right := by
  cases related with
  | none => exact .none
  | some related => exact .some (implies _ _ related)

/-- Tables with as many entries, which correspond one by one. -/
structure Aligned {α β : Type} (relation : α → β → Prop) (left : Array α) (right : Array β) :
    Prop where
  size : left.size = right.size
  related :
    ∀ (id : Nat) first second, left[id]? = some first → right[id]? = some second →
      relation first second

namespace Aligned

variable {α β : Type} {relation other : α → β → Prop} {left : Array α} {right : Array β}

theorem empty : Aligned relation (#[] : Array α) (#[] : Array β) :=
  ⟨rfl, fun _ _ _ found => by simp at found⟩

/-- An entry of one table has a corresponding entry in the other. -/
theorem find (aligned : Aligned relation left right) (id : Nat) :
    Option.Rel relation left[id]? right[id]? := by
  by_cases within : id < left.size
  · have alsoWithin : id < right.size := aligned.size ▸ within
    rw [Array.getElem?_eq_getElem within, Array.getElem?_eq_getElem alsoWithin]
    exact .some (aligned.related id _ _ (by simp) (by simp))
  · have alsoBeyond : ¬id < right.size := aligned.size ▸ within
    rw [Array.getElem?_eq_none (Nat.le_of_not_lt within),
      Array.getElem?_eq_none (Nat.le_of_not_lt alsoBeyond)]
    exact .none

theorem imp
    (aligned : Aligned relation left right)
    (implies : ∀ first second, relation first second → other first second) :
    Aligned other left right :=
  ⟨aligned.size, fun id first second isFirst isSecond =>
    implies first second (aligned.related id first second isFirst isSecond)⟩

theorem push
    (aligned : Aligned relation left right)
    {first : α}
    {second : β}
    (related : relation first second) :
    Aligned relation (left.push first) (right.push second) := by
  refine ⟨by simp [aligned.size], ?_⟩
  intro id found match' isFound isMatch
  rw [Array.getElem?_push] at isFound isMatch
  rw [← aligned.size] at isMatch
  by_cases isNew : id = left.size
  · simp only [isNew, if_true, Option.some.injEq] at isFound isMatch
    exact isFound ▸ isMatch ▸ related
  · simp only [isNew, if_false] at isFound isMatch
    exact aligned.related id found match' isFound isMatch

end Aligned

/-! ## Functions, classes and instances -/

/-- Classes of one name, under one superclass, with corresponding methods. -/
structure ClassAlike (methods : Function → Function → Prop) (left right : Class) : Prop where
  name : left.name = right.name
  superclass : left.superclass = right.superclass
  methods : ∀ name, Option.Rel methods (left.methods.get? name) (right.methods.get? name)

/-- Heaps with corresponding functions and classes and the same instances. -/
structure TablesAlike
    (closures methods : Function → Function → Prop)
    (left right : Heap) :
    Prop where
  functions : Aligned closures left.functions right.functions
  classes : Aligned (ClassAlike methods) left.classes right.classes
  instances : left.instances = right.instances

/-- Callees that correspond. -/
inductive CalleeAlike (closures : Function → Function → Prop) : Callee → Callee → Prop where
  | native {function} : CalleeAlike closures (.native function) (.native function)
  | function {first second} :
      closures first second →
      CalleeAlike closures (.function first) (.function second)
  | classObject {id} : CalleeAlike closures (.classObject id) (.classObject id)

namespace TablesAlike

variable {closures methods : Function → Function → Prop} {left right : Heap}

theorem findMethodWithin?
    (alike : TablesAlike closures methods left right)
    (name : String)
    (fuel : Nat)
    (classId : ClassId) :
    Option.Rel methods (left.findMethodWithin? name fuel classId)
      (right.findMethodWithin? name fuel classId) := by
  induction fuel generalizing classId with
  | zero => exact .none
  | succ fuel inductionHypothesis =>
      unfold Heap.findMethodWithin?
      rcases eq_none_or_some_of_rel (alike.classes.find classId) with
        ⟨none, none'⟩ | ⟨found, found', known, known', classes⟩
      · rw [none, none']
        exact .none
      rw [known, known']
      dsimp only
      rcases eq_none_or_some_of_rel (classes.methods name) with
        ⟨none, none'⟩ | ⟨method, method', own, own', same⟩
      · rw [none, none', classes.superclass]
        cases found'.superclass with
        | none => exact .none
        | some parent => exact inductionHypothesis parent
      · rw [own, own']
        exact .some same

/-- Both runs find corresponding methods. -/
theorem findMethod?
    (alike : TablesAlike closures methods left right)
    (classId : ClassId)
    (name : String) :
    Option.Rel methods (left.findMethod? classId name) (right.findMethod? classId name) := by
  unfold Heap.findMethod?
  rw [alike.classes.size]
  exact alike.findMethodWithin? name right.classes.size classId

theorem methodOf?
    (alike : TablesAlike closures methods left right)
    (object : InstanceId)
    (name : String) :
    Option.Rel methods (left.methodOf? object name) (right.methodOf? object name) := by
  unfold Heap.methodOf?
  rw [alike.instances]
  cases right.instances[object]? with
  | none => exact .none
  | some found => exact alike.findMethod? found.classId name

theorem className (alike : TablesAlike closures methods left right) (classId : ClassId) :
    left.className classId = right.className classId := by
  unfold Heap.className
  rcases eq_none_or_some_of_rel (alike.classes.find classId) with
    ⟨none, none'⟩ | ⟨found, found', known, known', classes⟩
  · rw [none, none']
  · simp [known, known', classes.name]

/-- Both runs print the same text for a value. -/
theorem display
    (alike : TablesAlike closures methods left right)
    (named : ∀ first second, closures first second → first.name = second.name)
    (value : Value) :
    left.display value = right.display value := by
  cases value with
  | functionObject id =>
      unfold Heap.display
      rcases eq_none_or_some_of_rel (alike.functions.find id) with
        ⟨none, none'⟩ | ⟨found, found', known, known', functions⟩
      · simp [none, none']
      · simp [known, known', named _ _ functions]
  | classObject id => exact alike.className id
  | instanceObject id =>
      unfold Heap.display
      dsimp only
      rw [alike.instances]
      cases right.instances[id]? with
      | none => rfl
      | some found => simp [alike.className found.classId]
  | bool truth => cases truth <;> rfl
  | _ => rfl

theorem callee? (alike : TablesAlike closures methods left right) (value : Value) :
    Option.Rel (CalleeAlike closures) (left.callee? value) (right.callee? value) := by
  cases value with
  | functionObject id =>
      unfold Heap.callee?
      dsimp only
      rcases eq_none_or_some_of_rel (alike.functions.find id) with
        ⟨none, none'⟩ | ⟨found, found', known, known', functions⟩
      · rw [none, none']
        exact .none
      · rw [known, known']
        exact .some (.function functions)
  | native function => exact .some .native
  | classObject id => exact .some .classObject
  | _ => exact .none

/-- Corresponding callees take as many arguments. -/
theorem arity
    (alike : TablesAlike closures methods left right)
    (ofClosures : ∀ first second, closures first second → first.arity = second.arity)
    (ofMethods : ∀ first second, methods first second → first.arity = second.arity)
    {callee callee' : Callee}
    (same : CalleeAlike closures callee callee') :
    left.arity callee = right.arity callee' := by
  cases same with
  | native => rfl
  | function functions => exact ofClosures _ _ functions
  | @classObject id =>
      unfold Heap.arity Heap.classArity
      dsimp only
      rcases eq_none_or_some_of_rel (alike.findMethod? id constructorName) with
        ⟨none, none'⟩ | ⟨method, method', known, known', same⟩
      · rw [none, none']
      · rw [known, known']
        exact ofMethods _ _ same

end TablesAlike

/-- Corresponding methods stand under the same names in the tables of their classes. -/
theorem methodTable_alike
    {relation : Function → Function → Prop}
    {closure closure' : ScopeId}
    {methods methods' : List FunctionDeclaration}
    (related :
      List.Forall₂
        (fun method method' =>
          method.name.text = method'.name.text ∧
            ∀ isConstructor,
              relation ⟨method, closure, isConstructor⟩ ⟨method', closure', isConstructor⟩)
        methods methods')
    (name : String) :
    Option.Rel relation ((methodTable closure methods).get? name)
      ((methodTable closure' methods').get? name) := by
  refine Bindings.get?_ofList_rel ?_ name
  refine List.forall₂_map_left_iff.mpr (List.forall₂_map_right_iff.mpr ?_)
  refine related.imp fun method method' same => ⟨same.1, ?_⟩
  dsimp only
  rw [same.1]
  exact same.2 _

end Lox.Execution
