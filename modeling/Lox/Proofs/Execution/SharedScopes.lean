import Lox.Proofs.Execution.Activity
import Lox.Proofs.Execution.DetourEnds
import Lox.Proofs.Scoping.Standing
import Mathlib.Logic.Relation

namespace Lox.Execution

open Scoping

/-!
# Scopes that are shared

A statement runs others as its parts, and it makes functions that may be called at any later
time, from anywhere.  All of these have the scope in which the statement was begun around
them, as many scopes up as there are more scopes around their place than around that of the
statement.  So a variable of this scope is one and the same for all of them.
-/

/-- A statement that is begun, and its place in the program. -/
structure BegunAt where
  place : Place
  begun : Begun

/--
A statement begins another one: as a part of its own, each time that this is run; or in the
body of a function that it makes, each time that this is called.  A method is bound first,
in a scope with `this` inside of the one over which the methods of its class are closed.
-/
inductive Begins : BegunAt → BegunAt → Prop where
  | member {place fuel before single after state middle} :
      before.forM (execute fuel) (Act.enterBlock.result state) = .ok () middle →
      Begins ⟨place, fuel + 1, .block (before ++ single :: after), state⟩
        ⟨place.entering.declaring (Stmt.declaredByAll before), fuel, single, middle⟩
  | consequent {place fuel condition consequent alternative state found middle} :
      evaluate fuel condition state = .ok found middle →
      found.isTruthy = true →
      Begins ⟨place, fuel + 1, .branch condition consequent alternative, state⟩
        ⟨place, fuel, consequent, middle⟩
  | alternative {place fuel condition consequent alternative state found middle} :
      evaluate fuel condition state = .ok found middle →
      found.isTruthy = false →
      Begins ⟨place, fuel + 1, .branch condition consequent (some alternative), state⟩
        ⟨place.declaring consequent.declared, fuel, alternative, middle⟩
  | round {place fuel condition body state found middle} :
      evaluate fuel condition state = .ok found middle →
      found.isTruthy = true →
      Begins ⟨place, fuel + 1, .loop condition body, state⟩ ⟨place, fuel, body, middle⟩
  | nextRound {place fuel condition body state found middle last} :
      evaluate fuel condition state = .ok found middle →
      found.isTruthy = true →
      execute fuel body middle = .ok () last →
      Begins ⟨place, fuel + 1, .loop condition body, state⟩
        ⟨place, fuel, .loop condition body, last⟩
  | called {place fuel declaration state later arguments more before single after middle} :
      Grows ((Act.declareFunction declaration).result state).heap later.heap →
      declaration.body = before ++ single :: after →
      before.forM (execute more)
          ((Act.activate ⟨declaration, state.scope, false⟩ arguments).result later) =
        .ok () middle →
      Begins ⟨place, fuel, .functionDeclaration declaration, state⟩
        ⟨((place.declaring [declaration.name.text]).ofBody .function declaration).declaring
            (Stmt.declaredByAll before),
          more, single, middle⟩
  | invoked
      {place fuel name superclass parent methods declaration state isConstructor object
        arguments more before single after middle}
      {bound later : State} :
      declaration ∈ methods →
      parent.isSome = superclass.isSome →
      Grows ((Act.declareClass name.text parent methods).result state).heap bound.heap →
      Grows
        (bound.heap.withReceiver
          ⟨declaration, (state.heap.withSuperclass state.scope parent).2, isConstructor⟩ object)
        later.heap →
      declaration.body = before ++ single :: after →
      before.forM (execute more)
          ((Act.activate ⟨declaration, bound.heap.scopes.size, isConstructor⟩
            arguments).result later) =
        .ok () middle →
      Begins ⟨place, fuel, .classDeclaration name superclass methods, state⟩
        ⟨(((place.declaring [name.text]).ofMethods superclass).ofBody .method
            declaration).declaring (Stmt.declaredByAll before),
          more, single, middle⟩

/-- What a statement begins, and what that begins, and so on. -/
abbrev BeginsLater : BegunAt → BegunAt → Prop :=
  Relation.ReflTransGen Begins

/--
A scope with some names is around a statement, as many scopes up as the statement stands in
further scopes, behind which others lie around the place.
-/
def SharesScope
    (shared : ScopeId)
    (names : List String)
    (outer : List (List String))
    (statement : BegunAt) :
    Prop :=
  ∃ depth, statement.place.Within names outer depth ∧
    statement.begun.state.heap.ancestor? depth statement.begun.state.scope = some shared

section

variable {shared : ScopeId} {names : List String} {outer : List (List String)} {depth : Nat}
  {state middle : State}

/-! ## Scopes around scopes -/

/-- A scope further out is one scope more away from a new scope. -/
theorem ancestor?_addScope
    {heap : Heap}
    {scope : ScopeId}
    (around : heap.ancestor? depth scope = some shared)
    (bindings : Bindings Value) :
    (heap.addScope ⟨bindings, some scope⟩).ancestor? (depth + 1) heap.scopes.size =
      some shared := by
  have isAround : (heap.addScope ⟨bindings, some scope⟩).enclosing? heap.scopes.size =
      some scope := by
    rw [Heap.enclosing?, scope_new]
    rfl
  rw [Heap.ancestor?_outwards, isAround]
  exact (Grows.addScope heap _).ancestor? around

/-- What runs in a scope leaves it where it is. -/
theorem ancestor?_leaves
    {α : Type}
    {action : Eval α}
    {value : α}
    (restores : Leaves Restores action)
    (grows : Leaves (fun before after => Grows before.heap after.heap) action)
    (given : action state = .ok value middle)
    (around : state.heap.ancestor? depth state.scope = some shared) :
    middle.heap.ancestor? depth middle.scope = some shared := by
  rw [(restores.ok given).scope]
  exact (grows.ok given).ancestor? around

theorem ancestor?_evaluate
    {fuel : Nat}
    {value : Expr}
    {found : Value}
    (given : evaluate fuel value state = .ok found middle)
    (around : state.heap.ancestor? depth state.scope = some shared) :
    middle.heap.ancestor? depth middle.scope = some shared :=
  ancestor?_leaves (restores_steady.evaluate _ _) (grows_steady.evaluate _ _) given around

theorem ancestor?_execute
    {fuel : Nat}
    {single : Stmt}
    (given : execute fuel single state = .ok () middle)
    (around : state.heap.ancestor? depth state.scope = some shared) :
    middle.heap.ancestor? depth middle.scope = some shared :=
  ancestor?_leaves (restores_steady.execute _ _) (grows_steady.execute _ _) given around

theorem ancestor?_executeAll
    {fuel : Nat}
    {body : List Stmt}
    (given : body.forM (execute fuel) state = .ok () middle)
    (around : state.heap.ancestor? depth state.scope = some shared) :
    middle.heap.ancestor? depth middle.scope = some shared :=
  ancestor?_leaves (restores_steady.executeAll _ _) (grows_steady.executeAll _ _) given around

/-! ## Calls -/

/-- What is around a function is around the statements of its body. -/
theorem shares_of_call
    {place : Place}
    {role : FunctionRole}
    {function : Function}
    {arguments : List Value}
    {before : List Stmt}
    {fuel : Nat}
    {single : Stmt}
    (within : place.Within names outer depth)
    (around : state.heap.ancestor? depth function.closure = some shared)
    (given :
      before.forM (execute fuel) ((Act.activate function arguments).result state) =
        .ok () middle) :
    SharesScope shared names outer
      ⟨(place.ofBody role function.declaration).declaring (Stmt.declaredByAll before),
        fuel, single, middle⟩ :=
  ⟨depth + 1, (within.ofBody role function.declaration).declaring _,
    ancestor?_executeAll given (ancestor?_addScope around _)⟩

/-- The methods of a class are closed over its scope, or over one inside of it. -/
theorem ancestor?_withSuperclass
    {name : String}
    {parent : Option ClassId}
    {methods : List FunctionDeclaration}
    (around : state.heap.ancestor? depth state.scope = some shared) :
    ((Act.declareClass name parent methods).result state).heap.ancestor?
        (depth + if parent.isSome then 1 else 0)
        (state.heap.withSuperclass state.scope parent).2 =
      some shared := by
  cases parent with
  | none => exact ((Act.declareClass name none methods).grows state).ancestor? around
  | some parent =>
      let named := state.heap.define state.scope name .nil
      let bindings : Bindings Value := .ofList [(superclassName, .classObject parent)]
      have inside : (named.addScope ⟨bindings, some state.scope⟩).ancestor? (depth + 1)
          named.scopes.size = some shared :=
        ancestor?_addScope ((Grows.define state.heap state.scope name .nil).ancestor? around)
          bindings
      have sameSize : named.scopes.size = state.heap.scopes.size := Array.size_modify
      rw [sameSize] at inside
      refine Grows.ancestor? ?_ inside
      exact (Grows.of_scopes rfl).trans (Grows.define _ state.scope name (Value.classObject _))

/-- Whatever is begun shares the scopes around the statement that begins it. -/
theorem Begins.shares
    {first second : BegunAt}
    (begins : Begins first second)
    (shares : SharesScope shared names outer first) :
    SharesScope shared names outer second := by
  obtain ⟨depth, within, around⟩ := shares
  cases begins with
  | member given =>
      exact ⟨depth + 1, within.entering.declaring _,
        ancestor?_executeAll given (ancestor?_addScope around _)⟩
  | consequent given _ => exact ⟨depth, within, ancestor?_evaluate given around⟩
  | alternative given _ => exact ⟨depth, within.declaring _, ancestor?_evaluate given around⟩
  | round given _ => exact ⟨depth, within, ancestor?_evaluate given around⟩
  | nextRound given _ givenRound =>
      exact ⟨depth, within, ancestor?_execute givenRound (ancestor?_evaluate given around)⟩
  | @called _ _ declaration state _ _ _ _ _ _ _ grows _ given =>
      have declared := ((Act.declareFunction declaration).grows state).ancestor? around
      exact shares_of_call (within.declaring _) (grows.ancestor? declared) given
  | @invoked _ _ _ superclass parent _ _ _ _ _ _ _ _ _ _ _ bound later _ alike grows
      growsFurther _ given =>
      have declared : bound.heap.ancestor? _ _ = some shared :=
        grows.ancestor? (ancestor?_withSuperclass around)
      rw [alike] at declared
      have received := growsFurther.ancestor? (ancestor?_addScope declared _)
      exact shares_of_call ((within.declaring _).ofMethods superclass) received given

/-- Whatever comes of a statement shares the scopes around it. -/
theorem BeginsLater.shares
    {first last : BegunAt}
    (begins : BeginsLater first last)
    (shares : SharesScope shared names outer first) :
    SharesScope shared names outer last := by
  induction begins with
  | refl => exact shares
  | tail _ begins inductionHypothesis => exact begins.shares inductionHypothesis

/-! ## Variables -/

/-- A name that is settled at a place stands for the binding in one scope from then on. -/
def BegunAt.Denotes (statement : BegunAt) (name : String) (shared : ScopeId) : Prop :=
  ∃ depth, statement.place.depth? name = some depth ∧
    ∀ heap, Grows statement.begun.state.heap heap →
      heap.ancestor? depth statement.begun.state.scope = some shared

/-- The scopes that a statement stands in besides those further out and the shared one. -/
def BegunAt.nearer (statement : BegunAt) (outer : List (List String)) : List (List String) :=
  statement.place.scopes.take (statement.place.scopes.length - (outer.length + 1))

/-- A name of the scope that is shared stands for its binding there, unless it is hidden. -/
theorem SharesScope.denotes
    {statement : BegunAt}
    (shares : SharesScope shared names outer statement)
    {name : String}
    (isName : name ∈ names)
    (apart : ∀ nearer ∈ statement.nearer outer, name ∉ nearer) :
    statement.Denotes name shared := by
  obtain ⟨depth, within, around⟩ := shares
  refine ⟨depth, within.depth?_eq isName ?_, fun heap grows => grows.ancestor? around⟩
  obtain ⟨nearer, known, shape, rfl, -⟩ := within
  have length : statement.place.scopes.length - (outer.length + 1) = nearer.length := by
    rw [shape, List.length_append, List.length_cons, Nat.add_sub_cancel]
  rwa [BegunAt.nearer, length] at apart

/-! ## Scopes that are gone -/

/-- From scopes that are older, no scope that has been made since is ever found. -/
theorem ancestor?_ne_new
    {before after : Heap}
    (whole : before.Whole)
    (grows : Grows before after)
    {id new : ScopeId}
    (has : before.Has (.scope id))
    (isNew : ¬ before.Has (.scope new)) :
    after.ancestor? depth id ≠ some new := by
  induction depth generalizing id with
  | zero =>
      intro found
      obtain rfl : id = new := Option.some.inj found
      exact isNew has
  | succ depth inductionHypothesis =>
      have known := Array.getElem?_eq_getElem has
      rw [Heap.ancestor?_outwards, grows.enclosing? known, Heap.enclosing?, known]
      cases around : before.scopes[id].enclosing with
      | none => simp [around]
      | some outer =>
          have refers : before.Refers (.scope id) (.scope outer) := .enclosing known around
          simpa [around] using inductionHypothesis (whole _ _ has refers)

end

end Lox.Execution
