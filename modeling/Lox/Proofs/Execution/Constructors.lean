import Lox.Proofs.Execution.Activations
import Lox.Proofs.Execution.Activity

namespace Lox.Execution

open Scoping

/-!
# Constructors and what calls give

A constructor is marked as one when its class is made, and binding it copies the mark.  What
it gives is read from the scope it is closed over.  Both are tied to its receiver here: the
functions that are marked are the constructors of classes, each bound to an instance, and
the scope holds this instance for good.
-/

/-! ## Marked functions -/

/-- A function is the constructor of a class, bound to an instance. -/
def Heap.Constructs (heap : Heap) (function : Function) (object : InstanceId) : Prop :=
  ∃ classId made method,
    heap.classes[classId]? = some made ∧ made.methods.get? constructorName = some method ∧
      heap.Receives function.closure classId method object ∧
      function = { method with closure := function.closure }

/-- Every function that is marked as a constructor is closed over a scope with `this`. -/
def Heap.Marked (heap : Heap) : Prop :=
  ∀ (id : FunctionId) function, heap.functions[id]? = some function →
    function.isConstructor = true →
      (heap.getLocal? function.closure receiverName).isSome

section

variable {resolved : Settlement → Prop} {root task : Task} {start state : State}
  {progress : Progress} {act : Act} {history : List Act} {heap : Heap} {function : Function}

/-- A binding has `this` in its scope, and a declaration is not marked. -/
theorem Heap.Marked.result
    (marked : state.heap.Marked)
    (legible : act.Legible)
    (whole : state.heap.Whole) :
    (act.result state).heap.Marked := by
  intro id function known isConstructor
  rcases Act.functions_cases known with
    before | ⟨method, object, rfl, rfl⟩ | ⟨declaration, rfl, rfl⟩
  · have kept := (act.carries legible state).keywords _ _ (whole.has_closure before) (.inl rfl)
    rw [kept]
    exact marked id function before isConstructor
  · have held : (Act.result state (.bind method object)).heap.getLocal? state.heap.scopes.size
        receiverName = some (.instanceObject object) :=
      (Act.getLocal?_result legible (.inl rfl) _).trans (if_pos rfl)
    rw [held]
    rfl
  · cases isConstructor

theorem Course.marked
    (course : Course root start progress)
    (grounded : Grounded resolved start root)
    (marked : start.heap.Marked) :
    progress.state.heap.Marked := by
  induction course with
  | begin => exact marked
  | learn _ _ inductionHypothesis => exact inductionHypothesis
  | act course reaches does atHand inductionHypothesis =>
      have whole := course.whole grounded.whole grounded.roots
      have legible := does.legible (TaskReady.of_reaches reaches grounded.ready)
      exact inductionHypothesis.result legible whole.heap

/-- What there was at the start of a task is carried on to its end. -/
theorem Grounded.carries (grounded : Grounded resolved state task) :
    state.heap.Carries (endState (task.run state)).heap := by
  have here : Reaches task state task state := .here
  obtain ⟨progress, course, same⟩ := here.course_end
  rw [← same]
  exact course.carries grounded

theorem Heap.Carries.constructs
    {before after : Heap}
    {object : InstanceId}
    (carries : before.Carries after)
    (constructs : before.Constructs function object) :
    after.Constructs function object := by
  obtain ⟨classId, made, method, known, own, receives, same⟩ := constructs
  exact ⟨classId, made, method, carries.classes _ _ known, own, carries.receives receives, same⟩

end

end Lox.Execution
