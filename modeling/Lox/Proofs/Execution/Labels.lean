import Lox.Execution.State
import Lox.Proofs.Bindings
import Mathlib.Data.List.Forall2

namespace Lox.Execution

/-!
# Labelled scopes

Two runs that do the same may call a variable differently.  A label says for one
scope what each name of the first run is called in the second, and which names the
scope may have at all.  In one scope a name is always called the same, and no two
names are called alike.
-/

/-- What the names of a scope are called in another run; it never has any other name. -/
structure Label where
  renames : String → String → Prop
  functional : ∀ {name left right}, renames name left → renames name right → left = right
  injective : ∀ {left right name}, renames left name → renames right name → left = right

namespace Label

/-- Some names are called the same in both runs, and there are no others. -/
def only (allowed : String → Prop) : Label where
  renames name other := allowed name ∧ name = other
  functional first second := first.2.symm.trans second.2
  injective first second := first.2.trans second.2.symm

/-- Every name is called the same in both runs. -/
def identity : Label :=
  only fun _ => True

/-- One name is called by another one that is not used otherwise. -/
def exchange (old new : String) : Label where
  renames name other := if name = old then other = new else name ≠ new ∧ name = other
  functional := by
    intro name left right first second
    by_cases isOld : name = old
    · simp only [isOld, if_true] at first second
      exact first.trans second.symm
    · simp only [isOld, if_false] at first second
      exact first.2.symm.trans second.2
  injective := by
    intro left right name first second
    by_cases isLeft : left = old <;> by_cases isRight : right = old <;> simp_all

theorem identity_renames (name : String) : identity.renames name name :=
  ⟨trivial, rfl⟩

/-! ## Corresponding bindings -/

/-- Bindings in which each name has the value that it has in the other ones. -/
structure Relates {α : Type} (label : Label) (left right : Bindings α) : Prop where
  renamed :
    ∀ {name other}, label.renames name other → right.get? other = left.get? name
  covered :
    ∀ {name value}, left.get? name = some value → ∃ other, label.renames name other

namespace Relates

variable {α : Type} {label : Label} {left right : Bindings α}

theorem empty (label : Label) : label.Relates (Bindings.empty : Bindings α) Bindings.empty :=
  ⟨fun _ => rfl, fun found => by simp at found⟩

theorem refl (bindings : Bindings α) : identity.Relates bindings bindings :=
  ⟨fun same => by rw [same.2], fun {name} _ _ => ⟨name, identity_renames name⟩⟩

/-- The same value may be bound to corresponding names. -/
theorem insert
    (relates : label.Relates left right)
    {name other : String}
    (renames : label.renames name other)
    (value : α) :
    label.Relates (left.insert name value) (right.insert other value) := by
  refine ⟨?_, ?_⟩
  · intro found target known
    rw [Bindings.get?_insert, Bindings.get?_insert]
    by_cases same : name = found
    · subst same
      rw [if_pos (label.functional renames known), if_pos rfl]
    · have different : other ≠ target := by
        rintro rfl
        exact same (label.injective renames known)
      rw [if_neg different, if_neg same, relates.renamed known]
  · intro found value known
    rw [Bindings.get?_insert] at known
    by_cases same : name = found
    · exact ⟨other, same ▸ renames⟩
    · rw [if_neg same] at known
      exact relates.covered known

/-- Corresponding names may be bound to the same values, one after another. -/
theorem foldl_insert
    {names others : List String}
    (renames : List.Forall₂ label.renames names others)
    (relates : label.Relates left right)
    (values : List α) :
    label.Relates
      ((names.zip values).foldl (fun bindings entry => bindings.insert entry.1 entry.2) left)
      ((others.zip values).foldl (fun bindings entry => bindings.insert entry.1 entry.2)
        right) := by
  induction renames generalizing left right values with
  | nil => exact relates
  | cons first _ inductionHypothesis =>
      cases values with
      | nil => exact relates
      | cons value values => exact inductionHypothesis (relates.insert first value) values

theorem ofList_zip
    {names others : List String}
    (renames : List.Forall₂ label.renames names others)
    (values : List α) :
    label.Relates (Bindings.ofList (names.zip values)) (Bindings.ofList (others.zip values)) :=
  (empty label).foldl_insert renames values

/-- A scope with one binding under a name that is called the same. -/
theorem single
    {name : String}
    (renames : label.renames name name)
    (value : α) :
    label.Relates (Bindings.ofList [(name, value)]) (Bindings.ofList [(name, value)]) :=
  (empty label).insert renames value

end Relates

end Label

/-! ## The labels around a point -/

/--
What a name is called in the other run, where it is found a number of scopes up, or
in the global scope, whose names are called the same.
-/
def Renames (levels : List Label) : Option Nat → String → String → Prop
  | some depth, name, other =>
      ∃ label, levels[depth]? = some label ∧ label.renames name other
  | none, name, other => name = other

/-- What a name is called in the other run when it is declared in the scope at hand. -/
def Declares : List Label → String → String → Prop
  | [], name, other => name = other
  | label :: _, name, other => label.renames name other

end Lox.Execution
