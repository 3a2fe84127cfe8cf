import Lox.Bindings
import Mathlib.Data.List.Forall2
import Mathlib.Data.List.Nodup
import Mathlib.Data.Option.Defs

namespace Lox.Bindings

/-!
# Names that are bound

What stays bound under new bindings, and what is bound by a list of entries.
-/

variable {α : Type}

/-- A look-up after one more binding. -/
theorem get?_insert
    (bindings : Bindings α)
    (name other : String)
    (value : α) :
    (bindings.insert name value).get? other =
      if name = other then some value else bindings.get? other := by
  by_cases same : name = other
  · subst same
    simp
  · rw [if_neg same, get?_insert_of_ne bindings same]

theorem contains_insert
    (bindings : Bindings α)
    (name other : String)
    (value : α) :
    (bindings.insert name value).contains other = true ↔
      name = other ∨ bindings.contains other = true := by
  unfold contains
  rw [get?_insert]
  by_cases same : name = other <;> simp [same]

/-- What is bound by entries on top of bindings is one of the entries or was bound before. -/
theorem get?_foldl_insert
    (entries : List (String × α))
    (bindings : Bindings α)
    {name : String}
    {value : α}
    (found :
      (entries.foldl (fun bindings entry => bindings.insert entry.1 entry.2)
        bindings).get? name = some value) :
    (name, value) ∈ entries ∨ bindings.get? name = some value := by
  induction entries generalizing bindings with
  | nil => exact .inr found
  | cons entry rest inductionHypothesis =>
      rcases inductionHypothesis (bindings.insert entry.1 entry.2) found with
        inRest | before
      · exact .inl (List.mem_cons_of_mem entry inRest)
      rw [get?_insert] at before
      split at before
      next same =>
        simp only [Option.some.injEq] at before
        exact .inl (by rw [← same, ← before]; exact List.mem_cons_self)
      · exact .inr before

theorem mem_of_get?_ofList
    {entries : List (String × α)}
    {name : String}
    {value : α}
    (found : (ofList entries).get? name = some value) :
    (name, value) ∈ entries := by
  rcases get?_foldl_insert entries empty found with member | before
  · exact member
  · simp at before

/-- Of the entries of a name on top of bindings the last one counts. -/
theorem get?_foldl_insert_eq
    (entries : List (String × α))
    (bindings : Bindings α)
    (name : String) :
    (entries.foldl (fun bindings entry => bindings.insert entry.1 entry.2) bindings).get? name =
      ((entries.reverse.find? (·.1 = name)).map (·.2)).or (bindings.get? name) := by
  induction entries generalizing bindings with
  | nil => simp
  | cons entry rest inductionHypothesis =>
      rw [List.foldl_cons, inductionHypothesis, get?_insert, List.reverse_cons,
        List.find?_append]
      cases rest.reverse.find? (·.1 = name) with
      | some found => simp
      | none => by_cases same : entry.1 = name <;> simp [same]

theorem get?_ofList (entries : List (String × α)) (name : String) :
    (ofList entries).get? name = (entries.reverse.find? (·.1 = name)).map (·.2) := by
  unfold ofList
  rw [get?_foldl_insert_eq, get?_empty, Option.or_none]

/-- Corresponding entries on top of bindings leave names with what corresponds. -/
theorem get?_foldl_insert_rel
    {relation : α → α → Prop}
    {entries others : List (String × α)}
    (related :
      List.Forall₂ (fun entry other => entry.1 = other.1 ∧ relation entry.2 other.2)
        entries others)
    (name : String)
    {bindings bindings' : Bindings α}
    (before : Option.Rel relation (bindings.get? name) (bindings'.get? name)) :
    Option.Rel relation
      ((entries.foldl (fun bindings entry => bindings.insert entry.1 entry.2)
        bindings).get? name)
      ((others.foldl (fun bindings entry => bindings.insert entry.1 entry.2)
        bindings').get? name) := by
  induction related generalizing bindings bindings' with
  | nil => exact before
  | cons same _ inductionHypothesis =>
      refine inductionHypothesis ?_
      rw [get?_insert, get?_insert, same.1]
      split
      · exact .some same.2
      · exact before

theorem get?_ofList_rel
    {relation : α → α → Prop}
    {entries others : List (String × α)}
    (related :
      List.Forall₂ (fun entry other => entry.1 = other.1 ∧ relation entry.2 other.2)
        entries others)
    (name : String) :
    Option.Rel relation ((ofList entries).get? name) ((ofList others).get? name) :=
  get?_foldl_insert_rel related name .none

/-- Entries on top of bindings leave bound what was bound. -/
theorem contains_foldl_insert
    (entries : List (String × α))
    (bindings : Bindings α)
    {name : String}
    (bound : name ∈ entries.map (·.1) ∨ bindings.contains name = true) :
    (entries.foldl (fun bindings entry => bindings.insert entry.1 entry.2)
      bindings).contains name = true := by
  induction entries generalizing bindings with
  | nil =>
      rcases bound with member | before
      · simp at member
      · exact before
  | cons entry rest inductionHypothesis =>
      refine inductionHypothesis (bindings.insert entry.1 entry.2) ?_
      rw [contains_insert]
      rcases bound with member | before
      · rcases List.mem_cons.mp member with same | inRest
        · exact .inr (.inl same.symm)
        · exact .inl inRest
      · exact .inr (.inr before)

theorem contains_ofList
    {entries : List (String × α)}
    {name : String}
    (member : name ∈ entries.map (·.1)) :
    (ofList entries).contains name = true :=
  contains_foldl_insert entries empty (.inl member)

/-- Distinct names that are bound to as many values each have the value in their position. -/
theorem get?_ofList_zip
    {names : List String}
    {values : List α}
    (distinct : names.Nodup)
    (complete : names.length = values.length)
    {position : Nat}
    {name : String}
    (known : names[position]? = some name) :
    (ofList (names.zip values)).get? name = values[position]? := by
  have listed : name ∈ (names.zip values).map (·.1) := by
    rw [List.map_fst_zip (Nat.le_of_eq complete)]
    exact List.mem_of_getElem? known
  obtain ⟨value, found⟩ := Option.isSome_iff_exists.mp (contains_ofList listed)
  obtain ⟨other, isThere⟩ := List.mem_iff_getElem?.mp (mem_of_get?_ofList found)
  obtain ⟨isName, isValue⟩ := List.getElem?_zip_eq_some.mp isThere
  -- The names are distinct, so the entry that has been found is the one in this position.
  have inside : position < names.length := (List.getElem?_eq_some_iff.mp known).1
  obtain rfl : position = other :=
    (List.getElem?_inj inside distinct).mp (known.trans isName.symm)
  exact found.trans isValue.symm

/-- Nothing is bound by names with values but these names. -/
theorem mem_of_get?_ofList_zip
    {names : List String}
    {values : List α}
    {name : String}
    (bound : ((ofList (names.zip values)).get? name).isSome) :
    name ∈ names := by
  obtain ⟨value, found⟩ := Option.isSome_iff_exists.mp bound
  exact (List.of_mem_zip (mem_of_get?_ofList found)).1

end Lox.Bindings
