namespace Lox

/-!
# Bindings

A finite map from names to values, kept in the order in which the names were
first bound.  Binding a name again replaces its value in place.
-/

/-- Names with one value each. -/
structure Bindings (α : Type) where
  entries : List (String × α)
  deriving Repr, DecidableEq

namespace Bindings

/-- No names at all. -/
def empty : Bindings α :=
  ⟨[]⟩

/-- The value of a name in a list of entries. -/
def find? (name : String) : List (String × α) → Option α
  | [] => none
  | (key, value) :: rest => if key = name then some value else find? name rest

/-- A list of entries with one name bound to a new value. -/
def replace (name : String) (value : α) : List (String × α) → List (String × α)
  | [] => [(name, value)]
  | (key, old) :: rest =>
      if key = name then (key, value) :: rest
      else (key, old) :: replace name value rest

/-- The value of a name. -/
def get? (bindings : Bindings α) (name : String) : Option α :=
  find? name bindings.entries

/-- Whether a name is bound. -/
def contains (bindings : Bindings α) (name : String) : Bool :=
  (bindings.get? name).isSome

/-- Bind a name, replacing the value it had. -/
def insert (bindings : Bindings α) (name : String) (value : α) : Bindings α :=
  ⟨replace name value bindings.entries⟩

/-- The bound names in the order of their first binding. -/
def names (bindings : Bindings α) : List String :=
  bindings.entries.map (·.1)

/-- Bind names one after another; of two values for one name the later counts. -/
def ofList (entries : List (String × α)) : Bindings α :=
  entries.foldl (fun bindings entry => bindings.insert entry.1 entry.2) empty

/-! ## What a look-up sees -/

/-- No name has a value in empty bindings. -/
@[simp]
theorem get?_empty (name : String) : (empty : Bindings α).get? name = none :=
  rfl

/-- A replaced entry has its new value. -/
theorem find?_replace_self
    (name : String)
    (value : α)
    (entries : List (String × α)) :
    find? name (replace name value entries) = some value := by
  induction entries with
  | nil => simp [replace, find?]
  | cons entry rest inductionHypothesis =>
      obtain ⟨key, old⟩ := entry
      by_cases same : key = name
      · simp [replace, find?, same]
      · simp [replace, find?, same, inductionHypothesis]

/-- The other entries keep their values. -/
theorem find?_replace_of_ne
    {name other : String}
    (different : name ≠ other)
    (value : α)
    (entries : List (String × α)) :
    find? other (replace name value entries) = find? other entries := by
  induction entries with
  | nil => simp [replace, find?, different]
  | cons entry rest inductionHypothesis =>
      obtain ⟨key, old⟩ := entry
      by_cases same : key = name
      · subst same
        simp [replace, find?, different]
      · simp [replace, find?, same, inductionHypothesis]

/-- A name that was just bound has the value it was bound to. -/
@[simp]
theorem get?_insert_self (bindings : Bindings α) (name : String) (value : α) :
    (bindings.insert name value).get? name = some value :=
  find?_replace_self name value bindings.entries

/-- Binding a name leaves the values of the others alone. -/
theorem get?_insert_of_ne
    (bindings : Bindings α)
    {name other : String}
    (different : name ≠ other)
    (value : α) :
    (bindings.insert name value).get? other = bindings.get? other :=
  find?_replace_of_ne different value bindings.entries

end Bindings

end Lox
