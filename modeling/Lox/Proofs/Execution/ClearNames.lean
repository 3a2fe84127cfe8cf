import Lox.Proofs.Execution.ChainWalks
import Lox.Proofs.Execution.SelfTwins
import Lox.Proofs.Scoping.SeparateNames

namespace Lox.Execution

open Scoping

/-!
# Separate names are clear

When scopes may only bind what is introduced at their depth, and the scopes of `this` and
`super` only these, then separate names leave all nearer scopes clear of the name of an
occurrence.
-/

/-- Two runs of one program in which scopes bind nothing but what is introduced there. -/
def ownOccurrences : Pairing where
  settled _ _ _ := False
  admits _ _ _ := False
  lines := Eq
  names := Eq
  receiver := .only (· = receiverName)
  receiver_renames := ⟨rfl, rfl⟩
  superclass := .only (· = superclassName)
  superclass_renames := ⟨rfl, rfl⟩
  globals := 0

theorem ownOccurrences_globals : ownOccurrences.globals = 0 :=
  rfl

theorem ownOccurrences_reflexive : ownOccurrences.Reflexive :=
  ⟨fun _ => rfl, fun _ => rfl⟩

/-- What a scope may bind if it is a given number of scopes deep. -/
def introducedAt (program : List Stmt) (scopes : Nat) (name : String) : Prop :=
  ⟨scopes, name⟩ ∈ introducedBy program

variable {program : List Stmt} {scopes : List (List String)} {place : Place}
  {levels : List Label} {name : String}

theorem Labelled.length
    {pairing : Pairing}
    {allowed : Nat → String → Prop}
    (labelled : Labelled pairing allowed scopes levels) :
    levels.length = scopes.length := by
  induction labelled with
  | nil => rfl
  | receiver _ inductionHypothesis => simp [inductionHypothesis]
  | superclass _ inductionHypothesis => simp [inductionHypothesis]
  | plain _ _ inductionHypothesis => simp [inductionHypothesis]

/-- A name that a scope may bind is introduced there, or is the keyword that the scope holds. -/
theorem Labelled.bindable
    {allowed : Nat → String → Prop}
    (labelled : Labelled ownOccurrences allowed scopes levels)
    {depth : Nat}
    {label : Label}
    (known : levels[depth]? = some label)
    {other : String}
    (renames : label.renames name other) :
    allowed (scopes.length - depth) name ∨
      (name = receiverName ∨ name = superclassName) ∧
        ∃ names, scopes[depth]? = some names ∧ name ∈ names := by
  induction labelled generalizing depth with
  | nil => simp at known
  | receiver _ inductionHypothesis =>
      cases depth with
      | zero =>
          obtain rfl := Option.some.inj known
          obtain ⟨rfl, -⟩ : name = receiverName ∧ _ := renames
          exact .inr ⟨.inl rfl, _, rfl, List.mem_singleton.mpr rfl⟩
      | succ depth => simpa using inductionHypothesis known
  | superclass _ inductionHypothesis =>
      cases depth with
      | zero =>
          obtain rfl := Option.some.inj known
          obtain ⟨rfl, -⟩ : name = superclassName ∧ _ := renames
          exact .inr ⟨.inr rfl, _, rfl, List.mem_singleton.mpr rfl⟩
      | succ depth => simpa using inductionHypothesis known
  | plain _ _ inductionHypothesis =>
      cases depth with
      | zero =>
          obtain rfl := Option.some.inj known
          exact .inl renames.1
      | succ depth => simpa using inductionHypothesis known

/-- The scopes nearer than that of a keyword never have it. -/
theorem clear_of_keyword
    (proper : Stmt.AllProper program)
    (labelled : Labelled ownOccurrences (introducedAt program) place.scopes levels)
    (isKeyword : name = receiverName ∨ name = superclassName) :
    Clear levels name (place.depth? name) := by
  have held : ∀ {depth : Nat} {label : Label} {other : String},
      levels[depth]? = some label → label.renames name other →
      ∃ names, place.scopes[depth]? = some names ∧ name ∈ names := by
    intro depth label other known renames
    rcases labelled.bindable known renames with introduced | ⟨-, held⟩
    · obtain ⟨notReceiver, notSuperclass⟩ := legible_of_introduced proper introduced
      exact (isKeyword.elim notReceiver notSuperclass).elim
    · exact held
  have binds := place.binds_depth? name
  cases found : place.depth? name with
  | some depth =>
      rw [found] at binds
      intro nearer before label known other renames
      obtain ⟨names, isNames, member⟩ := held known renames
      exact binds.2 nearer before names isNames member
  | none =>
      rw [found] at binds
      intro label member other renames
      obtain ⟨depth, known⟩ := List.mem_iff_getElem?.mp member
      obtain ⟨names, isNames, inNames⟩ := held known renames
      exact binds names (List.mem_of_getElem? isNames) inNames

/-- The scopes nearer than that of a name never have it if names are separate. -/
theorem clear_of_separate
    (separate : SeparateNames program)
    (labelled : Labelled ownOccurrences (introducedAt program) place.scopes levels)
    (legible : name ≠ receiverName ∧ name ≠ superclassName)
    {id : NodeId}
    (settled : ⟨id, name, place.depth? name⟩ ∈ (resolve program).settled) :
    Clear levels name (place.depth? name) := by
  have introduced : ∀ {depth : Nat} {label : Label} {other : String},
      levels[depth]? = some label → label.renames name other →
      introducedAt program (place.scopes.length - depth) name ∧ depth < place.scopes.length := by
    intro depth label other known renames
    obtain ⟨within, -⟩ := List.getElem?_eq_some_iff.mp known
    rw [labelled.length] at within
    rcases labelled.bindable known renames with introduced | ⟨isKeyword, -⟩
    · exact ⟨introduced, within⟩
    · exact (isKeyword.elim legible.1 legible.2).elim
  cases found : place.depth? name with
  | some depth =>
      have declared := labelled.renames_depth? name
      rw [found] at declared
      obtain ⟨label, isLabel, renames⟩ := declared
      obtain ⟨here, within⟩ := introduced isLabel renames
      intro nearer before label known other renames
      obtain ⟨there, -⟩ := introduced known renames
      -- Two scopes around a place are never equally deep, and the name is introduced at one depth.
      have same := separate.scopes_unique here there (Nat.sub_pos_of_lt within)
      omega
  | none =>
      intro label member other renames
      obtain ⟨depth, known⟩ := List.mem_iff_getElem?.mp member
      obtain ⟨there, within⟩ := introduced known renames
      exact separate.unshadowed _ settled found _ there (Nat.sub_pos_of_lt within) rfl

/-- At the sites of an accepted program, the scopes nearer than that of a name never have it. -/
theorem clear_of_accepted
    (proper : Stmt.AllProper program)
    (accepted : (resolve program).verdict = .ok ())
    (separate : SeparateNames program)
    {site : Site}
    (inSites : site ∈ programSites program)
    (labelled : Labelled ownOccurrences (introducedAt program) site.place.scopes levels)
    {id : NodeId}
    (known : site.occurrence? = some (id, name)) :
    Clear levels name (site.place.depth? name) := by
  by_cases isKeyword : name = receiverName ∨ name = superclassName
  · exact clear_of_keyword proper labelled isKeyword
  · exact clear_of_separate separate labelled (not_or.mp isKeyword)
      (mem_settled_of_accepted accepted inSites known)

end Lox.Execution
