import Lox.Proofs.Scoping.Proper
import Lox.Proofs.Scoping.Renaming
import Mathlib.Data.List.Nodup

namespace Lox.Scoping

/-!
# Places of a renamed program

A point of a program and the same point of the renamed program have places that differ
in names only.  As the new name was not used before, all names are found at the same
depths, and resolution judges every site as it did.
-/

variable {naming : Renaming} {around : List Bool} {place : Place}

namespace Renaming

/-! ## Names -/

/-- Different names that were not used stay different. -/
theorem text_injective
    {marked other : Bool}
    {left right : String}
    (leftOther : left ≠ naming.new)
    (rightOther : right ≠ naming.new)
    (same : naming.text marked left = naming.text other right) :
    left = right := by
  unfold text at same
  split at same <;> split at same
  · next isLeft isRight => exact isLeft.2.trans isRight.2.symm
  · exact absurd same.symm rightOther
  · exact absurd same leftOther
  · exact same

@[simp]
theorem text_unmarked (name : String) : naming.text false name = name := by
  simp [text]

/-- Corresponding names are in corresponding scopes. -/
theorem text_mem
    {names : List String}
    {name : String}
    (unused : naming.new ∉ names)
    (other : name ≠ naming.new)
    {marked here : Bool}
    (found : naming.text marked name ∈ names.map (naming.text here)) :
    name ∈ names := by
  obtain ⟨original, member, same⟩ := List.mem_map.mp found
  have originalOther : original ≠ naming.new := by
    rintro rfl
    exact unused member
  exact text_injective originalOther other same ▸ member

/-! ## Places -/

/-- The names of scopes after renaming. -/
def scopes (naming : Renaming) (around : List Bool) (scopes : List (List String)) :
    List (List String) :=
  List.zipWith (fun marked names => names.map (naming.text marked)) around scopes

/-- A place of the renamed program. -/
def placed (naming : Renaming) (around : List Bool) (place : Place) : Place :=
  { place with scopes := naming.scopes around place.scopes }

theorem inMarked_cons (marked : Bool) (around : List Bool) (depth : Option Nat) :
    inMarked (marked :: around) (depth.map (· + 1)) = inMarked around depth := by
  cases depth <;> simp [inMarked]

/-- Names are looked for in a marked scope only if there is one. -/
theorem mem_of_inMarked {depth : Option Nat} (marked : inMarked around depth = true) :
    true ∈ around := by
  cases depth with
  | none => simp [inMarked] at marked
  | some depth =>
      cases found : around[depth]? with
      | none => simp [inMarked, found] at marked
      | some known =>
          simp only [inMarked, found, Option.getD_some] at marked
          exact marked ▸ List.mem_of_getElem? found

/-- Names are found at the same depths as before. -/
theorem findIdx?_scopes
    {scopes : List (List String)}
    {name : String}
    (length : around.length = scopes.length)
    (unused : ∀ names ∈ scopes, naming.new ∉ names)
    (other : name ≠ naming.new) :
    (naming.scopes around scopes).findIdx?
        (naming.text (inMarked around (scopes.findIdx? (name ∈ ·))) name ∈ ·) =
      scopes.findIdx? (name ∈ ·) := by
  induction scopes generalizing around with
  | nil => simp [Renaming.scopes]
  | cons names outer inductionHypothesis =>
      cases around with
      | nil => simp at length
      | cons marked around =>
          have rest := inductionHypothesis (by simpa using length)
            fun names member => unused names (by simp [member])
          simp only [Renaming.scopes, List.zipWith_cons_cons, List.findIdx?_cons]
          by_cases here : name ∈ names
          · have found : naming.text marked name ∈ names.map (naming.text marked) :=
              List.mem_map_of_mem here
            simp [here, inMarked, found]
          · have missing : ∀ known,
                naming.text known name ∉ names.map (naming.text marked) :=
              fun known found => here (text_mem (unused names (by simp)) other found)
            simp only [here, decide_false, Bool.false_eq_true, if_false, missing, inMarked_cons]
            exact congrArg (Option.map (· + 1)) rest

/--
What renaming relies on at a place: the new name is not in scope there, and neither the
new name nor, inside of its scope, the old one is a keyword.
-/
structure Suits (naming : Renaming) (around : List Bool) (place : Place) : Prop where
  length : around.length = place.scopes.length
  unused : ∀ names ∈ place.scopes, naming.new ∉ names
  newLegible : LegibleName naming.new
  oldLegible : true ∈ around → LegibleName naming.old

namespace Suits

/-- The outermost place suits every renaming to a name that may be written. -/
theorem outermost (legible : LegibleName naming.new) : naming.Suits [] .outermost :=
  ⟨rfl, by simp [Place.outermost], legible, by simp⟩

/-- Entering a scope suits the renaming, marked or not, if the old name may be written there. -/
theorem entering
    (suits : naming.Suits around place)
    {marked : Bool}
    (legible : marked = true → LegibleName naming.old) :
    naming.Suits (marked :: around) place.entering where
  length := by simp [Place.entering, suits.length]
  unused := by simpa [Place.entering] using suits.unused
  newLegible := suits.newLegible
  oldLegible := by
    intro member
    rcases List.mem_cons.mp member with isMarked | outside
    · exact legible isMarked.symm
    · exact suits.oldLegible outside

/-- Names may be declared if none of them is the new one. -/
theorem declaring
    (suits : naming.Suits around place)
    {names : List String}
    (unused : naming.new ∉ names) :
    naming.Suits around (place.declaring names) := by
  obtain ⟨length, others, newLegible, oldLegible⟩ := suits
  unfold Place.declaring
  cases shape : place.scopes with
  | nil => exact ⟨length, others, newLegible, oldLegible⟩
  | cons innermost outer =>
      rw [shape] at length others
      refine ⟨length, ?_, newLegible, oldLegible⟩
      simp only [List.mem_cons, forall_eq_or_imp, List.mem_append, not_or] at others ⊢
      exact ⟨⟨others.1, unused⟩, others.2⟩

/-- A name is found at the same depth after renaming. -/
theorem depth?
    (suits : naming.Suits around place)
    {name : String}
    (other : name ≠ naming.new) :
    (naming.placed around place).depth?
        (naming.text (inMarked around (place.depth? name)) name) =
      place.depth? name :=
  findIdx?_scopes suits.length suits.unused other

/-- A name is declared here after renaming if it was before. -/
theorem hasLocally
    (suits : naming.Suits around place)
    {name : String}
    (other : name ≠ naming.new) :
    (naming.placed around place).hasLocally (naming.text (inMarked around (some 0)) name) =
      place.hasLocally name := by
  obtain ⟨length, others, -, -⟩ := suits
  unfold Place.hasLocally Renaming.placed Renaming.scopes
  cases shape : place.scopes with
  | nil => simp
  | cons innermost outer =>
      cases around with
      | nil => simp [shape] at length
      | cons marked around =>
          simp only [List.zipWith_cons_cons, List.head?_cons, Option.any_some, inMarked,
            List.getElem?_cons_zero, Option.getD_some]
          rw [shape] at others
          exact decide_eq_decide.mpr
            ⟨text_mem (others innermost (by simp)) other, List.mem_map_of_mem⟩

/-- There are scopes after renaming if there were before. -/
theorem nonempty (suits : naming.Suits around place) :
    (naming.placed around place).scopes ≠ [] ↔ place.scopes ≠ [] := by
  have length : (naming.placed around place).scopes.length = place.scopes.length := by
    simp [placed, Renaming.scopes, suits.length]
  rw [← List.length_pos_iff, ← List.length_pos_iff, length]

/-- The scope of a class suits, as the new name is no keyword. -/
theorem holding
    (suits : naming.Suits around place)
    {keyword : String}
    (isKeyword : keyword = receiverName ∨ keyword = superclassName) :
    naming.Suits (false :: around) (place.holding keyword) := by
  refine (suits.entering (by simp)).declaring ?_
  rw [List.mem_singleton]
  rintro rfl
  exact isKeyword.elim suits.newLegible.1 suits.newLegible.2

theorem asFunction (suits : naming.Suits around place) (role : FunctionRole) :
    naming.Suits around (place.asFunction role) :=
  ⟨suits.length, suits.unused, suits.newLegible, suits.oldLegible⟩

theorem asClass (suits : naming.Suits around place) (role : ClassRole) :
    naming.Suits around (place.asClass role) :=
  ⟨suits.length, suits.unused, suits.newLegible, suits.oldLegible⟩

/-- A scope that declares legible names suits, also if it is that of the variable. -/
theorem opening
    (suits : naming.Suits around place)
    {declarations : List Declaration}
    {names : List String}
    (same : declarations.map Declaration.name = names)
    (legible : receiverName ∉ names ∧ superclassName ∉ names)
    (target : Option Address) :
    naming.Suits (naming.marks target declarations :: around) place.entering := by
  refine suits.entering fun marked => ?_
  obtain ⟨-, declared⟩ := of_decide_eq_true marked
  have inNames : naming.old ∈ names := same ▸ List.mem_map_of_mem declared
  exact ⟨fun isReceiver => legible.1 (isReceiver ▸ inNames),
    fun isSuperclass => legible.2 (isSuperclass ▸ inNames)⟩

end Suits

theorem placed_asClass (role : ClassRole) :
    naming.placed around (place.asClass role) =
      (naming.placed around place).asClass role :=
  rfl

/-- Declared names are renamed where they are declared. -/
theorem placed_declaring
    (suits : naming.Suits around place)
    (names : List String) :
    naming.placed around (place.declaring names) =
      (naming.placed around place).declaring
        (names.map (naming.text (inMarked around (some 0)))) := by
  have length := suits.length
  unfold Place.declaring Renaming.placed Renaming.scopes
  cases shape : place.scopes with
  | nil => simp [shape]
  | cons innermost outer =>
      cases around with
      | nil => simp [shape] at length
      | cons marked around => simp [inMarked]

theorem placed_holding (name : String) :
    naming.placed (false :: around) (place.holding name) =
      (naming.placed around place).holding name := by
  simp [placed, Renaming.scopes, Place.holding, Place.entering, Place.declaring]

/-! ## Functions and classes -/

/-- In the scope of the variable, no function or class has its name. -/
def Spares (naming : Renaming) (around : List Bool) (declarations : List Declaration) :
    Prop :=
  inMarked around (some 0) = true → .definition naming.old ∉ declarations

/-- What spares declarations in a row spares all of them. -/
theorem Spares.append
    {earlier later : List Declaration}
    (spares : naming.Spares around (earlier ++ later)) :
    naming.Spares around earlier ∧ naming.Spares around later :=
  ⟨fun marked member => spares marked (List.mem_append_left later member),
    fun marked member => spares marked (List.mem_append_right earlier member)⟩

/-- The name of a function or class stays. -/
theorem Spares.text
    {name : String}
    (spares : naming.Spares around [.definition name]) :
    naming.text (inMarked around (some 0)) name = name := by
  unfold Renaming.text
  split
  · next both =>
      obtain ⟨marked, rfl⟩ := both
      exact absurd (by simp) (spares marked)
  · rfl

/-- The scope of the variable spares its name if it repeats none. -/
theorem spares_opening
    {declarations : List Declaration}
    {names : List String}
    (same : declarations.map Declaration.name = names)
    (distinct : names.Nodup)
    (target : Option Address) :
    naming.Spares (naming.marks target declarations :: around) declarations := by
  intro marked member
  have isMarked : naming.marks target declarations = true := by simpa [inMarked] using marked
  obtain ⟨-, declared⟩ := of_decide_eq_true isMarked
  have impossible := List.inj_on_of_nodup_map (same ▸ distinct) member declared rfl
  simp at impossible

/-- Behind a function or class, the renamed program declares the same name. -/
theorem placed_declaring_definition
    (suits : naming.Suits around place)
    {name : String}
    (spares : naming.Spares around [.definition name]) :
    naming.placed around (place.declaring [name]) =
      (naming.placed around place).declaring [name] := by
  rw [placed_declaring suits, List.map_cons, List.map_nil, spares.text]

/-! ## Sites -/

/-- What renaming relies on at a site of the program. -/
structure Allows (naming : Renaming) (site : Site) : Prop where
  faultless : site.fault? = none
  unused : site.token.text ≠ naming.new
  settled :
    ∀ id name, site.occurrence? = some (id, name) →
      naming.depths id = site.place.depth? name

/-- A declaration that is allowed does not declare the new name. -/
theorem unused_one
    {initializing : Option String}
    {name : Identifier}
    (allows : naming.Allows ⟨place, initializing, .declares name⟩) :
    naming.new ∉ [name.text] := by
  have other : name.text ≠ naming.new := allows.unused
  simpa using Ne.symm other

end Renaming

/--
The judgement of resolution on a site: whether it obeys the rules, and the depth of its
occurrence.
-/
def Site.judgement (site : Site) : Bool × Option (NodeId × Option Nat) :=
  (site.fault?.isNone,
    site.occurrence?.map fun (id, name) => (id, site.place.depth? name))

namespace Renaming

/-- An occurrence is found at its depth by its new name. -/
theorem depth?_reference
    (suits : naming.Suits around place)
    {occurrence : Reference}
    (settled : naming.depths occurrence.id = place.depth? occurrence.name.text)
    (other : occurrence.name.text ≠ naming.new) :
    (naming.placed around place).depth? (naming.reference around occurrence).name.text =
      place.depth? occurrence.name.text := by
  have found := suits.depth? other
  rwa [← settled] at found ⊢

/-- The keywords that scopes hold are found at the same depths as before. -/
theorem depth?_keyword
    (suits : naming.Suits around place)
    {keyword : String}
    (isKeyword : keyword = receiverName ∨ keyword = superclassName) :
    (naming.placed around place).depth? keyword = place.depth? keyword := by
  have other : keyword ≠ naming.new := by
    rintro rfl
    exact isKeyword.elim suits.newLegible.1 suits.newLegible.2
  have kept : naming.text (inMarked around (place.depth? keyword)) keyword = keyword := by
    unfold text
    split
    · next both =>
        obtain ⟨notReceiver, notSuperclass⟩ := suits.oldLegible (mem_of_inMarked both.1)
        rw [both.2] at isKeyword
        exact (isKeyword.elim notReceiver notSuperclass).elim
    · rfl
  have found := suits.depth? other
  rwa [kept] at found

section

variable {initializing : Option String}

/-- A variable is judged as before. -/
theorem judgement_reads
    (suits : naming.Suits around place)
    (initializingOther : ∀ name ∈ initializing, name ≠ naming.new)
    {occurrence : Reference}
    (allows : naming.Allows ⟨place, initializing, .reads occurrence⟩) :
    Site.judgement
        ⟨naming.placed around place,
          initializing.map (naming.text (inMarked around (some 0))),
          .reads (naming.reference around occurrence)⟩ =
      Site.judgement ⟨place, initializing, .reads occurrence⟩ := by
  have depth := depth?_reference suits (allows.settled _ _ rfl) allows.unused
  have faultless := allows.faultless
  have renamedFaultless : Site.fault?
      ⟨naming.placed around place,
        initializing.map (naming.text (inMarked around (some 0))),
        .reads (naming.reference around occurrence)⟩ = none := by
    simp only [Site.fault?] at faultless ⊢
    split
    · next own =>
        obtain ⟨name, isName, same⟩ := Option.map_eq_some_iff.mp own.1
        obtain rfl := text_injective (initializingOther name isName) allows.unused same
        rw [if_pos ⟨isName, suits.nonempty.mp own.2⟩] at faultless
        simp at faultless
    · rfl
  unfold Site.judgement
  rw [renamedFaultless, faultless]
  simp only [Site.occurrence?, Option.map_some, depth]
  rfl

/-- A target is judged as before. -/
theorem judgement_assigns
    (suits : naming.Suits around place)
    (other : Option String)
    {target : Reference}
    (allows : naming.Allows ⟨place, initializing, .assigns target⟩) :
    Site.judgement
        ⟨naming.placed around place, other, .assigns (naming.reference around target)⟩ =
      Site.judgement ⟨place, initializing, .assigns target⟩ := by
  have depth := depth?_reference suits (allows.settled _ _ rfl) allows.unused
  simp only [Site.judgement, Site.fault?, Site.occurrence?, Option.map_some, depth]
  rfl

/-- The receiver is judged as before. -/
theorem judgement_this (suits : naming.Suits around place) (other : Option String)
    (id : NodeId) (line : Nat) :
    Site.judgement ⟨naming.placed around place, other, .this id line⟩ =
      Site.judgement ⟨place, initializing, .this id line⟩ := by
  simp only [Site.judgement, Site.fault?, Site.occurrence?, Option.map_some,
    depth?_keyword suits (.inl rfl)]
  rfl

/-- An access to a superclass is judged as before. -/
theorem judgement_super (suits : naming.Suits around place) (other : Option String)
    (id : NodeId) (line : Nat) :
    Site.judgement ⟨naming.placed around place, other, .super id line⟩ =
      Site.judgement ⟨place, initializing, .super id line⟩ := by
  simp only [Site.judgement, Site.fault?, Site.occurrence?, Option.map_some,
    depth?_keyword suits (.inr rfl)]
  rfl

end

/-- Declarations of different names stay so. -/
theorem judgement_declares
    (suits : naming.Suits around place)
    {name : Identifier}
    (other : name.text ≠ naming.new) :
    Site.judgement
        ⟨naming.placed around place, none, .declares (naming.declared around name)⟩ =
      Site.judgement ⟨place, none, .declares name⟩ := by
  have kept := suits.hasLocally other
  simp only [Site.judgement, Site.fault?, Site.occurrence?]
  rw [show (naming.declared around name).text =
    naming.text (inMarked around (some 0)) name.text from rfl, kept]
  split <;> rfl

/-- The name of a function or class stays, and is judged as before. -/
theorem judgement_defines
    (suits : naming.Suits around place)
    {name : Identifier}
    (spares : naming.Spares around [.definition name.text])
    (allows : naming.Allows ⟨place, none, .declares name⟩) :
    Site.judgement ⟨naming.placed around place, none, .declares name⟩ =
      Site.judgement ⟨place, none, .declares name⟩ := by
  have kept : naming.declared around name = name := by
    unfold Renaming.declared Renaming.name
    rw [spares.text]
  have other : name.text ≠ naming.new := allows.unused
  have declares := judgement_declares suits other
  rwa [kept] at declares

/-- A superclass is judged as before, also where its name is the one of the class. -/
theorem judgement_inherits
    {name : Identifier}
    {parent : Reference}
    (spares : naming.Spares around [.definition name.text])
    (other : name.text ≠ naming.new)
    (allows : naming.Allows ⟨place, none, .inherits name parent.name⟩) :
    Site.judgement
        ⟨naming.placed around place, none,
          .inherits name (naming.reference around parent).name⟩ =
      Site.judgement ⟨place, none, .inherits name parent.name⟩ := by
  have faultless := allows.faultless
  have different : parent.name.text ≠ name.text := by
    intro same
    simp [Site.fault?, same] at faultless
  have stillDifferent : (naming.reference around parent).name.text ≠ name.text := by
    intro same
    exact different (text_injective allows.unused other (same.trans spares.text.symm))
  simp [Site.judgement, Site.fault?, Site.occurrence?, different, stillDifferent]

end Renaming

end Lox.Scoping
