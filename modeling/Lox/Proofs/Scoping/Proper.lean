import Lox.Proofs.Scoping.Rules

namespace Lox

open Scoping

/-!
# Proper trees and sound places

The grammar keeps the scopes of a program in order: names are never the keywords
`this` and `super`, and what a branch or a loop runs is no declaration.  In such
a program every method finds the scopes of `this` and `super` around it where the
class put them.
-/

/-- A name that is not one of the keywords that scopes hold. -/
def Identifier.Legible (name : Identifier) : Prop :=
  name.text ≠ receiverName ∧ name.text ≠ superclassName

mutual

/-- All names that an expression assigns are legible. -/
def Expr.Proper : Expr → Prop
  | .literal _ => True
  | .grouping inner => inner.Proper
  | .unary _ _ operand => operand.Proper
  | .binary _ _ left right => left.Proper ∧ right.Proper
  | .logical _ left right => left.Proper ∧ right.Proper
  | .reference _ => True
  | .assign target value => target.name.Legible ∧ value.Proper
  | .call callee arguments _ => callee.Proper ∧ Expr.AllProper arguments
  | .property object _ => object.Proper
  | .setProperty object _ value => object.Proper ∧ value.Proper
  | .this _ _ => True
  | .super _ _ _ => True

/-- All names that expressions assign are legible. -/
def Expr.AllProper : List Expr → Prop
  | [] => True
  | first :: rest => first.Proper ∧ Expr.AllProper rest

end

/-- All names in an expression that may be absent are legible. -/
def Expr.OptionalProper : Option Expr → Prop
  | none => True
  | some value => value.Proper

mutual

/-- All names in a statement are legible, and nothing is declared conditionally. -/
def Stmt.Proper : Stmt → Prop
  | .expression value => value.Proper
  | .print value => value.Proper
  | .varDeclaration name initializer => name.Legible ∧ Expr.OptionalProper initializer
  | .block body => Stmt.AllProper body
  | .branch condition consequent none =>
      condition.Proper ∧ consequent.Proper ∧ consequent.declared = []
  | .branch condition consequent (some alternative) =>
      condition.Proper ∧ (consequent.Proper ∧ consequent.declared = []) ∧
        alternative.Proper ∧ alternative.declared = []
  | .loop condition body => condition.Proper ∧ body.Proper ∧ body.declared = []
  | .functionDeclaration declaration =>
      declaration.name.Legible ∧ declaration.Proper
  | .returnValue _ value => Expr.OptionalProper value
  | .classDeclaration name _ methods =>
      name.Legible ∧ FunctionDeclaration.AllProper methods

/-- All statements are proper. -/
def Stmt.AllProper : List Stmt → Prop
  | [] => True
  | first :: rest => first.Proper ∧ Stmt.AllProper rest

/-- The parameters and the body of a function are proper. -/
def FunctionDeclaration.Proper : FunctionDeclaration → Prop
  | .intro _ parameters body =>
      (∀ name ∈ parameters, name.Legible) ∧ Stmt.AllProper body

/-- All functions are proper. -/
def FunctionDeclaration.AllProper : List FunctionDeclaration → Prop
  | [] => True
  | first :: rest => first.Proper ∧ FunctionDeclaration.AllProper rest

end

/-- A proper statement declares legible names only. -/
theorem Stmt.Proper.declared_legible
    {statement : Stmt}
    (proper : statement.Proper) :
    receiverName ∉ statement.declared ∧ superclassName ∉ statement.declared := by
  cases statement with
  | varDeclaration name _ =>
      simp only [Stmt.Proper] at proper
      simp [Stmt.declared, proper.1.1.symm, proper.1.2.symm]
  | functionDeclaration declaration =>
      simp only [Stmt.Proper] at proper
      simp [Stmt.declared, proper.1.1.symm, proper.1.2.symm]
  | classDeclaration name _ _ =>
      simp only [Stmt.Proper] at proper
      simp [Stmt.declared, proper.1.1.symm, proper.1.2.symm]
  | branch _ _ alternative =>
      cases alternative with
      | none =>
          simp only [Stmt.Proper] at proper
          simp [Stmt.declared, proper.2.2]
      | some _ =>
          simp only [Stmt.Proper] at proper
          simp [Stmt.declared, proper.2.1.2, proper.2.2.2]
  | loop _ _ =>
      simp only [Stmt.Proper] at proper
      simp [Stmt.declared, proper.2.2]
  | expression _ => simp [Stmt.declared]
  | print _ => simp [Stmt.declared]
  | block _ => simp [Stmt.declared]
  | returnValue _ _ => simp [Stmt.declared]

/-- Proper statements declare legible names. -/
theorem Stmt.AllProper.declared_legible
    {body : List Stmt}
    (proper : Stmt.AllProper body) :
    receiverName ∉ Stmt.declaredByAll body ∧ superclassName ∉ Stmt.declaredByAll body := by
  induction body with
  | nil => simp [Stmt.declaredByAll]
  | cons first rest inductionHypothesis =>
      have here := proper.1.declared_legible
      have behind := inductionHypothesis proper.2
      simp [Stmt.declaredByAll, here, behind]

namespace Scoping

/-! ## Sound places -/

/--
Inside of a class there is a scope with `this`.  Inside of a subclass the innermost scope
with `this` is right inside of the innermost one with `super`.
-/
structure Place.Sound (place : Place) : Prop where
  receiver : place.classRole ≠ none → ∃ depth, place.depth? receiverName = some depth
  superclass :
    place.classRole = some .subclass →
      place.depth? superclassName = (place.depth? receiverName).map (· + 1)

namespace Place

variable {place : Place}

theorem sound_outermost : Place.outermost.Sound :=
  ⟨fun inside => absurd rfl inside, fun inside => by simp [Place.outermost] at inside⟩

/-- Other names do not change the depth of a name. -/
theorem depth?_declaring
    (place : Place)
    {name : String}
    {names : List String}
    (other : name ∉ names) :
    (place.declaring names).depth? name = place.depth? name := by
  unfold declaring depth?
  cases shape : place.scopes with
  | nil => simp [shape]
  | cons innermost outer =>
      simp only [List.findIdx?_cons, List.mem_append, other, or_false]

theorem depth?_entering (place : Place) (name : String) :
    place.entering.depth? name = (place.depth? name).map (· + 1) := by
  simp [entering, depth?, List.findIdx?_cons]

theorem depth?_holding_self (place : Place) (name : String) :
    (place.holding name).depth? name = some 0 := by
  simp [holding, entering, declaring, depth?, List.findIdx?_cons]

theorem depth?_holding_of_ne
    (place : Place)
    {name other : String}
    (different : other ≠ name) :
    (place.holding name).depth? other = (place.depth? other).map (· + 1) := by
  rw [holding, depth?_declaring _ (by simpa using different), depth?_entering]

/-- The scope with `super` has the one with `this` inside. -/
theorem Sound.exists_receiver
    (sound : place.Sound)
    (inside : place.classRole = some .subclass) :
    ∃ depth names,
      place.depth? superclassName = some (depth + 1) ∧
        place.depth? receiverName = some depth ∧
        place.scopes[depth]? = some names ∧ receiverName ∈ names := by
  obtain ⟨depth, known⟩ := sound.receiver (by simp [inside])
  have binds := place.binds_depth? receiverName
  rw [known] at binds
  obtain ⟨⟨names, isNames, member⟩, -⟩ := binds
  exact ⟨depth, names, by rw [sound.superclass inside, known]; rfl, known, isNames, member⟩

/-- Behind legible declarations, a place stays sound. -/
theorem Sound.declaring
    (sound : place.Sound)
    {names : List String}
    (legible : receiverName ∉ names ∧ superclassName ∉ names) :
    (place.declaring names).Sound := by
  obtain ⟨-, classRole⟩ := place.declaring_roles names
  refine ⟨fun inside => ?_, fun inside => ?_⟩
  · rw [depth?_declaring place legible.1]
    exact sound.receiver (classRole ▸ inside)
  · rw [depth?_declaring place legible.1, depth?_declaring place legible.2]
    exact sound.superclass (classRole ▸ inside)

theorem Sound.entering (sound : place.Sound) : place.entering.Sound := by
  refine ⟨fun inside => ?_, fun inside => ?_⟩
  · obtain ⟨depth, known⟩ := sound.receiver inside
    exact ⟨depth + 1, by rw [depth?_entering, known]; rfl⟩
  · rw [depth?_entering, depth?_entering, sound.superclass inside]

theorem Sound.asFunction (sound : place.Sound) (role : FunctionRole) :
    (place.asFunction role).Sound :=
  ⟨sound.receiver, sound.superclass⟩

/-- The methods of a class are at a sound place. -/
theorem sound_ofMethods (place : Place) (superclass : Option Reference) :
    (place.ofMethods superclass).Sound := by
  cases superclass with
  | none =>
      refine ⟨fun _ => ⟨0, depth?_holding_self _ _⟩, ?_⟩
      intro inside
      simp [ofMethods, holding, declaring, entering, asClass] at inside
  | some parent =>
      refine ⟨fun _ => ⟨0, depth?_holding_self _ _⟩, fun _ => ?_⟩
      rw [ofMethods, depth?_holding_of_ne _ (by decide), depth?_holding_self,
        depth?_holding_self]

end Place

/-- Where `this` may be read, there is a class around it. -/
theorem inClass_of_faultless
    {place : Place}
    {initializing : Option String}
    {id : NodeId}
    {line : Nat}
    (faultless : Site.fault? ⟨place, initializing, .this id line⟩ = none) :
    place.classRole ≠ none := by
  intro outside
  simp [Site.fault?, outside] at faultless

/-- Where `super` may be read, there is a subclass around it. -/
theorem subclass_of_faultless
    {place : Place}
    {initializing : Option String}
    {id : NodeId}
    {line : Nat}
    (faultless : Site.fault? ⟨place, initializing, .super id line⟩ = none) :
    place.classRole = some .subclass := by
  simp only [Site.fault?] at faultless
  split at faultless
  · simp at faultless
  · simp at faultless
  · assumption

/-! ## The sites of proper trees -/

/-- Parameters are declared at sound places. -/
theorem sound_parameters
    {place : Place}
    (sound : place.Sound)
    (names : List Identifier)
    (legible : ∀ name ∈ names, name.Legible) :
    ∀ site ∈ sitesOfParameters place names, site.place.Sound := by
  induction names generalizing place with
  | nil => simp [sitesOfParameters]
  | cons first rest inductionHypothesis =>
      have firstLegible := legible first (by simp)
      intro site member
      rcases List.mem_cons.mp member with rfl | later
      · exact sound
      · refine inductionHypothesis (sound.declaring ?_)
          (fun name inRest => legible name (by simp [inRest])) site later
        simp [firstLegible.1.symm, firstLegible.2.symm]

theorem sound_of_inExpression
    {place : Place}
    {initializing : Option String}
    {sites : List Site}
    (sound : place.Sound)
    (inside : ∀ site ∈ sites, site.InExpression place initializing) :
    ∀ site ∈ sites, site.place.Sound :=
  fun site member => (inside site member).place ▸ sound

/-- The sites of a superclass are all at one place. -/
theorem place_of_superclass
    {place : Place}
    {name : Identifier}
    {superclass : Option Reference}
    {site : Site}
    (member : site ∈ sitesOfSuperclass place name superclass) :
    site.place = place := by
  cases superclass with
  | none => simp [sitesOfSuperclass] at member
  | some parent =>
      simp only [sitesOfSuperclass, List.mem_cons, List.not_mem_nil, or_false] at member
      rcases member with rfl | rfl <;> rfl

/-- Legible parameters are legible names. -/
theorem legible_parameters
    {names : List Identifier}
    (legible : ∀ name ∈ names, name.Legible) :
    receiverName ∉ names.map (·.text) ∧ superclassName ∉ names.map (·.text) := by
  constructor
  all_goals
    intro member
    obtain ⟨name, inNames, same⟩ := List.mem_map.mp member
    first
    | exact (legible name inNames).1 same
    | exact (legible name inNames).2 same

mutual

/-- All sites of a proper statement at a sound place are at sound places. -/
theorem sound_statement :
    ∀ (statement : Stmt) {place : Place}, statement.Proper → place.Sound →
      ∀ site ∈ statement.sites place, site.place.Sound
  | .expression value, _, _, sound =>
      sound_of_inExpression sound (sites_inExpression _ none value)
  | .print value, _, _, sound =>
      sound_of_inExpression sound (sites_inExpression _ none value)
  | .varDeclaration name initializer, place, proper, sound => by
      intro site member
      rcases List.mem_cons.mp member with rfl | inInitializer
      · exact sound
      · exact sound_of_inExpression (sound.declaring proper.declared_legible)
          (sitesOfOptional_inExpression _ _ initializer) site inInitializer
  | .block body, _, proper, sound => sound_statements body proper sound.entering
  | .branch condition consequent none, _, proper, sound => by
      intro site member
      rcases List.mem_append.mp member with inCondition | inConsequent
      · exact sound_of_inExpression sound (sites_inExpression _ none condition) site
          inCondition
      · exact sound_statement consequent proper.2.1 sound site inConsequent
  | .branch condition consequent (some alternative), _, proper, sound => by
      intro site member
      rcases List.mem_append.mp member with inCondition | inBranches
      · exact sound_of_inExpression sound (sites_inExpression _ none condition) site
          inCondition
      rcases List.mem_append.mp inBranches with inConsequent | inAlternative
      · exact sound_statement consequent proper.2.1.1 sound site inConsequent
      · exact sound_statement alternative proper.2.2.1
          (sound.declaring proper.2.1.1.declared_legible) site inAlternative
  | .loop condition body, _, proper, sound => by
      intro site member
      rcases List.mem_append.mp member with inCondition | inBody
      · exact sound_of_inExpression sound (sites_inExpression _ none condition) site
          inCondition
      · exact sound_statement body proper.2.1 sound site inBody
  | .functionDeclaration declaration, _, proper, sound => by
      intro site member
      rcases List.mem_cons.mp member with rfl | inFunction
      · exact sound
      · exact sound_function declaration .function proper.2
          (sound.declaring proper.declared_legible) site inFunction
  | .returnValue line value, _, _, sound => by
      intro site member
      rcases List.mem_cons.mp member with rfl | inValue
      · exact sound
      · exact sound_of_inExpression sound (sitesOfOptional_inExpression _ none value)
          site inValue
  | .classDeclaration name superclass methods, place, proper, sound => by
      intro site member
      rcases List.mem_cons.mp member with rfl | inClass
      · exact sound
      rcases List.mem_append.mp inClass with inHeader | inMethods
      · have named := sound.declaring proper.declared_legible
        exact place_of_superclass inHeader ▸ named
      · exact sound_methods methods proper.2 (Place.sound_ofMethods _ superclass) site
          inMethods

/-- All sites of proper statements at a sound place are at sound places. -/
theorem sound_statements :
    ∀ (body : List Stmt) {place : Place}, Stmt.AllProper body → place.Sound →
      ∀ site ∈ Stmt.sitesOfAll place body, site.place.Sound
  | [], _, _, _ => by simp [Stmt.sitesOfAll]
  | first :: rest, _, proper, sound => by
      intro site member
      rcases List.mem_append.mp member with inFirst | inRest
      · exact sound_statement first proper.1 sound site inFirst
      · exact sound_statements rest proper.2
          (sound.declaring proper.1.declared_legible) site inRest

/-- All sites of a proper function at a sound place are at sound places. -/
theorem sound_function :
    ∀ (declaration : FunctionDeclaration) (role : FunctionRole) {place : Place},
      declaration.Proper → place.Sound →
      ∀ site ∈ declaration.sites role place, site.place.Sound
  | .intro _ parameters body, role, _, proper, sound => by
      have start := (sound.asFunction role).entering
      intro site member
      rcases List.mem_append.mp member with inParameters | inBody
      · exact sound_parameters start parameters proper.1 site inParameters
      · exact sound_statements body proper.2
          (start.declaring (legible_parameters proper.1)) site inBody

/-- All sites of proper methods at a sound place are at sound places. -/
theorem sound_methods :
    ∀ (methods : List FunctionDeclaration) {place : Place},
      FunctionDeclaration.AllProper methods → place.Sound →
      ∀ site ∈ FunctionDeclaration.sitesOfAll place methods, site.place.Sound
  | [], _, _, _ => by simp [FunctionDeclaration.sitesOfAll]
  | first :: rest, _, proper, sound => by
      intro site member
      rcases List.mem_append.mp member with inFirst | inRest
      · exact sound_function first .method proper.1 sound site inFirst
      · exact sound_methods rest proper.2 sound site inRest

end

end Scoping

end Lox
