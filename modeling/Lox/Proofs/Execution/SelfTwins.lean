import Lox.Proofs.Execution.Coherence
import Lox.Proofs.Execution.Twins

namespace Lox.Execution

open Scoping

/-!
# Programs are twins of themselves

In each scope a run may only bind the names that are declared there.  With labels that
allow for these, a program that resolution has accepted is its own twin.
-/

/--
Labels for local scopes.  Those of `this` and `super` have labels of their own.  What
any other scope may bind depends on how many scopes there are up to it, and it may bind
the names that it has declared.
-/
inductive Labelled (pairing : Pairing) (allowed : Nat → String → Prop) :
    List (List String) → List Label → Prop where
  | nil : Labelled pairing allowed [] []
  | receiver {outer levels} :
      Labelled pairing allowed outer levels →
      Labelled pairing allowed ([receiverName] :: outer) (pairing.receiver :: levels)
  | superclass {outer levels} :
      Labelled pairing allowed outer levels →
      Labelled pairing allowed ([superclassName] :: outer) (pairing.superclass :: levels)
  | plain {names outer levels} :
      (∀ name ∈ names, allowed (outer.length + 1) name) →
      Labelled pairing allowed outer levels →
      Labelled pairing allowed (names :: outer) (.only (allowed (outer.length + 1)) :: levels)

/-- The labels at a point that may declare names: the innermost scope is not that of a class. -/
structure Declaring
    (pairing : Pairing)
    (allowed : Nat → String → Prop)
    (place : Place)
    (levels : List Label) :
    Prop where
  labelled : Labelled pairing allowed place.scopes levels
  innermost : ∀ label ∈ levels.head?, label = .only (allowed place.scopes.length)

/-- What is known of a site at which a program is its own twin. -/
structure Prepared (pairing : Pairing) (allowed : Nat → String → Prop) (site : Site) : Prop where
  faultless : site.fault? = none
  sound : site.place.Sound
  settled :
    ∀ id name, site.occurrence? = some (id, name) →
      pairing.settled id id (site.place.depth? name)
  declared :
    ∀ name, site.deed = .declares name → allowed site.place.scopes.length name.text
  admits :
    ∀ levels, Labelled pairing allowed site.place.scopes levels →
      ∀ initializing,
        (∀ target, site.deed = .assigns target → initializing = site.initializing) →
        pairing.admits levels initializing site.deed

/-- Every line and every name may be reported in its own place. -/
structure Pairing.Reflexive (pairing : Pairing) : Prop where
  lines : ∀ line, pairing.lines line line
  names : ∀ name, pairing.names name name

theorem Pairing.Reflexive.reports
    {pairing : Pairing}
    (reflexive : pairing.Reflexive)
    (name : Identifier) :
    pairing.Reports name name :=
  ⟨reflexive.lines name.line, reflexive.names name.text⟩

variable {pairing : Pairing} {allowed : Nat → String → Prop} {place : Place}
  {levels : List Label}

/-! ## Names -/

/-- A scope may bind the names that it has declared. -/
theorem Labelled.renames
    {scopes : List (List String)}
    (labelled : Labelled pairing allowed scopes levels)
    {depth : Nat}
    {names : List String}
    (known : scopes[depth]? = some names)
    {name : String}
    (member : name ∈ names) :
    Renames levels (some depth) name name := by
  induction labelled generalizing depth with
  | nil => simp at known
  | receiver _ inductionHypothesis =>
      cases depth with
      | zero =>
          obtain rfl : [receiverName] = names := by simpa using known
          obtain rfl := List.mem_singleton.mp member
          exact ⟨_, rfl, pairing.receiver_renames⟩
      | succ depth => exact inductionHypothesis (by simpa using known)
  | superclass _ inductionHypothesis =>
      cases depth with
      | zero =>
          obtain rfl : [superclassName] = names := by simpa using known
          obtain rfl := List.mem_singleton.mp member
          exact ⟨_, rfl, pairing.superclass_renames⟩
      | succ depth => exact inductionHypothesis (by simpa using known)
  | @plain found _ _ permits _ inductionHypothesis =>
      cases depth with
      | zero =>
          obtain rfl : found = names := by simpa using known
          exact ⟨_, rfl, permits name member, rfl⟩
      | succ depth => exact inductionHypothesis (by simpa using known)

/-- A name is called the same in the scope in which it is found. -/
theorem Labelled.renames_depth?
    (labelled : Labelled pairing allowed place.scopes levels)
    (name : String) :
    Renames levels (place.depth? name) name name := by
  have binds := place.binds_depth? name
  cases found : place.depth? name with
  | none => rfl
  | some depth =>
      rw [found] at binds
      obtain ⟨⟨names, known, member⟩, -⟩ := binds
      exact labelled.renames known member

/-- The scopes around the innermost one have labels of their own. -/
theorem Labelled.outer
    {names : List String}
    {scopes : List (List String)}
    (labelled : Labelled pairing allowed (names :: scopes) levels) :
    ∃ label inner, levels = label :: inner ∧ Labelled pairing allowed scopes inner := by
  cases labelled with
  | receiver inside => exact ⟨_, _, rfl, inside⟩
  | superclass inside => exact ⟨_, _, rfl, inside⟩
  | plain _ inside => exact ⟨_, _, rfl, inside⟩

namespace Declaring

theorem outermost : Declaring pairing allowed .outermost [] :=
  ⟨.nil, by simp⟩

theorem declares
    (declaring : Declaring pairing allowed place levels)
    {name : String}
    (permitted : allowed place.scopes.length name) :
    Declares levels name name := by
  cases levels with
  | nil => rfl
  | cons label levels =>
      obtain rfl := declaring.innermost label (by simp)
      exact ⟨permitted, rfl⟩

/-- A scope may go on to declare names that it may bind. -/
theorem behind
    (declaring : Declaring pairing allowed place levels)
    {names : List String}
    (permitted : ∀ name ∈ names, allowed place.scopes.length name) :
    Declaring pairing allowed (place.declaring names) levels := by
  obtain ⟨labelled, innermost⟩ := declaring
  unfold Place.declaring
  cases shape : place.scopes with
  | nil => exact ⟨labelled, innermost⟩
  | cons found outer =>
      rw [shape] at labelled innermost permitted
      obtain ⟨label, inner, rfl, inside⟩ := labelled.outer
      obtain rfl := innermost label (by simp)
      refine ⟨.plain ?_ inside, by simp⟩
      intro name member
      rcases List.mem_append.mp member with before | new
      · have isInnermost : (found :: outer)[0]? = some found := rfl
        obtain ⟨_, isLabel, renames⟩ := labelled.renames isInnermost before
        obtain rfl := Option.some.inj isLabel
        exact renames.1
      · exact permitted name new

theorem entering
    (labelled : Labelled pairing allowed place.scopes levels) :
    Declaring pairing allowed place.entering
      (.only (allowed (place.scopes.length + 1)) :: levels) :=
  ⟨.plain (by simp) labelled, by simp [Place.entering]⟩

end Declaring

/-! ## Expressions -/

/-- Some sites are prepared. -/
def AllPrepared (pairing : Pairing) (allowed : Nat → String → Prop) (sites : List Site) : Prop :=
  ∀ site ∈ sites, Prepared pairing allowed site

theorem AllPrepared.append
    {earlier later : List Site}
    (prepared : AllPrepared pairing allowed (earlier ++ later)) :
    AllPrepared pairing allowed earlier ∧ AllPrepared pairing allowed later :=
  List.forall_mem_append.mp prepared

theorem AllPrepared.cons
    {site : Site}
    {rest : List Site}
    (prepared : AllPrepared pairing allowed (site :: rest)) :
    Prepared pairing allowed site ∧ AllPrepared pairing allowed rest :=
  List.forall_mem_cons.mp prepared

/-- An occurrence is twin to itself, as it is settled where its name is found. -/
theorem selfTwins_reference
    (reflexive : pairing.Reflexive)
    (labelled : Labelled pairing allowed place.scopes levels)
    {occurrence : Reference}
    (settled :
      pairing.settled occurrence.id occurrence.id (place.depth? occurrence.name.text)) :
    ReferenceTwins pairing levels occurrence occurrence :=
  ⟨⟨_, settled, labelled.renames_depth? occurrence.name.text⟩,
    reflexive.reports occurrence.name⟩

/-- Where `super` is allowed, its scope is around that of `this`. -/
theorem selfTwins_super
    (labelled : Labelled pairing allowed place.scopes levels)
    {initializing : Option String}
    {id : NodeId}
    {line : Nat}
    (prepared : Prepared pairing allowed ⟨place, initializing, .super id line⟩) :
    SuperTwins pairing levels id id := by
  refine ⟨_, prepared.settled id superclassName rfl, fun depth found => ?_,
    fun nearer found => ?_⟩
  · exact found ▸ labelled.renames_depth? superclassName
  · have inside := subclass_of_faultless prepared.faultless
    obtain ⟨depth, names, above, -, known, member⟩ := prepared.sound.exists_receiver inside
    obtain rfl : depth = nearer := by simpa using above.symm.trans found
    exact labelled.renames known member

section

variable {initializing : Option String}

mutual

/-- An expression is its own twin. -/
theorem selfTwins_expression
    (reflexive : pairing.Reflexive)
    (labelled : Labelled pairing allowed place.scopes levels) :
    ∀ value : Expr, AllPrepared pairing allowed (value.sites place initializing) →
      ExprTwins pairing levels initializing value value
  | .literal _, _ => .literal
  | .grouping inner, prepared =>
      .grouping (selfTwins_expression reflexive labelled inner prepared)
  | .unary _ line operand, prepared =>
      .unary (reflexive.lines line) (selfTwins_expression reflexive labelled operand prepared)
  | .binary _ line left right, prepared =>
      .binary (reflexive.lines line)
        (selfTwins_expression reflexive labelled left (AllPrepared.append prepared).1)
        (selfTwins_expression reflexive labelled right (AllPrepared.append prepared).2)
  | .logical _ left right, prepared =>
      .logical
        (selfTwins_expression reflexive labelled left (AllPrepared.append prepared).1)
        (selfTwins_expression reflexive labelled right (AllPrepared.append prepared).2)
  | .reference _, prepared => by
      obtain ⟨here, -⟩ := AllPrepared.cons prepared
      exact .reference (selfTwins_reference reflexive labelled (here.settled _ _ rfl))
        (here.admits levels labelled _ fun _ _ => rfl)
  | .assign _ value, prepared => by
      obtain ⟨inValue, inTarget⟩ := AllPrepared.append prepared
      obtain ⟨here, -⟩ := AllPrepared.cons inTarget
      exact .assign (selfTwins_expression reflexive labelled value inValue)
        (selfTwins_reference reflexive labelled (here.settled _ _ rfl))
        (here.admits levels labelled _ fun _ _ => rfl)
  | .call callee arguments line, prepared =>
      .call (reflexive.lines line)
        (selfTwins_expression reflexive labelled callee (AllPrepared.append prepared).1)
        (selfTwins_expressions reflexive labelled arguments (AllPrepared.append prepared).2)
  | .property object name, prepared =>
      .property (selfTwins_expression reflexive labelled object prepared) rfl
        (reflexive.reports name)
  | .setProperty object name value, prepared =>
      .setProperty
        (selfTwins_expression reflexive labelled object (AllPrepared.append prepared).2) rfl
        (reflexive.reports name)
        (selfTwins_expression reflexive labelled value (AllPrepared.append prepared).1)
  | .this id line, prepared => by
      obtain ⟨here, -⟩ := AllPrepared.cons prepared
      exact .this (selfTwins_reference reflexive labelled (here.settled _ _ rfl))
        (here.admits levels labelled _ fun _ _ => rfl)
  | .super _ _ method, prepared => by
      obtain ⟨here, -⟩ := AllPrepared.cons prepared
      exact .super (selfTwins_super labelled here)
        (here.admits levels labelled _ fun _ assigns => nomatch assigns) (reflexive.reports _)
        rfl (reflexive.reports method)

theorem selfTwins_expressions
    (reflexive : pairing.Reflexive)
    (labelled : Labelled pairing allowed place.scopes levels) :
    ∀ values : List Expr,
      AllPrepared pairing allowed (Expr.sitesOfAll place initializing values) →
      List.Forall₂ (ExprTwins pairing levels initializing) values values
  | [], _ => .nil
  | first :: rest, prepared =>
      .cons (selfTwins_expression reflexive labelled first (AllPrepared.append prepared).1)
        (selfTwins_expressions reflexive labelled rest (AllPrepared.append prepared).2)

end

end

/-! ## Statements -/

/-- The names that a statement declares are declared at its sites. -/
theorem permitted_statement :
    ∀ (statement : Stmt) {place : Place},
      AllPrepared pairing allowed (statement.sites place) →
      ∀ name ∈ statement.declared, allowed place.scopes.length name
  | .expression _, _, _, _, member => by simp [Stmt.declared] at member
  | .print _, _, _, _, member => by simp [Stmt.declared] at member
  | .varDeclaration _ _, _, prepared, _, member => by
      obtain rfl := List.mem_singleton.mp member
      exact (AllPrepared.cons prepared).1.declared _ rfl
  | .block _, _, _, _, member => by simp [Stmt.declared] at member
  | .branch _ consequent none, _, prepared, name, member =>
      permitted_statement consequent (AllPrepared.append prepared).2 name member
  | .branch _ consequent (some alternative), place, prepared, name, member => by
      obtain ⟨inConsequent, inAlternative⟩ :=
        AllPrepared.append (AllPrepared.append prepared).2
      rcases List.mem_append.mp member with first | second
      · exact permitted_statement consequent inConsequent name first
      · have permitted := permitted_statement alternative inAlternative name second
        rwa [Place.length_declaring] at permitted
  | .loop _ body, _, prepared, name, member =>
      permitted_statement body (AllPrepared.append prepared).2 name member
  | .functionDeclaration _, _, prepared, _, member => by
      obtain rfl := List.mem_singleton.mp member
      exact (AllPrepared.cons prepared).1.declared _ rfl
  | .returnValue _ _, _, _, _, member => by simp [Stmt.declared] at member
  | .classDeclaration _ _ _, _, prepared, _, member => by
      obtain rfl := List.mem_singleton.mp member
      exact (AllPrepared.cons prepared).1.declared _ rfl

/-- The parameters of a function are declared at their sites. -/
theorem permitted_parameters
    (parameters : List Identifier)
    (prepared : AllPrepared pairing allowed (sitesOfParameters place parameters)) :
    ∀ parameter ∈ parameters, allowed place.scopes.length parameter.text := by
  induction parameters generalizing place with
  | nil => simp
  | cons first rest inductionHypothesis =>
      obtain ⟨here, behind⟩ := prepared.cons
      have later := inductionHypothesis behind
      rw [Place.length_declaring] at later
      exact List.forall_mem_cons.mpr ⟨here.declared first rfl, later⟩

mutual

/-- A statement is its own twin. -/
theorem selfTwins_statement
    (reflexive : pairing.Reflexive) :
    ∀ (statement : Stmt) {place : Place} {levels : List Label},
      Declaring pairing allowed place levels →
      AllPrepared pairing allowed (statement.sites place) →
      StmtTwins pairing levels statement statement
  | .expression value, _, _, declaring, prepared =>
      .expression (selfTwins_expression reflexive declaring.labelled value prepared)
  | .print value, _, _, declaring, prepared =>
      .print (selfTwins_expression reflexive declaring.labelled value prepared)
  | .varDeclaration name none, _, _, declaring, prepared => by
      obtain ⟨here, -⟩ := AllPrepared.cons prepared
      exact .uninitialized (declaring.declares (here.declared name rfl))
  | .varDeclaration name (some value), _, _, declaring, prepared => by
      obtain ⟨here, behind⟩ := AllPrepared.cons prepared
      have permitted := here.declared name rfl
      have declared := declaring.behind (List.forall_mem_singleton.mpr permitted)
      exact .initialized (declaring.declares permitted)
        (selfTwins_expression reflexive declared.labelled value behind)
  | .block body, _, _, declaring, prepared =>
      .block (selfTwins_statements reflexive body (.entering declaring.labelled) prepared)
  | .branch condition consequent none, _, _, declaring, prepared => by
      obtain ⟨inCondition, inConsequent⟩ := AllPrepared.append prepared
      exact .conditional
        (selfTwins_expression reflexive declaring.labelled condition inCondition)
        (selfTwins_statement reflexive consequent declaring inConsequent)
  | .branch condition consequent (some alternative), _, _, declaring, prepared => by
      obtain ⟨inCondition, inBranches⟩ := AllPrepared.append prepared
      obtain ⟨inConsequent, inAlternative⟩ := AllPrepared.append inBranches
      exact .alternative
        (selfTwins_expression reflexive declaring.labelled condition inCondition)
        (selfTwins_statement reflexive consequent declaring inConsequent)
        (selfTwins_statement reflexive alternative
          (declaring.behind (permitted_statement consequent inConsequent)) inAlternative)
  | .loop condition body, _, _, declaring, prepared => by
      obtain ⟨inCondition, inBody⟩ := AllPrepared.append prepared
      exact .loop (selfTwins_expression reflexive declaring.labelled condition inCondition)
        (selfTwins_statement reflexive body declaring inBody)
  | .functionDeclaration declaration, _, _, declaring, prepared => by
      obtain ⟨here, behind⟩ := AllPrepared.cons prepared
      have permitted := here.declared declaration.name rfl
      have declared := declaring.behind (List.forall_mem_singleton.mpr permitted)
      exact .functionDeclaration (declaring.declares permitted)
        (selfTwins_function reflexive declaration .function declared.labelled behind)
  | .returnValue line none, _, _, _, _ => .returnNothing (reflexive.lines line)
  | .returnValue line (some value), _, _, declaring, prepared =>
      .returnValue (reflexive.lines line)
        (selfTwins_expression reflexive declaring.labelled value (AllPrepared.cons prepared).2)
  | .classDeclaration name none methods, _, _, declaring, prepared => by
      obtain ⟨here, behind⟩ := AllPrepared.cons prepared
      have permitted := here.declared name rfl
      have declared := declaring.behind (List.forall_mem_singleton.mpr permitted)
      exact .baseClass rfl (declaring.declares permitted)
        (selfTwins_methods reflexive methods (.receiver declared.labelled) behind)
  | .classDeclaration name (some parent) methods, _, _, declaring, prepared => by
      obtain ⟨here, behind⟩ := AllPrepared.cons prepared
      obtain ⟨-, inRest⟩ := AllPrepared.cons behind
      obtain ⟨reads, inMethods⟩ := AllPrepared.cons inRest
      have permitted := here.declared name rfl
      have declared := declaring.behind (List.forall_mem_singleton.mpr permitted)
      exact .subclass rfl (declaring.declares permitted)
        (selfTwins_reference reflexive declared.labelled (reads.settled _ _ rfl))
        (reads.admits _ declared.labelled _ fun _ assigns => nomatch assigns)
        (selfTwins_methods reflexive methods (.receiver (.superclass declared.labelled))
          inMethods)

theorem selfTwins_statements
    (reflexive : pairing.Reflexive) :
    ∀ (body : List Stmt) {place : Place} {levels : List Label},
      Declaring pairing allowed place levels →
      AllPrepared pairing allowed (Stmt.sitesOfAll place body) →
      BodyTwins pairing levels body body
  | [], _, _, _, _ => .nil
  | first :: rest, _, _, declaring, prepared => by
      obtain ⟨inFirst, inRest⟩ := AllPrepared.append prepared
      exact .cons (selfTwins_statement reflexive first declaring inFirst)
        (selfTwins_statements reflexive rest
          (declaring.behind (permitted_statement first inFirst)) inRest)

/-- A function is its own twin. -/
theorem selfTwins_function
    (reflexive : pairing.Reflexive) :
    ∀ (declaration : FunctionDeclaration) (role : FunctionRole) {place : Place}
      {levels : List Label},
      Labelled pairing allowed place.scopes levels →
      AllPrepared pairing allowed (declaration.sites role place) →
      FunctionTwins pairing levels declaration declaration
  | .intro name parameters body, role, place, _, labelled, prepared => by
      obtain ⟨inParameters, inBody⟩ := AllPrepared.append prepared
      have permitted := permitted_parameters parameters inParameters
      have outside : Labelled pairing allowed (place.asFunction role).scopes _ := labelled
      have opened := Declaring.entering outside
      have named : List.Forall₂ (fun parameter parameter' =>
          (Label.only (allowed (place.scopes.length + 1))).renames parameter.text
            parameter'.text) parameters parameters :=
        List.forall₂_same.mpr fun parameter member => ⟨permitted parameter member, rfl⟩
      refine .intro rfl named ?_
      refine selfTwins_statements reflexive body (opened.behind fun text member => ?_) inBody
      obtain ⟨parameter, inList, rfl⟩ := List.mem_map.mp member
      exact permitted parameter inList

/-- Methods are their own twins. -/
theorem selfTwins_methods
    (reflexive : pairing.Reflexive) :
    ∀ (methods : List FunctionDeclaration) {place : Place} {levels : List Label},
      Labelled pairing allowed place.scopes levels →
      AllPrepared pairing allowed (FunctionDeclaration.sitesOfAll place methods) →
      MethodsTwins pairing levels methods methods
  | [], _, _, _, _ => .nil
  | first :: rest, _, _, labelled, prepared =>
      .cons (selfTwins_function reflexive first .method labelled (AllPrepared.append prepared).1)
        (selfTwins_methods reflexive rest labelled (AllPrepared.append prepared).2)

end

end Lox.Execution
