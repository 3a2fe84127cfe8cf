import Lox.Proofs.Scoping.Walk
import Lox.Proofs.Syntax.Copies

namespace Lox.Scoping

/-!
# Resolution of copies

The scope rules are about names and about what surrounds them, which copies of a program
have in common.  So resolution accepts both or stops both at one fault, and up to there it
settles their occurrences at the same depths.
-/

variable (matching : Matching)

/-- Occurrences that are settled alike. -/
structure SettlementCopies (left right : Settlement) : Prop where
  id : matching.ids left.id right.id
  name : left.name = right.name
  depth : left.depth = right.depth

/-- One fault at copies of a name or keyword. -/
structure ScopeErrorCopies (left right : ScopeError) : Prop where
  fault : left.fault = right.fault
  culprit : IdentifierCopies matching left.culprit right.culprit

/-- Deeds that are copies of each other. -/
inductive DeedCopies : Deed → Deed → Prop where
  | declares {name name'} :
      IdentifierCopies matching name name' →
      DeedCopies (.declares name) (.declares name')
  | reads {occurrence occurrence'} :
      ReferenceCopies matching occurrence occurrence' →
      DeedCopies (.reads occurrence) (.reads occurrence')
  | assigns {target target'} :
      ReferenceCopies matching target target' →
      DeedCopies (.assigns target) (.assigns target')
  | this {id id' line line'} :
      matching.ids id id' →
      matching.lines line line' →
      DeedCopies (.this id line) (.this id' line')
  | super {id id' line line'} :
      matching.ids id id' →
      matching.lines line line' →
      DeedCopies (.super id line) (.super id' line')
  | returns {line line'} :
      matching.lines line line' →
      DeedCopies (.returns line) (.returns line')
  | inherits {name name' parent parent'} :
      IdentifierCopies matching name name' →
      IdentifierCopies matching parent parent' →
      DeedCopies (.inherits name parent) (.inherits name' parent')

/-- Copies of a site, in one place. -/
structure SiteCopies (left right : Site) : Prop where
  place : left.place = right.place
  initializing : left.initializing = right.initializing
  deed : DeedCopies matching left.deed right.deed

variable {matching}

/-- Copies of an error are equal where all lines stand for themselves only. -/
theorem ScopeErrorCopies.eq
    (lines : matching.KeepsLines)
    {error error' : ScopeError}
    (copies : ScopeErrorCopies matching error error') :
    error = error' := by
  obtain ⟨fault, culprit⟩ := error
  obtain ⟨fault', culprit'⟩ := error'
  obtain rfl : fault = fault' := copies.fault
  obtain rfl : culprit = culprit' := copies.culprit.eq lines
  rfl

/-! ## Sites -/

namespace SiteCopies

/-- Copies of a site break one rule, or none. -/
theorem fault?
    {left right : Site}
    (copies : SiteCopies matching left right) :
    Option.Rel (ScopeErrorCopies matching) left.fault? right.fault? := by
  obtain ⟨place, initializing, deed⟩ := left
  obtain ⟨place', initializing', deed'⟩ := right
  obtain ⟨samePlace, sameInitializing, deeds⟩ := copies
  obtain rfl : place = place' := samePlace
  obtain rfl : initializing = initializing' := sameInitializing
  unfold Site.fault?
  cases deeds with
  | declares name =>
      dsimp only
      rw [name.text]
      split
      · exact .some ⟨rfl, name⟩
      · exact .none
  | reads occurrence =>
      dsimp only
      rw [occurrence.name.text]
      split
      · exact .some ⟨rfl, occurrence.name⟩
      · exact .none
  | assigns _ => exact .none
  | this _ line =>
      dsimp only
      split
      · exact .some ⟨rfl, rfl, line⟩
      · exact .none
  | super _ line =>
      dsimp only
      split
      · exact .some ⟨rfl, rfl, line⟩
      · exact .some ⟨rfl, rfl, line⟩
      · exact .none
  | returns line =>
      dsimp only
      split
      · exact .some ⟨rfl, rfl, line⟩
      · exact .none
  | inherits name parent =>
      dsimp only
      rw [name.text, parent.text]
      split
      · exact .some ⟨rfl, parent⟩
      · exact .none

/-- Occurrences at copies of a site are settled alike. -/
theorem settlement?
    {left right : Site}
    (copies : SiteCopies matching left right) :
    Option.Rel (SettlementCopies matching) left.settlement? right.settlement? := by
  obtain ⟨place, initializing, deed⟩ := left
  obtain ⟨place', initializing', deed'⟩ := right
  obtain ⟨samePlace, -, deeds⟩ := copies
  obtain rfl : place = place' := samePlace
  cases deeds with
  | declares _ => exact .none
  | reads occurrence =>
      exact .some ⟨occurrence.id, occurrence.name.text,
        congrArg place.depth? occurrence.name.text⟩
  | assigns target =>
      exact .some ⟨target.id, target.name.text, congrArg place.depth? target.name.text⟩
  | this id _ => exact .some ⟨id, rfl, rfl⟩
  | super id _ => exact .some ⟨id, rfl, rfl⟩
  | returns _ => exact .none
  | inherits _ _ => exact .none

end SiteCopies

/-- Copies of sites have copies of a first fault, or none. -/
theorem firstFault?_copies
    {sites sites' : List Site}
    (copies : List.Forall₂ (SiteCopies matching) sites sites') :
    Option.Rel (ScopeErrorCopies matching) (firstFault? sites) (firstFault? sites') := by
  induction copies with
  | nil => exact .none
  | @cons site site' rest rest' same _ inductionHypothesis =>
      have faults := same.fault?
      unfold firstFault? at inductionHypothesis ⊢
      rw [List.findSome?_cons, List.findSome?_cons]
      generalize site.fault? = fault at faults ⊢
      generalize site'.fault? = fault' at faults ⊢
      cases faults with
      | none => exact inductionHypothesis
      | some error => exact .some error

/-- Copies of sites have copies of settlements. -/
theorem settledAt_copies
    {sites sites' : List Site}
    (copies : List.Forall₂ (SiteCopies matching) sites sites') :
    List.Forall₂ (SettlementCopies matching) (settledAt sites) (settledAt sites') := by
  refine List.rel_filterMap (fun site site' same => SiteCopies.settlement? same) ?_
  induction copies with
  | nil => exact .nil
  | @cons site site' rest rest' same _ inductionHypothesis =>
      have faults := same.fault?
      rw [List.takeWhile_cons, List.takeWhile_cons]
      generalize site.fault? = fault at faults ⊢
      generalize site'.fault? = fault' at faults ⊢
      cases faults with
      | none => exact .cons same inductionHypothesis
      | some _ => exact .nil

end Lox.Scoping

namespace Lox

open Scoping

variable {matching : Matching}

/-! ## Sites of copies -/

mutual

/-- The sites of copies are copies, one by one. -/
theorem ExprCopies.sites :
    ∀ {value value' : Expr}, ExprCopies matching value value' →
      ∀ place initializing,
        List.Forall₂ (SiteCopies matching) (value.sites place initializing)
          (value'.sites place initializing)
  | .literal _, _, .literal, _, _ => .nil
  | .grouping _, _, .grouping inner, place, initializing => inner.sites place initializing
  | .unary _ _ _, _, .unary _ operand, place, initializing =>
      operand.sites place initializing
  | .binary _ _ _ _, _, .binary _ left right, place, initializing =>
      List.rel_append (left.sites place initializing) (right.sites place initializing)
  | .logical _ _ _, _, .logical left right, place, initializing =>
      List.rel_append (left.sites place initializing) (right.sites place initializing)
  | .reference _, _, .reference occurrence, _, _ =>
      .cons ⟨rfl, rfl, .reads occurrence⟩ .nil
  | .assign _ _, _, .assign target value, place, initializing =>
      List.rel_append (value.sites place initializing)
        (.cons ⟨rfl, rfl, .assigns target⟩ .nil)
  | .call _ _ _, _, .call callee arguments _, place, initializing =>
      List.rel_append (callee.sites place initializing)
        (ExprCopies.allSites arguments place initializing)
  | .property _ _, _, .property object _, place, initializing =>
      object.sites place initializing
  | .setProperty _ _ _, _, .setProperty object _ value, place, initializing =>
      List.rel_append (value.sites place initializing) (object.sites place initializing)
  | .this _ _, _, .this id line, _, _ => .cons ⟨rfl, rfl, .this id line⟩ .nil
  | .super _ _ _, _, .super id line _, _, _ => .cons ⟨rfl, rfl, .super id line⟩ .nil

/-- Copies of expressions have copies of sites. -/
theorem ExprCopies.allSites :
    ∀ {values values' : List Expr}, List.Forall₂ (ExprCopies matching) values values' →
      ∀ place initializing,
        List.Forall₂ (SiteCopies matching) (Expr.sitesOfAll place initializing values)
          (Expr.sitesOfAll place initializing values')
  | [], _, .nil, _, _ => .nil
  | _ :: _, _, .cons first rest, place, initializing =>
      List.rel_append (first.sites place initializing)
        (ExprCopies.allSites rest place initializing)

end

/-- Copies of an expression that may be left out have copies of sites. -/
theorem sitesOfOptional_copies
    {value value' : Option Expr}
    (copies : Option.Rel (ExprCopies matching) value value')
    (place : Place)
    (initializing : Option String) :
    List.Forall₂ (SiteCopies matching) (Expr.sitesOfOptional place initializing value)
      (Expr.sitesOfOptional place initializing value') := by
  cases copies with
  | none => exact .nil
  | some value => exact value.sites place initializing

/-- Copies of parameters have copies of sites. -/
theorem sitesOfParameters_copies
    {names names' : List Identifier}
    (copies : List.Forall₂ (IdentifierCopies matching) names names')
    (place : Place) :
    List.Forall₂ (SiteCopies matching) (sitesOfParameters place names)
      (sitesOfParameters place names') := by
  induction copies generalizing place with
  | nil => exact .nil
  | cons first _ inductionHypothesis =>
      unfold sitesOfParameters
      rw [first.text]
      exact .cons ⟨rfl, rfl, .declares first⟩ (inductionHypothesis _)

/-- Copies of a superclass have copies of sites. -/
theorem sitesOfSuperclass_copies
    {name name' : Identifier}
    (names : IdentifierCopies matching name name')
    {superclass superclass' : Option Reference}
    (copies : Option.Rel (ReferenceCopies matching) superclass superclass')
    (place : Place) :
    List.Forall₂ (SiteCopies matching) (sitesOfSuperclass place name superclass)
      (sitesOfSuperclass place name' superclass') := by
  cases copies with
  | none => exact .nil
  | some parent =>
      exact .cons ⟨rfl, rfl, .inherits names parent.name⟩
        (.cons ⟨rfl, rfl, .reads parent⟩ .nil)

/-- Copies of a superclass put the methods at the same place. -/
theorem ofMethods_copies
    {superclass superclass' : Option Reference}
    (copies : Option.Rel (ReferenceCopies matching) superclass superclass')
    (place : Place) :
    place.ofMethods superclass = place.ofMethods superclass' := by
  cases copies <;> rfl

/-- Copies of a statement declare the same names around them. -/
theorem StmtCopies.declared
    {statement statement' : Stmt}
    (copies : StmtCopies matching statement statement') :
    statement.declared = statement'.declared := by
  cases copies with
  | varDeclaration name _ => exact congrArg ([·]) name.text
  | branch _ consequent alternative =>
      cases alternative with
      | none => exact consequent.declared
      | some other => exact congrArg₂ (· ++ ·) consequent.declared other.declared
  | loop _ body => exact body.declared
  | functionDeclaration declaration => exact congrArg ([·]) declaration.name
  | classDeclaration name _ _ => exact congrArg ([·]) name.text
  | _ => rfl

mutual

/-- Copies of a statement have copies of sites. -/
theorem StmtCopies.sites :
    ∀ {statement statement' : Stmt}, StmtCopies matching statement statement' →
      ∀ place,
        List.Forall₂ (SiteCopies matching) (statement.sites place) (statement'.sites place)
  | .expression _, _, .expression value, place => value.sites place none
  | .print _, _, .print value, place => value.sites place none
  | .varDeclaration _ _, _, .varDeclaration name initializer, place => by
      unfold Stmt.sites
      rw [name.text]
      exact .cons ⟨rfl, rfl, .declares name⟩ (sitesOfOptional_copies initializer _ _)
  | .block _, _, .block body, place => StmtCopies.allSites body place.entering
  | .branch _ _ none, _, .branch condition consequent .none, place =>
      List.rel_append (condition.sites place none) (consequent.sites place)
  | .branch _ _ (some _), _, .branch condition consequent (.some alternative), place => by
      unfold Stmt.sites
      rw [consequent.declared]
      exact List.rel_append (condition.sites place none)
        (List.rel_append (consequent.sites place) (alternative.sites _))
  | .loop _ _, _, .loop condition body, place =>
      List.rel_append (condition.sites place none) (body.sites place)
  | .functionDeclaration (.intro _ _ _), _,
      .functionDeclaration (.intro name parameters body), place => by
      have functions := FunctionCopies.intro name parameters body
      unfold Stmt.sites
      rw [functions.name]
      exact .cons ⟨rfl, rfl, .declares name⟩ (functions.sites .function _)
  | .returnValue _ _, _, .returnValue line value, place =>
      .cons ⟨rfl, rfl, .returns line⟩ (sitesOfOptional_copies value place none)
  | .classDeclaration _ _ _, _, .classDeclaration name superclass methods, place => by
      unfold Stmt.sites
      rw [name.text, ofMethods_copies superclass]
      exact .cons ⟨rfl, rfl, .declares name⟩
        (List.rel_append (sitesOfSuperclass_copies name superclass _)
          (FunctionCopies.allSites methods _))

/-- Copies of statements have copies of sites. -/
theorem StmtCopies.allSites :
    ∀ {body body' : List Stmt}, List.Forall₂ (StmtCopies matching) body body' →
      ∀ place,
        List.Forall₂ (SiteCopies matching) (Stmt.sitesOfAll place body)
          (Stmt.sitesOfAll place body')
  | [], _, .nil, _ => .nil
  | _ :: _, _, .cons first rest, place => by
      unfold Stmt.sitesOfAll
      rw [first.declared]
      exact List.rel_append (first.sites place) (StmtCopies.allSites rest _)

/-- Copies of a function have copies of sites. -/
theorem FunctionCopies.sites :
    ∀ {declaration declaration' : FunctionDeclaration},
      FunctionCopies matching declaration declaration' →
        ∀ role place,
          List.Forall₂ (SiteCopies matching) (declaration.sites role place)
            (declaration'.sites role place)
  | .intro _ _ _, _, .intro name parameters body, role, place => by
      have names := (FunctionCopies.intro name parameters body).parameterNames
      unfold FunctionDeclaration.sites
      dsimp only [FunctionDeclaration.parameters] at names ⊢
      rw [names]
      exact List.rel_append (sitesOfParameters_copies parameters _)
        (StmtCopies.allSites body _)

/-- Copies of methods have copies of sites. -/
theorem FunctionCopies.allSites :
    ∀ {methods methods' : List FunctionDeclaration},
      List.Forall₂ (FunctionCopies matching) methods methods' →
        ∀ place,
          List.Forall₂ (SiteCopies matching) (FunctionDeclaration.sitesOfAll place methods)
            (FunctionDeclaration.sitesOfAll place methods')
  | [], _, .nil, _ => .nil
  | _ :: _, _, .cons first rest, place =>
      List.rel_append (first.sites .method place) (FunctionCopies.allSites rest place)

end

/-! ## Programs -/

namespace Scoping

/-- Verdicts that accept both, or that report one fault at copies of a name. -/
inductive VerdictCopies (matching : Matching) :
    Except ScopeError Unit → Except ScopeError Unit → Prop where
  | accepted : VerdictCopies matching (.ok ()) (.ok ())
  | rejected {error error'} :
      ScopeErrorCopies matching error error' →
      VerdictCopies matching (.error error) (.error error')

/-- Copies of a program are settled alike, and both are accepted or neither is. -/
theorem resolve_copies
    {program program' : List Stmt}
    (copies : List.Forall₂ (StmtCopies matching) program program') :
    List.Forall₂ (SettlementCopies matching) (resolve program).settled
        (resolve program').settled ∧
      VerdictCopies matching (resolve program).verdict (resolve program').verdict := by
  have sites := StmtCopies.allSites copies .outermost
  rw [(resolve_eq program).1, (resolve_eq program').1, (resolve_eq program).2,
    (resolve_eq program').2]
  refine ⟨settledAt_copies sites, ?_⟩
  have faults := firstFault?_copies sites
  unfold programSites
  generalize firstFault? (Stmt.sitesOfAll .outermost program) = fault at faults ⊢
  generalize firstFault? (Stmt.sitesOfAll .outermost program') = fault' at faults ⊢
  cases faults with
  | none => exact .accepted
  | some error => exact .rejected error

end Scoping

end Lox
