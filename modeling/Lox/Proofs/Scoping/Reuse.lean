import Lox.Proofs.Computation
import Lox.Scoping.Resolution

namespace Lox.Scoping

/-!
# Using a resolver again

Scopes, functions and classes are left at the end of their parts of a program, also
when resolution stops in the middle of them.  The one exit that forgets this is that of a
class whose name is already taken: it keeps the class in force, and then a later program
may use `this` where no class is.  Behind any other outcome, also behind other names that
are declared again, a resolver is as good as new.
-/

/-! ## Walks that only settle -/

/-- Everything but what has been settled is the same. -/
structure SamePoint (before after : Resolver) : Prop where
  scopes : after.scopes = before.scopes
  functionRole : after.functionRole = before.functionRole
  classRole : after.classRole = before.classRole

/-- An action that changes nothing but what has been settled, however it ends. -/
def OnlySettles (action : Resolving Unit) : Prop :=
  ∀ resolver, SamePoint resolver (endState (action resolver))

theorem SamePoint.refl (resolver : Resolver) : SamePoint resolver resolver :=
  ⟨rfl, rfl, rfl⟩

/-- Walks that only settle may be put in a row. -/
theorem SamePoint.trans
    {before middle after : Resolver}
    (first : SamePoint before middle)
    (second : SamePoint middle after) :
    SamePoint before after :=
  ⟨second.scopes.trans first.scopes, second.functionRole.trans first.functionRole,
    second.classRole.trans first.classRole⟩

namespace OnlySettles

theorem pure : OnlySettles (pure ()) :=
  fun resolver => .refl resolver

/-- A fault leaves the resolver where it was. -/
theorem fail (fault : ScopeFault) (culprit : Identifier) :
    OnlySettles (fail fault culprit) :=
  fun resolver => .refl resolver

/-- An occurrence that is settled leaves all but the settlements as they were. -/
theorem settle (id : NodeId) (name : String) : OnlySettles (settle id name) :=
  fun _ => ⟨rfl, rfl, rfl⟩

/-- Walks in a row only settle if both of them do. -/
theorem bind
    {first second : Resolving Unit}
    (head : OnlySettles first)
    (tail : OnlySettles second) :
    OnlySettles (first >>= fun _ => second) := by
  intro resolver
  have begun := head resolver
  rw [bind_apply]
  cases given : first resolver with
  | error error middle =>
      rw [given] at begun
      exact begun
  | ok value middle =>
      rw [given] at begun
      exact begun.trans (tail middle)

/-- The resolver may be looked at. -/
theorem get
    {next : Resolver → Resolving Unit}
    (settles : ∀ resolver, OnlySettles (next resolver)) :
    OnlySettles (get >>= next) :=
  fun resolver => settles resolver resolver

end OnlySettles

/-- A variable is settled, or found at fault, and nothing else is changed. -/
theorem resolveReference_settles (occurrence : Reference) :
    OnlySettles (resolveReference occurrence) := by
  refine .get fun resolver => ?_
  split
  · exact .bind (.fail _ _) (.settle _ _)
  · exact .settle _ _

/-- The receiver is settled, or found at fault, and nothing else is changed. -/
theorem resolveThis_settles (id : NodeId) (line : Nat) :
    OnlySettles (resolveThis id line) := by
  refine .get fun resolver => ?_
  cases resolver.classRole with
  | none => exact .fail _ _
  | some role => exact .settle _ _

/-- An access to a superclass is settled, or found at fault, and nothing else is changed. -/
theorem resolveSuper_settles (id : NodeId) (line : Nat) :
    OnlySettles (resolveSuper id line) := by
  refine .get fun resolver => ?_
  cases resolver.classRole with
  | none => exact .fail _ _
  | some role =>
      cases role with
      | base => exact .fail _ _
      | subclass => exact .settle _ _

mutual

/-- Resolving an expression changes nothing but what has been settled. -/
theorem resolveExpr_settles : ∀ value : Expr, OnlySettles (resolveExpr value)
  | .literal _ => .pure
  | .grouping inner => resolveExpr_settles inner
  | .unary _ _ operand => resolveExpr_settles operand
  | .binary _ _ left right => (resolveExpr_settles left).bind (resolveExpr_settles right)
  | .logical _ left right => (resolveExpr_settles left).bind (resolveExpr_settles right)
  | .reference occurrence => resolveReference_settles occurrence
  | .assign target value =>
      (resolveExpr_settles value).bind (.settle target.id target.name.text)
  | .call callee arguments _ =>
      (resolveExpr_settles callee).bind (resolveExprs_settles arguments)
  | .property object _ => resolveExpr_settles object
  | .setProperty object _ value =>
      (resolveExpr_settles value).bind (resolveExpr_settles object)
  | .this id line => resolveThis_settles id line
  | .super id line _ => resolveSuper_settles id line

/-- Expressions in a row are only settled. -/
theorem resolveExprs_settles : ∀ values : List Expr, OnlySettles (resolveExprs values)
  | [] => .pure
  | first :: rest => (resolveExpr_settles first).bind (resolveExprs_settles rest)

end

/-- An expression that may be left out is only settled. -/
theorem resolveOptional_settles (value : Option Expr) :
    OnlySettles (resolveOptional value) := by
  cases value with
  | none => exact .pure
  | some expression => exact resolveExpr_settles expression

/-! ## Walks that recover -/

/-- No name of the innermost scope is still being initialized. -/
def Resolver.Tidy (resolver : Resolver) : Prop :=
  ∀ scope ∈ resolver.scopes.head?, ∀ name, scope.get? name ≠ some .declared

/-- No name of the innermost scope but one is still being initialized. -/
def Resolver.TidyBut (name : String) (resolver : Resolver) : Prop :=
  ∀ scope ∈ resolver.scopes.head?, ∀ other, other ≠ name →
    scope.get? other ≠ some .declared

/-- The innermost scope may have got more names, but nothing around it has changed. -/
structure SameAround (before after : Resolver) : Prop where
  count : after.scopes.length = before.scopes.length
  outer : after.scopes.tail = before.scopes.tail
  functionRole : after.functionRole = before.functionRole

/-- A class whose name is taken is left with its role still in force. -/
def KeepsClass (error : ScopeError) (after : Resolver) : Prop :=
  error.fault = .redeclaration ∧ after.classRole = some .base

/--
From some state, a walk ends where it began, unless it stops at a class whose name is taken;
then the class stays in force.
-/
def RecoversFrom (before : Resolver) (stops : Prop) (action : Resolving Unit) : Prop :=
  match action before with
  | .ok _ after =>
      ¬ stops ∧ SameAround before after ∧ after.Tidy ∧ after.classRole = before.classRole
  | .error error after =>
      SameAround before after ∧
        (¬ stops ∧ after.classRole = before.classRole ∨ stops ∧ KeepsClass error after)

/-- A walk that recovers wherever it begins, but for where it stops at a class. -/
def Recovers (stops : Resolver → Prop) (action : Resolving Unit) : Prop :=
  ∀ before : Resolver, before.Tidy → RecoversFrom before (stops before) action

/-- A walk that does not stop at any class. -/
def never : Resolver → Prop :=
  fun _ => False

/-- A walk stops somewhere behind another one, which has come to its end. -/
def StopsBehind (first : Resolving Unit) (stops : Resolver → Prop) (before : Resolver) : Prop :=
  ∃ middle, first before = .ok () middle ∧ stops middle

/-- The innermost scope has a name already. -/
def Resolver.Has (resolver : Resolver) (name : String) : Prop :=
  resolver.scopes.head?.any (·.contains name) = true

/-- The start of a new innermost scope. -/
def Resolver.entering (resolver : Resolver) : Resolver :=
  { resolver with scopes := Bindings.empty :: resolver.scopes }

/-- A new scope has no names yet that could still be initialized. -/
theorem Resolver.tidy_entering (resolver : Resolver) : resolver.entering.Tidy := by
  intro scope innermost name
  obtain rfl : Bindings.empty = scope := Option.some.inj innermost
  simp

/-- The start of a function. -/
def Resolver.asFunction (resolver : Resolver) (role : FunctionRole) : Resolver :=
  { resolver with functionRole := some role }

mutual

/--
The walk over a statement stops at a class whose name the scope around it has already.
Inside of another class this is no such stop, as that class is left in the right way.
-/
def StopsAtClass : Stmt → Resolver → Prop
  | .block body, before => AnyStopsAtClass body before.entering
  | .branch condition consequent none, before =>
      StopsBehind (resolveExpr condition) (StopsAtClass consequent) before
  | .branch condition consequent (some alternative), before =>
      StopsBehind (resolveExpr condition)
        (fun middle =>
          StopsAtClass consequent middle ∨
            StopsBehind (resolveStmt consequent) (StopsAtClass alternative) middle)
        before
  | .loop condition body, before => StopsBehind (resolveExpr condition) (StopsAtClass body) before
  | .functionDeclaration declaration, before =>
      StopsBehind (introduce declaration.name) (FunctionStopsAtClass declaration .function) before
  | .classDeclaration name _ _, before => before.Has name.text
  | _, _ => False

/-- The walk over statements stops at a class whose name is taken. -/
def AnyStopsAtClass : List Stmt → Resolver → Prop
  | [], _ => False
  | first :: rest, before =>
      StopsAtClass first before ∨ StopsBehind (resolveStmt first) (AnyStopsAtClass rest) before

/-- The walk over a function stops in its body at a class whose name is taken. -/
def FunctionStopsAtClass : FunctionDeclaration → FunctionRole → Resolver → Prop
  | .intro _ parameters body, role, before =>
      StopsBehind (introduceAll parameters) (AnyStopsAtClass body) (before.asFunction role).entering

end

/-- A walk that leaves a class at every exit, and with it sets what class is in force. -/
def Leaves (before : Resolver) (outer : Option ClassRole) (action : Resolving Unit) : Prop :=
  match action before with
  | .ok _ after => SameAround before after ∧ after.Tidy ∧ after.classRole = outer
  | .error _ after => SameAround before after ∧ after.classRole = outer

section

variable {before middle after : Resolver}

theorem SameAround.refl (resolver : Resolver) : SameAround resolver resolver :=
  ⟨rfl, rfl, rfl⟩

/-- What is the same around two walks is the same around both in a row. -/
theorem SameAround.trans
    (first : SameAround before middle)
    (second : SameAround middle after) :
    SameAround before after :=
  ⟨second.count.trans first.count, second.outer.trans first.outer,
    second.functionRole.trans first.functionRole⟩

theorem SamePoint.around (same : SamePoint before after) : SameAround before after :=
  ⟨by rw [same.scopes], by rw [same.scopes], same.functionRole⟩

/-- Where the scopes are the same, none of them is left in the middle of an initializer. -/
theorem SamePoint.tidy (same : SamePoint before after) (tidy : before.Tidy) : after.Tidy := by
  unfold Resolver.Tidy
  rwa [same.scopes]

/-- Where the scopes are the same, the same name is the only one in its initializer. -/
theorem SamePoint.tidyBut
    {name : String}
    (same : SamePoint before after)
    (tidy : before.TidyBut name) :
    after.TidyBut name := by
  unfold Resolver.TidyBut
  rwa [same.scopes]

end

namespace Recovers

variable {stops stopsLater : Resolver → Prop} {first second action : Resolving Unit}

theorem pure : Recovers never (pure ()) :=
  fun before tidy => ⟨not_false, .refl before, tidy, rfl⟩

/-- What only settles ends where it began, whether it fails or not. -/
theorem of_settles (settles : OnlySettles action) : Recovers never action := by
  intro before tidy
  have same := settles before
  unfold RecoversFrom
  cases given : action before with
  | ok value after =>
      rw [given] at same
      exact ⟨not_false, same.around, same.tidy tidy, same.classRole⟩
  | error error after =>
      rw [given] at same
      exact ⟨same.around, .inl ⟨not_false, same.classRole⟩⟩

/-- What stops a walk may be said in another way. -/
theorem congr
    (recovers : Recovers stops action)
    (same : ∀ before, stopsLater before ↔ stops before) :
    Recovers stopsLater action := by
  intro before tidy
  rw [same before]
  exact recovers before tidy

/-- Walks in a row stop in the first one, or behind it in the second one. -/
theorem bind
    (head : Recovers stops first)
    (tail : Recovers stopsLater second) :
    Recovers (fun before => stops before ∨ StopsBehind first stopsLater before)
      (first >>= fun _ => second) := by
  intro before tidy
  change RecoversFrom before (stops before ∨ StopsBehind first stopsLater before) _
  have begun := head before tidy
  unfold RecoversFrom at begun
  cases given : first before with
  | error error middle =>
      rw [given] at begun
      have notBehind : ¬ StopsBehind first stopsLater before := by
        rintro ⟨other, isOther, -⟩
        cases given.symm.trans isOther
      rw [or_iff_left notBehind]
      unfold RecoversFrom
      rw [bind_apply, given]
      exact begun
  | ok value middle =>
      rw [given] at begun
      obtain ⟨notFirst, around, stillTidy, role⟩ := begun
      have isBehind : StopsBehind first stopsLater before ↔ stopsLater middle := by
        constructor
        · rintro ⟨other, isOther, later⟩
          obtain ⟨-, rfl⟩ := EStateM.Result.ok.inj (given.symm.trans isOther)
          exact later
        · exact fun later => ⟨middle, given, later⟩
      have ended := tail middle stillTidy
      rw [or_iff_right notFirst, isBehind]
      unfold RecoversFrom at ended ⊢
      rw [bind_of_ok given]
      cases result : second middle with
      | ok value after =>
          rw [result] at ended
          obtain ⟨notLater, further, finallyTidy, sameRole⟩ := ended
          exact ⟨notLater, around.trans further, finallyTidy, sameRole.trans role⟩
      | error error after =>
          rw [result, role] at ended
          exact ⟨around.trans ended.1, ended.2⟩

/-- Behind a walk that stops at no class, only the next one may do so. -/
theorem behind
    (head : Recovers never first)
    (tail : Recovers stops second) :
    Recovers (StopsBehind first stops) (first >>= fun _ => second) :=
  (head.bind tail).congr fun _ => (iff_of_eq (false_or _)).symm

/-- A new scope is tidy, and the scopes around it come back as they were. -/
theorem inScope (recovers : Recovers stops action) :
    Recovers (fun before => stops before.entering) (inScope action) := by
  intro before tidy
  have inside := recovers before.entering before.tidy_entering
  unfold RecoversFrom at inside ⊢
  unfold Scoping.inScope
  unfold Resolver.entering at inside ⊢
  cases given : action { before with scopes := Bindings.empty :: before.scopes } with
  | ok value after =>
      rw [given] at inside
      exact ⟨inside.1, ⟨rfl, rfl, inside.2.1.functionRole⟩, tidy, inside.2.2.2⟩
  | error error after =>
      rw [given] at inside
      exact ⟨⟨rfl, rfl, inside.1.functionRole⟩, inside.2⟩

/-- A walk through a body comes back to the function around it. -/
theorem inFunction (recovers : Recovers stops action) (role : FunctionRole) :
    Recovers (fun before => stops (before.asFunction role)) (inFunction role action) := by
  intro before tidy
  have inside := recovers (before.asFunction role) tidy
  unfold RecoversFrom at inside ⊢
  unfold Scoping.inFunction
  unfold Resolver.asFunction at inside ⊢
  cases given : action { before with functionRole := some role } with
  | ok value after =>
      rw [given] at inside
      exact ⟨inside.1, ⟨inside.2.1.count, inside.2.1.outer, rfl⟩, inside.2.2⟩
  | error error after =>
      rw [given] at inside
      exact ⟨⟨inside.1.count, inside.1.outer, rfl⟩, inside.2⟩

/-- Behind a class, the role of the one around it is in force, however it is left. -/
theorem leavingClass
    (recovers : Recovers stops action)
    {before : Resolver}
    (tidy : before.Tidy)
    (outer : Option ClassRole) :
    Leaves before outer (leavingClass outer action) := by
  have inside := recovers before tidy
  unfold RecoversFrom at inside
  unfold Leaves Scoping.leavingClass
  cases given : action before with
  | ok value after =>
      rw [given] at inside
      obtain ⟨-, around, stillTidy, -⟩ := inside
      exact ⟨⟨around.count, around.outer, around.functionRole⟩, stillTidy, rfl⟩
  | error error after =>
      rw [given] at inside
      exact ⟨⟨inside.1.count, inside.1.outer, inside.1.functionRole⟩, rfl⟩

end Recovers

/-! ## Names -/

/-- A name is declared, unless it is taken. -/
theorem declare_cases (name : Identifier) (before : Resolver) :
    before.Has name.text ∧ declare name before = .error ⟨.redeclaration, name⟩ before ∨
      ¬ before.Has name.text ∧ ∃ after,
        declare name before = .ok () after ∧ SameAround before after ∧
          (before.Tidy → after.TidyBut name.text) ∧ after.classRole = before.classRole := by
  unfold declare Resolver.Has
  rw [bind_of_ok (get_apply before)]
  cases shape : before.scopes with
  | nil =>
      refine .inr ⟨by simp, before, rfl, .refl before, fun _ scope innermost => ?_, rfl⟩
      simp [shape] at innermost
  | cons scope outer =>
      dsimp only [List.head?_cons, Option.any_some]
      split
      next taken => exact .inl ⟨taken, rfl⟩
      next free =>
        unfold record
        rw [modify_apply, shape]
        refine .inr ⟨free, _, rfl, ⟨by simp [shape], by simp [shape], rfl⟩, ?_, rfl⟩
        intro tidy other innermost found different
        obtain rfl : scope.insert name.text .declared = other := Option.some.inj innermost
        rw [Bindings.get?_insert_of_ne _ (Ne.symm different)]
        exact tidy scope (by simp [shape]) found

/-- A name that becomes readable leaves its scope tidy if no other was in the way. -/
theorem define_apply (name : String) (before : Resolver) :
    ∃ after,
      define name before = .ok () after ∧ SameAround before after ∧
        (before.TidyBut name → after.Tidy) ∧ after.classRole = before.classRole := by
  unfold define record
  rw [modify_apply]
  cases shape : before.scopes with
  | nil =>
      refine ⟨before, rfl, .refl before, fun _ scope innermost => ?_, rfl⟩
      simp [shape] at innermost
  | cons scope outer =>
      refine ⟨_, rfl, ⟨by simp [shape], by simp [shape], rfl⟩, ?_, rfl⟩
      intro tidy other innermost found
      obtain rfl : scope.insert name .defined = other := Option.some.inj innermost
      by_cases same : name = found
      · subst same
        simp
      · rw [Bindings.get?_insert_of_ne _ same]
        exact tidy scope (by simp [shape]) found (Ne.symm same)

/-- A name is defined without a fault. -/
theorem define_recovers (name : String) : Recovers never (define name) := by
  intro before tidy
  obtain ⟨after, given, around, stillTidy, role⟩ := define_apply name before
  unfold RecoversFrom
  rw [given]
  have tidied := stillTidy fun scope innermost other _ => tidy scope innermost other
  exact ⟨not_false, around, tidied, role⟩

/-- A variable is declared before its initializer, and readable behind it. -/
theorem declared_recovers
    (name : Identifier)
    {initializer : Resolving Unit}
    (settles : OnlySettles initializer) :
    Recovers never (do
      declare name
      initializer
      define name.text) := by
  intro before tidy
  unfold RecoversFrom
  rcases declare_cases name before with
    ⟨-, taken⟩ | ⟨-, middle, given, around, butOne, role⟩
  · rw [bind_apply, taken]
    exact ⟨.refl before, .inl ⟨not_false, rfl⟩⟩
  · rw [bind_of_ok given, bind_apply]
    have same := settles middle
    cases result : initializer middle with
    | error error later =>
        rw [result] at same
        exact ⟨around.trans same.around, .inl ⟨not_false, same.classRole.trans role⟩⟩
    | ok value later =>
        rw [result] at same
        obtain ⟨after, defined, further, tidied, sameRole⟩ := define_apply name.text later
        dsimp only
        rw [defined]
        have allAround := (around.trans same.around).trans further
        have sameClass := sameRole.trans (same.classRole.trans role)
        exact ⟨not_false, allAround, tidied (same.tidyBut (butOne tidy)), sameClass⟩

/-- A name is introduced, unless it is taken. -/
theorem introduce_cases (name : Identifier) (before : Resolver) :
    before.Has name.text ∧ introduce name before = .error ⟨.redeclaration, name⟩ before ∨
      ¬ before.Has name.text ∧ ∃ after,
        introduce name before = .ok () after ∧ SameAround before after ∧
          (before.Tidy → after.Tidy) ∧ after.classRole = before.classRole := by
  unfold introduce
  rcases declare_cases name before with
    ⟨has, taken⟩ | ⟨free, middle, given, around, butOne, role⟩
  · exact .inl ⟨has, by rw [bind_apply, taken]⟩
  · obtain ⟨after, defined, further, tidied, sameRole⟩ := define_apply name.text middle
    refine .inr ⟨free, after, ?_, around.trans further, fun tidy => tidied (butOne tidy), ?_⟩
    · rw [bind_of_ok given, defined]
    · exact sameRole.trans role

/-- A name that is taken is no class by itself, so the walk that introduces it recovers. -/
theorem introduce_recovers (name : Identifier) : Recovers never (introduce name) := by
  intro before tidy
  unfold RecoversFrom
  rcases introduce_cases name before with
    ⟨-, taken⟩ | ⟨-, after, given, around, stillTidy, role⟩
  · rw [taken]
    exact ⟨.refl before, .inl ⟨not_false, rfl⟩⟩
  · rw [given]
    exact ⟨not_false, around, stillTidy tidy, role⟩

/-- Names that are introduced in a row stop no walk for good. -/
theorem introduceAll_recovers (names : List Identifier) : Recovers never (introduceAll names) := by
  induction names with
  | nil => exact .pure
  | cons name rest inductionHypothesis =>
      exact (introduce_recovers name).behind inductionHypothesis |>.congr fun _ =>
        ⟨False.elim, fun ⟨_, _, impossible⟩ => impossible⟩

/-! ## Classes -/

/-- A superclass is looked up in a tidy scope, so that it can be read. -/
theorem resolveReference_of_tidy
    {before : Resolver}
    (tidy : before.Tidy)
    (occurrence : Reference) :
    resolveReference occurrence before =
      settle occurrence.id occurrence.name.text before := by
  unfold resolveReference
  rw [bind_of_ok (get_apply before)]
  have readable :
      before.scopes.head?.any (·.get? occurrence.name.text = some .declared) = false := by
    cases innermost : before.scopes.head? with
    | none => rfl
    | some scope => simpa using tidy scope innermost occurrence.name.text
  simp only [readable]
  rfl

/-- What leaves a class may come after something that stays around the same point. -/
theorem Leaves.after
    {before middle : Resolver}
    {outer : Option ClassRole}
    {first rest : Resolving Unit}
    (given : first before = .ok () middle)
    (around : SameAround before middle)
    (leaves : Leaves middle outer rest) :
    Leaves before outer (first >>= fun _ => rest) := by
  unfold Leaves at leaves ⊢
  rw [bind_of_ok given]
  cases result : rest middle with
  | ok value after =>
      rw [result] at leaves
      exact ⟨around.trans leaves.1, leaves.2⟩
  | error error after =>
      rw [result] at leaves
      exact ⟨around.trans leaves.1, leaves.2⟩

/-- What comes back to the class around it at every exit recovers, and nothing stops it. -/
theorem Leaves.recovers
    {before : Resolver}
    {action : Resolving Unit}
    (leaves : Leaves before before.classRole action)
    {stops : Prop}
    (goesOn : ¬ stops) :
    RecoversFrom before stops action := by
  unfold Leaves at leaves
  unfold RecoversFrom
  cases given : action before with
  | ok value after =>
      rw [given] at leaves
      exact ⟨goesOn, leaves⟩
  | error error after =>
      rw [given] at leaves
      exact ⟨leaves.1, .inl ⟨goesOn, leaves.2⟩⟩

/-- Behind its name, a class with a superclass is left at every exit. -/
theorem subclass_leaves
    (name : Identifier)
    (parent : Reference)
    {body : Resolving Unit}
    {stops : Resolver → Prop}
    (recovers : Recovers stops body)
    {before : Resolver}
    (tidy : before.Tidy)
    (outer : Option ClassRole) :
    Leaves before outer (do
      if parent.name.text = name.text then
        leavingClass outer (fail .selfInheritance parent.name)
      setClassRole (some .subclass)
      resolveReference parent
      leavingClass outer body) := by
  by_cases same : parent.name.text = name.text
  · simp only [same, ↓reduceIte]
    exact ⟨⟨rfl, rfl, rfl⟩, rfl⟩
  · simp only [same, ↓reduceIte]
    have entered : Resolver.Tidy { before with classRole := some .subclass } := tidy
    refine Leaves.after (modify_apply _ before) ⟨rfl, rfl, rfl⟩ ?_
    refine Leaves.after (resolveReference_of_tidy entered parent) ⟨rfl, rfl, rfl⟩ ?_
    refine recovers.leavingClass ?_ outer
    exact tidy

/-- A class is left at its end, and at every error in it but that its name is taken. -/
theorem resolveClass_recovers
    (name : Identifier)
    (superclass : Option Reference)
    {methods : Resolving Unit}
    {stops : Resolver → Prop}
    (recovers : Recovers stops methods) :
    Recovers (fun before => before.Has name.text) (resolveClass name superclass methods) := by
  intro before tidy
  let entered : Resolver := { before with classRole := some .base }
  have isEntered : setClassRole (some .base) before = .ok () entered := rfl
  have body := ((define_recovers receiverName).behind recovers).inScope
  change RecoversFrom before _
    (setClassRole (some .base) >>= fun _ => introduce name >>= fun _ => _)
  -- Only where the name is taken is the class left without going back to the one around it.
  rcases introduce_cases name entered with
    ⟨has, taken⟩ | ⟨free, middle, given, around, stillTidy, -⟩
  · unfold RecoversFrom
    rw [bind_of_ok isEntered, bind_apply, taken]
    exact ⟨⟨rfl, rfl, rfl⟩, .inr ⟨has, rfl, rfl⟩⟩
  · refine Leaves.recovers (.after isEntered ⟨rfl, rfl, rfl⟩ (.after given around ?_)) free
    cases superclass with
    | none => exact body.leavingClass (stillTidy tidy) before.classRole
    | some parent =>
        have inherited := ((define_recovers superclassName).behind body).inScope
        exact subclass_leaves name parent inherited (stillTidy tidy) before.classRole

/-! ## Statements -/

/-- A return is only checked against the function around it. -/
theorem resolveReturn_settles (line : Nat) (value : Option Expr) :
    OnlySettles (resolveStmt (.returnValue line value)) := by
  rw [resolveStmt]
  refine .get fun resolver => ?_
  split
  · exact .bind (.fail _ _) (resolveOptional_settles value)
  · exact resolveOptional_settles value

/-- An expression is resolved before statements, which then recover as they do alone. -/
theorem Recovers.behind_expression
    {stops : Resolver → Prop}
    {rest : Resolving Unit}
    (recovers : Recovers stops rest)
    (condition : Expr) :
    Recovers (StopsBehind (resolveExpr condition) stops)
      (resolveExpr condition >>= fun _ => rest) :=
  (Recovers.of_settles (resolveExpr_settles condition)).behind recovers

mutual

/-- Every statement recovers, unless it stops at a class whose name is taken. -/
theorem resolveStmt_recovers :
    ∀ statement : Stmt, Recovers (StopsAtClass statement) (resolveStmt statement)
  | .expression value => .of_settles (resolveExpr_settles value)
  | .print value => .of_settles (resolveExpr_settles value)
  | .varDeclaration name initializer =>
      declared_recovers name (resolveOptional_settles initializer)
  | .block body => (resolveStmts_recovers body).inScope
  | .branch condition consequent none =>
      (resolveStmt_recovers consequent).behind_expression condition
  | .branch condition consequent (some alternative) =>
      ((resolveStmt_recovers consequent).bind
        (resolveStmt_recovers alternative)).behind_expression condition
  | .loop condition body => (resolveStmt_recovers body).behind_expression condition
  | .functionDeclaration declaration =>
      (introduce_recovers declaration.name).behind
        (resolveFunction_recovers declaration .function)
  | .returnValue line value => .of_settles (resolveReturn_settles line value)
  | .classDeclaration name superclass methods => by
      obtain ⟨stops, recovers⟩ := resolveMethods_recovers methods
      exact resolveClass_recovers name superclass recovers

/-- Statements in a row recover unless one of them stops at a class. -/
theorem resolveStmts_recovers :
    ∀ body : List Stmt, Recovers (AnyStopsAtClass body) (resolveStmts body)
  | [] => .pure
  | first :: rest => (resolveStmt_recovers first).bind (resolveStmts_recovers rest)

/-- A function recovers unless its body stops at a class. -/
theorem resolveFunction_recovers :
    ∀ (declaration : FunctionDeclaration) (role : FunctionRole),
      Recovers (FunctionStopsAtClass declaration role) (resolveFunction role declaration)
  | .intro _ parameters body, role =>
      (((introduceAll_recovers parameters).behind
        (resolveStmts_recovers body)).inScope).inFunction role

/-- Wherever methods stop, the class around them is left. -/
theorem resolveMethods_recovers :
    ∀ methods : List FunctionDeclaration, ∃ stops, Recovers stops (resolveMethods methods)
  | [] => ⟨never, .pure⟩
  | first :: rest => by
      obtain ⟨stops, recovers⟩ := resolveMethods_recovers rest
      exact ⟨_, (resolveFunction_recovers first .method).bind recovers⟩

end

/-! ## Programs -/

/-- A program that is rejected because it declares a name again. -/
def Resolution.Redeclares (resolution : Resolution) : Prop :=
  ∃ error, resolution.verdict = .error error ∧ error.fault = .redeclaration

/-- A resolver stops in a program at a class whose name is taken. -/
def Resolver.StopsAtClassOf (resolver : Resolver) (program : List Stmt) : Prop :=
  AnyStopsAtClass program { resolver with settled := [] }

/--
What a program does to a resolver between programs: it is outside of all scopes and of all
functions of the program again, and of all its classes, unless the program is rejected at
the name of a class that is taken; in this class the resolver stays.
-/
structure LeftBehind (resolver : Resolver) (program : List Stmt) : Prop where
  scopes : (resolver.resolve program).2.scopes = []
  functionRole : (resolver.resolve program).2.functionRole = resolver.functionRole
  classRole :
    ¬ resolver.StopsAtClassOf program →
      (resolver.resolve program).2.classRole = resolver.classRole
  kept :
    resolver.StopsAtClassOf program →
      (resolver.resolve program).1.Redeclares ∧
        (resolver.resolve program).2.classRole = some .base

/-- Every program leaves a resolver between programs as it should, but for a taken class. -/
theorem resolve_recovers
    {resolver : Resolver}
    (outermost : resolver.scopes = [])
    (program : List Stmt) :
    LeftBehind resolver program := by
  have tidy : Resolver.Tidy { resolver with settled := [] } := by
    intro scope innermost
    simp [outermost] at innermost
  have empty : ∀ {after : Resolver},
      SameAround { resolver with settled := [] } after → after.scopes = [] := by
    intro after around
    exact List.length_eq_zero_iff.mp (around.count.trans (by rw [outermost]; rfl))
  have recovers := resolveStmts_recovers program { resolver with settled := [] } tidy
  unfold RecoversFrom at recovers
  cases given : resolveStmts program { resolver with settled := [] } with
  | ok value after =>
      rw [given] at recovers
      obtain ⟨goesOn, around, -, role⟩ := recovers
      have isEmpty := empty around
      have resolved : resolver.resolve program =
          (⟨after.settled.reverse, .ok ()⟩, { after with settled := [] }) := by
        unfold Resolver.resolve
        rw [given]
      constructor <;> rw [resolved]
      · exact isEmpty
      · exact around.functionRole
      · exact fun _ => role
      · exact fun stops => absurd stops goesOn
  | error error after =>
      rw [given] at recovers
      obtain ⟨around, left⟩ := recovers
      have isEmpty := empty around
      have resolved : resolver.resolve program =
          (⟨after.settled.reverse, .error error⟩, { after with settled := [] }) := by
        unfold Resolver.resolve
        rw [given]
      constructor <;> rw [resolved]
      · exact isEmpty
      · exact around.functionRole
      · intro goesOn
        rcases left with ⟨-, same⟩ | ⟨stops, -⟩
        · exact same
        · exact absurd stops goesOn
      · intro stops
        rcases left with ⟨goesOn, -⟩ | ⟨-, redeclared, kept⟩
        · exact absurd stops goesOn
        · exact ⟨⟨error, rfl, redeclared⟩, kept⟩

/-- Between programs, resolvers differ in nothing but what they have settled. -/
theorem Resolver.eq_unsettled
    {resolver after : Resolver}
    (scopes : after.scopes = resolver.scopes)
    (functionRole : after.functionRole = resolver.functionRole)
    (classRole : after.classRole = resolver.classRole)
    (unsettled : after.settled = []) :
    after = { resolver with settled := [] } := by
  cases after
  subst scopes functionRole classRole unsettled
  rfl

/-- A program without a class whose name is taken leaves a resolver as it was. -/
theorem resolve_leaves
    {resolver : Resolver}
    (outermost : resolver.scopes = [])
    {program : List Stmt}
    (goesOn : ¬ resolver.StopsAtClassOf program) :
    (resolver.resolve program).2 = { resolver with settled := [] } := by
  have unsettled : (resolver.resolve program).2.settled = [] := by
    unfold Resolver.resolve
    split <;> rfl
  have left := resolve_recovers outermost program
  exact Resolver.eq_unsettled (left.scopes.trans outermost.symm) left.functionRole
    (left.classRole goesOn) unsettled

/-- One resolver for a series of programs. -/
def Resolver.resolveEach : Resolver → List (List Stmt) → List Resolution
  | _, [] => []
  | resolver, program :: rest =>
      let (resolution, after) := resolver.resolve program
      resolution :: after.resolveEach rest

/-- A resolver starts every program with nothing settled. -/
theorem resolveEach_unsettled (resolver : Resolver) (programs : List (List Stmt)) :
    Resolver.resolveEach { resolver with settled := [] } programs =
      resolver.resolveEach programs := by
  cases programs <;> rfl

/-- Behind programs that leave it as it was, a resolver is as good as new. -/
theorem resolveEach_eq
    {resolver : Resolver}
    (outermost : resolver.scopes = [])
    {earlier : List (List Stmt)}
    (goOn : ∀ program ∈ earlier, ¬ resolver.StopsAtClassOf program)
    (last : List Stmt) :
    resolver.resolveEach (earlier ++ [last]) =
      (earlier ++ [last]).map fun program => (resolver.resolve program).1 := by
  induction earlier with
  | nil => rfl
  | cons program rest inductionHypothesis =>
      have after := resolve_leaves outermost (goOn program List.mem_cons_self)
      have others := inductionHypothesis fun other member =>
        goOn other (List.mem_cons_of_mem _ member)
      rw [← resolveEach_unsettled, ← after] at others
      exact congrArg ((resolver.resolve program).1 :: ·) others

/--
Between two programs a resolver is outside of all scopes, and in the function in which it
was, whatever has become of the first one; and in the class in which it was, unless that
program was rejected at the name of a class that its scope had already.  So up to the first
program with such a class, every program of a series is resolved as if it were the first; by
a new resolver, as if it had one of its own.
-/
theorem resolver_reusable
    {resolver : Resolver}
    (outermost : resolver.scopes = [])
    {earlier : List (List Stmt)}
    (goOn : ∀ program ∈ earlier, ¬ resolver.StopsAtClassOf program)
    (last : List Stmt) :
    (∀ program : List Stmt, LeftBehind resolver program) ∧
      resolver.resolveEach (earlier ++ [last]) =
        (earlier ++ [last]).map fun program => (resolver.resolve program).1 :=
  ⟨resolve_recovers outermost, resolveEach_eq outermost goOn last⟩

/-- Behind `{ var a; var a; }`, the same resolver rejects `this;` as a new one does. -/
theorem resolver_reusable_behind_variable :
    let redeclaring : List Stmt :=
      [.block [.varDeclaration ⟨"a", 1⟩ none, .varDeclaration ⟨"a", 1⟩ none]]
    let thisOutside : List Stmt := [.expression (.this 0 1)]
    (resolve redeclaring).Redeclares ∧
      ¬ Resolver.initial.StopsAtClassOf redeclaring ∧
      Resolver.initial.resolveEach [redeclaring, thisOutside] =
        [redeclaring, thisOutside].map resolve := by
  intro redeclaring thisOutside
  have goesOn : ¬ Resolver.initial.StopsAtClassOf redeclaring := by
    simp [Resolver.StopsAtClassOf, redeclaring, AnyStopsAtClass, StopsAtClass, StopsBehind]
  have allGoOn : ∀ program ∈ [redeclaring], ¬ Resolver.initial.StopsAtClassOf program :=
    List.forall_mem_singleton.mpr goesOn
  exact ⟨⟨_, rfl, rfl⟩, goesOn, (resolver_reusable rfl allGoOn thisOutside).2⟩

/-- Behind `{ var a; class a {} }`, the same resolver accepts `this;`, which is wrong. -/
theorem class_kept_after_redeclaration :
    let redeclaring : List Stmt :=
      [.block [.varDeclaration ⟨"a", 1⟩ none, .classDeclaration ⟨"a", 1⟩ none []]]
    let thisOutside : List Stmt := [.expression (.this 0 1)]
    (Resolver.initial.resolve redeclaring).2.classRole = some .base ∧
      (Resolver.initial.resolveEach [redeclaring, thisOutside]).map (·.verdict) =
        [.error ⟨.redeclaration, ⟨"a", 1⟩⟩, .ok ()] ∧
      ([redeclaring, thisOutside].map resolve).map (·.verdict) =
        [.error ⟨.redeclaration, ⟨"a", 1⟩⟩, .error ⟨.thisOutsideClass, ⟨"this", 1⟩⟩] := by
  intro redeclaring thisOutside
  exact ⟨rfl, rfl, rfl⟩

end Lox.Scoping
