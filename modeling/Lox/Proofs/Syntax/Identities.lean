import Lox.Syntax.Occurrences

namespace Lox

/-!
# Identities of occurrences

A reader hands out identities in increasing order.  What was read between two of
its states has identities of its own from the range between them.
-/

/-- Distinct identities from a range, whose end is not below its start. -/
structure FreshIds (ids : List NodeId) (first next : NodeId) : Prop where
  ordered : first ≤ next
  distinct : ids.Nodup
  bounded : ∀ id ∈ ids, first ≤ id ∧ id < next

namespace FreshIds

variable {earlier later ids : List NodeId} {first middle next : NodeId}

theorem none (ordered : first ≤ next) : FreshIds [] first next :=
  ⟨ordered, List.nodup_nil, by simp⟩

theorem one (first : NodeId) : FreshIds [first] first (first + 1) :=
  ⟨Nat.le_succ first, by simp, by simp⟩

/-- Identities of two ranges in a row are distinct. -/
theorem append
    (left : FreshIds earlier first middle)
    (right : FreshIds later middle next) :
    FreshIds (earlier ++ later) first next where
  ordered := Nat.le_trans left.ordered right.ordered
  distinct := by
    refine List.nodup_append.mpr ⟨left.distinct, right.distinct, ?_⟩
    intro id inLeft other inRight same
    have below := (left.bounded id inLeft).2
    have above := (right.bounded other inRight).1
    exact Nat.ne_of_lt (Nat.lt_of_lt_of_le below above) same
  bounded := by
    intro id member
    rcases List.mem_append.mp member with inLeft | inRight
    · have bounds := left.bounded id inLeft
      exact ⟨bounds.1, Nat.lt_of_lt_of_le bounds.2 right.ordered⟩
    · have bounds := right.bounded id inRight
      exact ⟨Nat.le_trans left.ordered bounds.1, bounds.2⟩

theorem perm (fresh : FreshIds earlier first next) (same : earlier.Perm later) :
    FreshIds later first next where
  ordered := fresh.ordered
  distinct := same.nodup_iff.mp fresh.distinct
  bounded := fun id member => fresh.bounded id (same.mem_iff.mpr member)

theorem append_swapped
    (left : FreshIds earlier first middle)
    (right : FreshIds later middle next) :
    FreshIds (later ++ earlier) first next :=
  (left.append right).perm List.perm_append_comm

theorem from_earlier
    (ordered : first ≤ middle)
    (fresh : FreshIds ids middle next) :
    FreshIds ids first next :=
  (none ordered).append fresh

end FreshIds

/-- The identities of occurrences. -/
def idsOf (occurrences : List Occurrence) : List NodeId :=
  occurrences.map (·.1)

@[simp]
theorem idsOf_append (earlier later : List Occurrence) :
    idsOf (earlier ++ later) = idsOf earlier ++ idsOf later :=
  List.map_append

@[simp]
theorem idsOf_cons (occurrence : Occurrence) (rest : List Occurrence) :
    idsOf (occurrence :: rest) = occurrence.1 :: idsOf rest :=
  rfl

@[simp]
theorem idsOf_nil : idsOf [] = [] :=
  rfl

/-- The identities in an expression. -/
def Expr.ids (value : Expr) : List NodeId :=
  idsOf value.occurrences

/-- The identities in a statement. -/
def Stmt.ids (statement : Stmt) : List NodeId :=
  idsOf statement.occurrences

/-- The identities in a function. -/
def FunctionDeclaration.ids (declaration : FunctionDeclaration) : List NodeId :=
  idsOf declaration.occurrences

/-- The identities in an expression that may be absent. -/
def Expr.idsOfOptional (value : Option Expr) : List NodeId :=
  idsOf (Expr.occurrencesOfOptional value)

@[simp]
theorem idsOf_expressions (values : List Expr) :
    idsOf (Expr.occurrencesOfAll values) = values.flatMap Expr.ids := by
  induction values with
  | nil => rfl
  | cons first rest inductionHypothesis =>
      simp [Expr.occurrencesOfAll, inductionHypothesis, Expr.ids]

@[simp]
theorem idsOf_statements (body : List Stmt) :
    idsOf (Stmt.occurrencesOfAll body) = body.flatMap Stmt.ids := by
  induction body with
  | nil => rfl
  | cons first rest inductionHypothesis =>
      simp [Stmt.occurrencesOfAll, inductionHypothesis, Stmt.ids]

@[simp]
theorem idsOf_functions (methods : List FunctionDeclaration) :
    idsOf (FunctionDeclaration.occurrencesOfAll methods) =
      methods.flatMap FunctionDeclaration.ids := by
  induction methods with
  | nil => rfl
  | cons first rest inductionHypothesis =>
      simp [FunctionDeclaration.occurrencesOfAll, inductionHypothesis,
        FunctionDeclaration.ids]

end Lox
