import Lox.Proofs.Syntax.Identities
import Mathlib.Data.List.Forall2
import Mathlib.Data.Option.Defs

namespace Lox

/-!
# Copies of programs

Trees that differ at most in the identities of their occurrences and in lines.  Which of
these may stand for which is a matching.
-/

/--
The identities and the lines that stand for each other in two programs.  An identity
stands for one other at most.
-/
structure Matching where
  ids : NodeId → NodeId → Prop
  lines : Nat → Nat → Prop
  unique :
    ∀ {id id' other other'}, ids id id' → ids other other' → (id = other ↔ id' = other')

/-- No line stands for another. -/
def Matching.KeepsLines (matching : Matching) : Prop :=
  ∀ {line line'}, matching.lines line line' → line = line'

/-- Nothing stands for anything but itself. -/
structure Matching.Exact (matching : Matching) : Prop where
  ids : ∀ {id id'}, matching.ids id id' → id = id'
  lines : matching.KeepsLines

variable (matching : Matching)

/-- One name on lines that stand for each other. -/
structure IdentifierCopies (left right : Identifier) : Prop where
  text : left.text = right.text
  line : matching.lines left.line right.line

/-- Occurrences of one name that stand for each other. -/
structure ReferenceCopies (left right : Reference) : Prop where
  id : matching.ids left.id right.id
  name : IdentifierCopies matching left.name right.name

/-- Expressions that are copies of each other. -/
inductive ExprCopies : Expr → Expr → Prop where
  | literal {value} : ExprCopies (.literal value) (.literal value)
  | grouping {inner inner'} :
      ExprCopies inner inner' →
      ExprCopies (.grouping inner) (.grouping inner')
  | unary {operator line line' operand operand'} :
      matching.lines line line' →
      ExprCopies operand operand' →
      ExprCopies (.unary operator line operand) (.unary operator line' operand')
  | binary {operator line line' left left' right right'} :
      matching.lines line line' →
      ExprCopies left left' →
      ExprCopies right right' →
      ExprCopies (.binary operator line left right) (.binary operator line' left' right')
  | logical {operator left left' right right'} :
      ExprCopies left left' →
      ExprCopies right right' →
      ExprCopies (.logical operator left right) (.logical operator left' right')
  | reference {occurrence occurrence'} :
      ReferenceCopies matching occurrence occurrence' →
      ExprCopies (.reference occurrence) (.reference occurrence')
  | assign {target target' value value'} :
      ReferenceCopies matching target target' →
      ExprCopies value value' →
      ExprCopies (.assign target value) (.assign target' value')
  | call {callee callee' arguments arguments' line line'} :
      ExprCopies callee callee' →
      List.Forall₂ ExprCopies arguments arguments' →
      matching.lines line line' →
      ExprCopies (.call callee arguments line) (.call callee' arguments' line')
  | property {object object' name name'} :
      ExprCopies object object' →
      IdentifierCopies matching name name' →
      ExprCopies (.property object name) (.property object' name')
  | setProperty {object object' name name' value value'} :
      ExprCopies object object' →
      IdentifierCopies matching name name' →
      ExprCopies value value' →
      ExprCopies (.setProperty object name value) (.setProperty object' name' value')
  | this {id id' line line'} :
      matching.ids id id' →
      matching.lines line line' →
      ExprCopies (.this id line) (.this id' line')
  | super {id id' line line' method method'} :
      matching.ids id id' →
      matching.lines line line' →
      IdentifierCopies matching method method' →
      ExprCopies (.super id line method) (.super id' line' method')

mutual

/-- Statements that are copies of each other. -/
inductive StmtCopies : Stmt → Stmt → Prop where
  | expression {value value'} :
      ExprCopies matching value value' →
      StmtCopies (.expression value) (.expression value')
  | print {value value'} :
      ExprCopies matching value value' →
      StmtCopies (.print value) (.print value')
  | varDeclaration {name name' initializer initializer'} :
      IdentifierCopies matching name name' →
      Option.Rel (ExprCopies matching) initializer initializer' →
      StmtCopies (.varDeclaration name initializer) (.varDeclaration name' initializer')
  | block {body body'} :
      List.Forall₂ StmtCopies body body' →
      StmtCopies (.block body) (.block body')
  | branch {condition condition' consequent consequent' alternative alternative'} :
      ExprCopies matching condition condition' →
      StmtCopies consequent consequent' →
      Option.Rel StmtCopies alternative alternative' →
      StmtCopies (.branch condition consequent alternative)
        (.branch condition' consequent' alternative')
  | loop {condition condition' body body'} :
      ExprCopies matching condition condition' →
      StmtCopies body body' →
      StmtCopies (.loop condition body) (.loop condition' body')
  | functionDeclaration {declaration declaration'} :
      FunctionCopies declaration declaration' →
      StmtCopies (.functionDeclaration declaration) (.functionDeclaration declaration')
  | returnValue {line line' value value'} :
      matching.lines line line' →
      Option.Rel (ExprCopies matching) value value' →
      StmtCopies (.returnValue line value) (.returnValue line' value')
  | classDeclaration {name name' superclass superclass' methods methods'} :
      IdentifierCopies matching name name' →
      Option.Rel (ReferenceCopies matching) superclass superclass' →
      List.Forall₂ FunctionCopies methods methods' →
      StmtCopies (.classDeclaration name superclass methods)
        (.classDeclaration name' superclass' methods')

/-- Functions that are copies of each other. -/
inductive FunctionCopies : FunctionDeclaration → FunctionDeclaration → Prop where
  | intro {name name' parameters parameters' body body'} :
      IdentifierCopies matching name name' →
      List.Forall₂ (IdentifierCopies matching) parameters parameters' →
      List.Forall₂ StmtCopies body body' →
      FunctionCopies (.intro name parameters body) (.intro name' parameters' body')

end

variable {matching : Matching}

/-- Copies of a function have the same name. -/
theorem FunctionCopies.name
    {left right : FunctionDeclaration}
    (copies : FunctionCopies matching left right) :
    left.name.text = right.name.text := by
  cases copies with
  | intro name _ _ => exact name.text

/-- Copies of a function have equally many parameters. -/
theorem FunctionCopies.arity
    {left right : FunctionDeclaration}
    (copies : FunctionCopies matching left right) :
    left.arity = right.arity := by
  cases copies with
  | intro _ parameters _ => exact parameters.length_eq

/-- Copies of a function have parameters of the same names. -/
theorem FunctionCopies.parameterNames
    {left right : FunctionDeclaration}
    (copies : FunctionCopies matching left right) :
    left.parameters.map (·.text) = right.parameters.map (·.text) := by
  cases copies with
  | intro _ parameters _ =>
      dsimp only [FunctionDeclaration.parameters]
      induction parameters with
      | nil => rfl
      | cons first _ inductionHypothesis =>
          rw [List.map_cons, List.map_cons, first.text, inductionHypothesis]

/-- The bodies of copies of a function are copies. -/
theorem FunctionCopies.body
    {left right : FunctionDeclaration}
    (copies : FunctionCopies matching left right) :
    List.Forall₂ (StmtCopies matching) left.body right.body := by
  cases copies with
  | intro _ _ body => exact body

/-! ## Identities of copies -/

mutual

/-- The identities of copies stand for each other, one by one. -/
theorem ExprCopies.ids :
    ∀ {value value' : Expr}, ExprCopies matching value value' →
      List.Forall₂ matching.ids (idsOf value.occurrences) (idsOf value'.occurrences)
  | .literal _, _, .literal => .nil
  | .grouping _, _, .grouping inner => inner.ids
  | .unary _ _ _, _, .unary _ operand => operand.ids
  | .binary _ _ _ _, _, .binary _ left right => by
      simpa [Expr.occurrences] using List.rel_append left.ids right.ids
  | .logical _ _ _, _, .logical left right => by
      simpa [Expr.occurrences] using List.rel_append left.ids right.ids
  | .reference _, _, .reference occurrence => .cons occurrence.id .nil
  | .assign _ _, _, .assign target value => by
      simpa [Expr.occurrences] using List.rel_append value.ids (.cons target.id .nil)
  | .call _ _ _, _, .call callee arguments _ => by
      simpa [Expr.occurrences] using List.rel_append callee.ids (ExprCopies.allIds arguments)
  | .property _ _, _, .property object _ => object.ids
  | .setProperty _ _ _, _, .setProperty object _ value => by
      simpa [Expr.occurrences] using List.rel_append value.ids object.ids
  | .this _ _, _, .this id _ => .cons id .nil
  | .super _ _ _, _, .super id _ _ => .cons id .nil

/-- The identities in copies of expressions stand for each other, in order. -/
theorem ExprCopies.allIds :
    ∀ {values values' : List Expr}, List.Forall₂ (ExprCopies matching) values values' →
      List.Forall₂ matching.ids (idsOf (Expr.occurrencesOfAll values))
        (idsOf (Expr.occurrencesOfAll values'))
  | [], _, .nil => .nil
  | _ :: _, _, .cons first rest => by
      simpa [Expr.occurrencesOfAll] using List.rel_append first.ids (ExprCopies.allIds rest)

end

/-- The identities of options that are copies. -/
theorem ids_of_optional
    {value value' : Option Expr}
    (copies : Option.Rel (ExprCopies matching) value value') :
    List.Forall₂ matching.ids (idsOf (Expr.occurrencesOfOptional value))
      (idsOf (Expr.occurrencesOfOptional value')) := by
  cases copies with
  | none => exact .nil
  | some copies => exact copies.ids

mutual

/-- The identities in copies of a statement stand for each other, in order. -/
theorem StmtCopies.ids :
    ∀ {statement statement' : Stmt}, StmtCopies matching statement statement' →
      List.Forall₂ matching.ids (idsOf statement.occurrences) (idsOf statement'.occurrences)
  | .expression _, _, .expression value => value.ids
  | .print _, _, .print value => value.ids
  | .varDeclaration _ _, _, .varDeclaration _ initializer => ids_of_optional initializer
  | .block _, _, .block body => StmtCopies.allIds body
  | .branch _ _ none, _, .branch condition consequent .none => by
      simpa [Stmt.occurrences] using List.rel_append condition.ids consequent.ids
  | .branch _ _ (some _), _, .branch condition consequent (.some alternative) => by
      simpa [Stmt.occurrences] using
        List.rel_append condition.ids (List.rel_append consequent.ids alternative.ids)
  | .loop _ _, _, .loop condition body => by
      simpa [Stmt.occurrences] using List.rel_append condition.ids body.ids
  | .functionDeclaration _, _, .functionDeclaration declaration => declaration.ids
  | .returnValue _ _, _, .returnValue _ value => ids_of_optional value
  | .classDeclaration _ none _, _, .classDeclaration _ .none methods =>
      FunctionCopies.allIds methods
  | .classDeclaration _ (some _) _, _, .classDeclaration _ (.some parent) methods =>
      .cons parent.id (FunctionCopies.allIds methods)

/-- The identities in copies of statements stand for each other, in order. -/
theorem StmtCopies.allIds :
    ∀ {body body' : List Stmt}, List.Forall₂ (StmtCopies matching) body body' →
      List.Forall₂ matching.ids (idsOf (Stmt.occurrencesOfAll body))
        (idsOf (Stmt.occurrencesOfAll body'))
  | [], _, .nil => .nil
  | _ :: _, _, .cons first rest => by
      simpa [Stmt.occurrencesOfAll] using List.rel_append first.ids (StmtCopies.allIds rest)

/-- The identities in copies of a function stand for each other, in order. -/
theorem FunctionCopies.ids :
    ∀ {declaration declaration' : FunctionDeclaration},
      FunctionCopies matching declaration declaration' →
        List.Forall₂ matching.ids (idsOf declaration.occurrences)
          (idsOf declaration'.occurrences)
  | .intro _ _ _, _, .intro _ _ body => StmtCopies.allIds body

/-- The identities in copies of methods stand for each other, in order. -/
theorem FunctionCopies.allIds :
    ∀ {methods methods' : List FunctionDeclaration},
      List.Forall₂ (FunctionCopies matching) methods methods' →
        List.Forall₂ matching.ids (idsOf (FunctionDeclaration.occurrencesOfAll methods))
          (idsOf (FunctionDeclaration.occurrencesOfAll methods'))
  | [], _, .nil => .nil
  | _ :: _, _, .cons first rest => by
      simpa [FunctionDeclaration.occurrencesOfAll] using
        List.rel_append first.ids (FunctionCopies.allIds rest)

end

/-! ## Copies of themselves -/

namespace Matching

/-- Some occurrences may stand for themselves. -/
def Reflects (matching : Matching) (occurrences : List Occurrence) : Prop :=
  ∀ id ∈ idsOf occurrences, matching.ids id id

/-- Occurrences in a row stand for themselves if all of them do. -/
theorem reflects_append {earlier later : List Occurrence} :
    matching.Reflects (earlier ++ later) ↔
      matching.Reflects earlier ∧ matching.Reflects later := by
  unfold Reflects
  rw [idsOf_append, List.forall_mem_append]

/-- Occurrences stand for themselves if the first one and the others do. -/
theorem reflects_cons {occurrence : Occurrence} {rest : List Occurrence} :
    matching.Reflects (occurrence :: rest) ↔
      matching.ids occurrence.1 occurrence.1 ∧ matching.Reflects rest :=
  List.forall_mem_cons

end Matching

section

variable {matching : Matching}

/-- A name is a copy of itself if its line stands for itself. -/
theorem IdentifierCopies.self
    (reflexive : ∀ line, matching.lines line line)
    (name : Identifier) :
    IdentifierCopies matching name name :=
  ⟨rfl, reflexive name.line⟩

/-- An occurrence is a copy of itself if its identity stands for itself. -/
theorem ReferenceCopies.self
    (reflexive : ∀ line, matching.lines line line)
    {occurrence : Reference}
    (known : matching.ids occurrence.id occurrence.id) :
    ReferenceCopies matching occurrence occurrence :=
  ⟨known, .self reflexive _⟩

mutual

/-- A tree is a copy of itself if its occurrences may stand for themselves. -/
theorem ExprCopies.self (reflexive : ∀ line, matching.lines line line) :
    ∀ value : Expr, matching.Reflects value.occurrences → ExprCopies matching value value
  | .literal _, _ => .literal
  | .grouping inner, known => .grouping (.self reflexive inner known)
  | .unary _ line operand, known =>
      .unary (reflexive line) (.self reflexive operand known)
  | .binary _ line left right, known => by
      obtain ⟨first, second⟩ := Matching.reflects_append.mp known
      exact .binary (reflexive line) (.self reflexive left first)
        (.self reflexive right second)
  | .logical _ left right, known => by
      obtain ⟨first, second⟩ := Matching.reflects_append.mp known
      exact .logical (.self reflexive left first) (.self reflexive right second)
  | .reference _, known => .reference (.self reflexive (Matching.reflects_cons.mp known).1)
  | .assign _ value, known => by
      obtain ⟨inValue, inTarget⟩ := Matching.reflects_append.mp known
      exact .assign (.self reflexive (Matching.reflects_cons.mp inTarget).1)
        (.self reflexive value inValue)
  | .call callee arguments line, known => by
      obtain ⟨inCallee, inArguments⟩ := Matching.reflects_append.mp known
      exact .call (.self reflexive callee inCallee)
        (ExprCopies.allSelf reflexive arguments inArguments) (reflexive line)
  | .property object name, known =>
      .property (.self reflexive object known) (.self reflexive name)
  | .setProperty object name value, known => by
      obtain ⟨inValue, inObject⟩ := Matching.reflects_append.mp known
      exact .setProperty (.self reflexive object inObject) (.self reflexive name)
        (.self reflexive value inValue)
  | .this _ line, known => .this (Matching.reflects_cons.mp known).1 (reflexive line)
  | .super _ line method, known =>
      .super (Matching.reflects_cons.mp known).1 (reflexive line) (.self reflexive method)

/-- Expressions are copies of themselves if their occurrences stand for themselves. -/
theorem ExprCopies.allSelf (reflexive : ∀ line, matching.lines line line) :
    ∀ values : List Expr, matching.Reflects (Expr.occurrencesOfAll values) →
      List.Forall₂ (ExprCopies matching) values values
  | [], _ => .nil
  | first :: rest, known => by
      obtain ⟨inFirst, inRest⟩ := Matching.reflects_append.mp known
      exact .cons (.self reflexive first inFirst) (ExprCopies.allSelf reflexive rest inRest)

end

/-- An expression that may be left out is a copy of itself. -/
theorem optional_self
    (reflexive : ∀ line, matching.lines line line)
    {value : Option Expr}
    (known : matching.Reflects (Expr.occurrencesOfOptional value)) :
    Option.Rel (ExprCopies matching) value value := by
  cases value with
  | none => exact .none
  | some value => exact .some (.self reflexive value known)

mutual

/-- A statement is a copy of itself if its occurrences stand for themselves. -/
theorem StmtCopies.self (reflexive : ∀ line, matching.lines line line) :
    ∀ statement : Stmt, matching.Reflects statement.occurrences →
      StmtCopies matching statement statement
  | .expression value, known => .expression (.self reflexive value known)
  | .print value, known => .print (.self reflexive value known)
  | .varDeclaration name _, known =>
      .varDeclaration (.self reflexive name) (optional_self reflexive known)
  | .block body, known => .block (StmtCopies.allSelf reflexive body known)
  | .branch condition consequent none, known => by
      obtain ⟨first, second⟩ := Matching.reflects_append.mp known
      exact .branch (.self reflexive condition first) (.self reflexive consequent second)
        .none
  | .branch condition consequent (some alternative), known => by
      obtain ⟨both, third⟩ := Matching.reflects_append.mp known
      obtain ⟨first, second⟩ := Matching.reflects_append.mp both
      exact .branch (.self reflexive condition first) (.self reflexive consequent second)
        (.some (.self reflexive alternative third))
  | .loop condition body, known => by
      obtain ⟨first, second⟩ := Matching.reflects_append.mp known
      exact .loop (.self reflexive condition first) (.self reflexive body second)
  | .functionDeclaration declaration, known =>
      .functionDeclaration (.self reflexive declaration known)
  | .returnValue line _, known =>
      .returnValue (reflexive line) (optional_self reflexive known)
  | .classDeclaration name none methods, known =>
      .classDeclaration (.self reflexive name) .none
        (FunctionCopies.allSelf reflexive methods known)
  | .classDeclaration name (some parent) methods, known => by
      obtain ⟨inParent, inMethods⟩ := Matching.reflects_cons.mp known
      exact .classDeclaration (.self reflexive name) (.some (.self reflexive inParent))
        (FunctionCopies.allSelf reflexive methods inMethods)

/-- Statements are copies of themselves if their occurrences stand for themselves. -/
theorem StmtCopies.allSelf (reflexive : ∀ line, matching.lines line line) :
    ∀ body : List Stmt, matching.Reflects (Stmt.occurrencesOfAll body) →
      List.Forall₂ (StmtCopies matching) body body
  | [], _ => .nil
  | first :: rest, known => by
      obtain ⟨inFirst, inRest⟩ := Matching.reflects_append.mp known
      exact .cons (.self reflexive first inFirst) (StmtCopies.allSelf reflexive rest inRest)

/-- A function is a copy of itself if its occurrences stand for themselves. -/
theorem FunctionCopies.self (reflexive : ∀ line, matching.lines line line) :
    ∀ declaration : FunctionDeclaration, matching.Reflects declaration.occurrences →
      FunctionCopies matching declaration declaration
  | .intro name _ body, known =>
      .intro (.self reflexive name)
        (List.forall₂_same.mpr fun parameter _ => .self reflexive parameter)
        (StmtCopies.allSelf reflexive body known)

/-- Methods are copies of themselves if their occurrences stand for themselves. -/
theorem FunctionCopies.allSelf (reflexive : ∀ line, matching.lines line line) :
    ∀ methods : List FunctionDeclaration,
      matching.Reflects (FunctionDeclaration.occurrencesOfAll methods) →
        List.Forall₂ (FunctionCopies matching) methods methods
  | [], _ => .nil
  | first :: rest, known => by
      obtain ⟨inFirst, inRest⟩ := Matching.reflects_append.mp known
      exact .cons (.self reflexive first inFirst)
        (FunctionCopies.allSelf reflexive rest inRest)

end

end

/-! ## Exact copies -/

/-- Options that are exact copies are equal. -/
theorem eq_of_rel
    {α : Type}
    {relation : α → α → Prop}
    (exactly : ∀ value value', relation value value' → value = value')
    {left right : Option α}
    (related : Option.Rel relation left right) :
    left = right := by
  cases related with
  | none => rfl
  | some related => rw [exactly _ _ related]

/-- Lists are equal if only equal elements correspond. -/
theorem eq_of_forall₂
    {α : Type}
    {relation : α → α → Prop}
    (exactly : ∀ value value', relation value value' → value = value')
    {left right : List α}
    (related : List.Forall₂ relation left right) :
    left = right := by
  induction related with
  | nil => rfl
  | cons first _ inductionHypothesis => rw [exactly _ _ first, inductionHypothesis]

/-- A name is its only copy where every line stands for itself only. -/
theorem IdentifierCopies.eq
    (lines : matching.KeepsLines)
    {name name' : Identifier}
    (copies : IdentifierCopies matching name name') :
    name = name' := by
  obtain ⟨text, line⟩ := name
  obtain ⟨text', line'⟩ := name'
  obtain rfl : text = text' := copies.text
  obtain rfl : line = line' := lines copies.line
  rfl

/-- An occurrence is its only copy where identities stand for themselves only. -/
theorem ReferenceCopies.eq
    (exactly : matching.Exact)
    {occurrence occurrence' : Reference}
    (copies : ReferenceCopies matching occurrence occurrence') :
    occurrence = occurrence' := by
  obtain ⟨id, name⟩ := occurrence
  obtain ⟨id', name'⟩ := occurrence'
  obtain rfl : id = id' := exactly.ids copies.id
  obtain rfl : name = name' := copies.name.eq exactly.lines
  rfl

mutual

/-- Copies in which everything stands for itself are equal. -/
theorem ExprCopies.eq (exactly : matching.Exact) :
    ∀ {value value' : Expr}, ExprCopies matching value value' → value = value'
  | .literal _, _, .literal => rfl
  | .grouping _, _, .grouping inner => by rw [inner.eq exactly]
  | .unary _ _ _, _, .unary line operand => by
      rw [exactly.lines line, operand.eq exactly]
  | .binary _ _ _ _, _, .binary line left right => by
      rw [exactly.lines line, left.eq exactly, right.eq exactly]
  | .logical _ _ _, _, .logical left right => by
      rw [left.eq exactly, right.eq exactly]
  | .reference _, _, .reference occurrence => by rw [occurrence.eq exactly]
  | .assign _ _, _, .assign target value => by
      rw [target.eq exactly, value.eq exactly]
  | .call _ _ _, _, .call callee arguments line => by
      rw [callee.eq exactly, ExprCopies.allEq exactly arguments, exactly.lines line]
  | .property _ _, _, .property object name => by
      rw [object.eq exactly, name.eq exactly.lines]
  | .setProperty _ _ _, _, .setProperty object name value => by
      rw [object.eq exactly, name.eq exactly.lines, value.eq exactly]
  | .this _ _, _, .this id line => by rw [exactly.ids id, exactly.lines line]
  | .super _ _ _, _, .super id line method => by
      rw [exactly.ids id, exactly.lines line, method.eq exactly.lines]

/-- Expressions are their only copies. -/
theorem ExprCopies.allEq (exactly : matching.Exact) :
    ∀ {values values' : List Expr}, List.Forall₂ (ExprCopies matching) values values' →
      values = values'
  | [], _, .nil => rfl
  | _ :: _, _, .cons first rest => by rw [first.eq exactly, ExprCopies.allEq exactly rest]

end

mutual

/-- A statement is its only copy. -/
theorem StmtCopies.eq (exactly : matching.Exact) :
    ∀ {statement statement' : Stmt}, StmtCopies matching statement statement' →
      statement = statement'
  | .expression _, _, .expression value => by rw [value.eq exactly]
  | .print _, _, .print value => by rw [value.eq exactly]
  | .varDeclaration _ _, _, .varDeclaration name initializer => by
      rw [name.eq exactly.lines, eq_of_rel (fun _ _ => ExprCopies.eq exactly) initializer]
  | .block _, _, .block body => by rw [StmtCopies.allEq exactly body]
  | .branch _ _ none, _, .branch condition consequent .none => by
      rw [condition.eq exactly, consequent.eq exactly]
  | .branch _ _ (some _), _, .branch condition consequent (.some alternative) => by
      rw [condition.eq exactly, consequent.eq exactly, alternative.eq exactly]
  | .loop _ _, _, .loop condition body => by rw [condition.eq exactly, body.eq exactly]
  | .functionDeclaration _, _, .functionDeclaration declaration => by
      rw [declaration.eq exactly]
  | .returnValue _ _, _, .returnValue line value => by
      rw [exactly.lines line, eq_of_rel (fun _ _ => ExprCopies.eq exactly) value]
  | .classDeclaration _ _ _, _, .classDeclaration name superclass methods => by
      rw [name.eq exactly.lines, eq_of_rel (fun _ _ => ReferenceCopies.eq exactly) superclass,
        FunctionCopies.allEq exactly methods]

/-- Statements are their only copies. -/
theorem StmtCopies.allEq (exactly : matching.Exact) :
    ∀ {body body' : List Stmt}, List.Forall₂ (StmtCopies matching) body body' →
      body = body'
  | [], _, .nil => rfl
  | _ :: _, _, .cons first rest => by rw [first.eq exactly, StmtCopies.allEq exactly rest]

/-- A function is its only copy. -/
theorem FunctionCopies.eq (exactly : matching.Exact) :
    ∀ {declaration declaration' : FunctionDeclaration},
      FunctionCopies matching declaration declaration' → declaration = declaration'
  | .intro _ _ _, _, .intro name parameters body => by
      have names := eq_of_forall₂ (fun _ _ => IdentifierCopies.eq exactly.lines) parameters
      rw [name.eq exactly.lines, names, StmtCopies.allEq exactly body]

/-- Methods are their only copies. -/
theorem FunctionCopies.allEq (exactly : matching.Exact) :
    ∀ {methods methods' : List FunctionDeclaration},
      List.Forall₂ (FunctionCopies matching) methods methods' → methods = methods'
  | [], _, .nil => rfl
  | _ :: _, _, .cons first rest => by
      rw [first.eq exactly, FunctionCopies.allEq exactly rest]

end

end Lox
