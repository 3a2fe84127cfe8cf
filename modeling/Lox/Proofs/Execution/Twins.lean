import Lox.Proofs.Execution.Labels
import Lox.Proofs.Scoping.Sites

namespace Lox.Execution

open Scoping

/-!
# Twin programs

Parts of two programs that do the same in corresponding scopes.  They have the same
structure, texts that are printed and names of properties.  Corresponding variables
are found equally many scopes up, under the names that the labels of the scopes give
them.  What lines and names are reported may differ, as the pairing allows.
-/

/--
How two programs are paired: which occurrences correspond and at what depth both are
found, what the first program is known to do at an occurrence, which lines and names
may be reported in each other's place, how the scopes of `this` and `super` are
labelled, and which scope is the global one.
-/
structure Pairing where
  settled : NodeId → NodeId → Option Nat → Prop
  admits : List Label → Option String → Deed → Prop
  lines : Nat → Nat → Prop
  names : String → String → Prop
  receiver : Label
  receiver_renames : receiver.renames receiverName receiverName
  superclass : Label
  superclass_renames : superclass.renames superclassName superclassName
  globals : ScopeId

namespace Pairing

/-- A name that may be reported in the place of another one. -/
structure Reports (pairing : Pairing) (left right : Identifier) : Prop where
  line : pairing.lines left.line right.line
  text : pairing.names left.text right.text

end Pairing

variable (pairing : Pairing)

/-! ## Twin expressions -/

/-- Occurrences of corresponding variables. -/
structure ReferenceTwins (levels : List Label) (left right : Reference) : Prop where
  renames :
    ∃ depth, pairing.settled left.id right.id depth ∧
      Renames levels depth left.name.text right.name.text
  reports : pairing.Reports left.name right.name

/-- Occurrences of `super`, with the scope of `this` one scope nearer. -/
structure SuperTwins (levels : List Label) (left right : NodeId) : Prop where
  renames :
    ∃ depth, pairing.settled left right depth ∧
      (∀ found, depth = some found →
        Renames levels (some found) superclassName superclassName) ∧
      ∀ nearer, depth = some (nearer + 1) →
        Renames levels (some nearer) receiverName receiverName

/-- Expressions that do the same in scopes with given labels. -/
inductive ExprTwins (levels : List Label) (initializing : Option String) :
    Expr → Expr → Prop where
  | literal {value} : ExprTwins levels initializing (.literal value) (.literal value)
  | grouping {inner inner'} :
      ExprTwins levels initializing inner inner' →
      ExprTwins levels initializing (.grouping inner) (.grouping inner')
  | unary {operator line line' operand operand'} :
      pairing.lines line line' →
      ExprTwins levels initializing operand operand' →
      ExprTwins levels initializing (.unary operator line operand)
        (.unary operator line' operand')
  | binary {operator line line' left left' right right'} :
      pairing.lines line line' →
      ExprTwins levels initializing left left' →
      ExprTwins levels initializing right right' →
      ExprTwins levels initializing (.binary operator line left right)
        (.binary operator line' left' right')
  | logical {operator left left' right right'} :
      ExprTwins levels initializing left left' →
      ExprTwins levels initializing right right' →
      ExprTwins levels initializing (.logical operator left right)
        (.logical operator left' right')
  | reference {occurrence occurrence'} :
      ReferenceTwins pairing levels occurrence occurrence' →
      pairing.admits levels initializing (.reads occurrence) →
      ExprTwins levels initializing (.reference occurrence) (.reference occurrence')
  | assign {target target' value value'} :
      ExprTwins levels initializing value value' →
      ReferenceTwins pairing levels target target' →
      pairing.admits levels initializing (.assigns target) →
      ExprTwins levels initializing (.assign target value) (.assign target' value')
  | call {callee callee' arguments arguments' line line'} :
      pairing.lines line line' →
      ExprTwins levels initializing callee callee' →
      List.Forall₂ (ExprTwins levels initializing) arguments arguments' →
      ExprTwins levels initializing (.call callee arguments line)
        (.call callee' arguments' line')
  | property {object object' name name'} :
      ExprTwins levels initializing object object' →
      name.text = name'.text →
      pairing.Reports name name' →
      ExprTwins levels initializing (.property object name) (.property object' name')
  | setProperty {object object' name name' value value'} :
      ExprTwins levels initializing object object' →
      name.text = name'.text →
      pairing.Reports name name' →
      ExprTwins levels initializing value value' →
      ExprTwins levels initializing (.setProperty object name value)
        (.setProperty object' name' value')
  | this {id id' line line'} :
      ReferenceTwins pairing levels ⟨id, receiverName, line⟩ ⟨id', receiverName, line'⟩ →
      pairing.admits levels initializing (.this id line) →
      ExprTwins levels initializing (.this id line) (.this id' line')
  | super {id id' line line' method method'} :
      SuperTwins pairing levels id id' →
      pairing.admits levels initializing (.super id line) →
      pairing.Reports ⟨superclassName, line⟩ ⟨superclassName, line'⟩ →
      method.text = method'.text →
      pairing.Reports method method' →
      ExprTwins levels initializing (.super id line method) (.super id' line' method')

/-! ## Twin statements -/

mutual

/-- Statements that do the same in scopes with given labels. -/
inductive StmtTwins : List Label → Stmt → Stmt → Prop where
  | expression {levels value value'} :
      ExprTwins pairing levels none value value' →
      StmtTwins levels (.expression value) (.expression value')
  | print {levels value value'} :
      ExprTwins pairing levels none value value' →
      StmtTwins levels (.print value) (.print value')
  | uninitialized {levels name name'} :
      Declares levels name.text name'.text →
      StmtTwins levels (.varDeclaration name none) (.varDeclaration name' none)
  | initialized {levels name name' value value'} :
      Declares levels name.text name'.text →
      ExprTwins pairing levels (some name.text) value value' →
      StmtTwins levels (.varDeclaration name (some value))
        (.varDeclaration name' (some value'))
  | block {levels label body body'} :
      BodyTwins (label :: levels) body body' →
      StmtTwins levels (.block body) (.block body')
  | conditional {levels condition condition' consequent consequent'} :
      ExprTwins pairing levels none condition condition' →
      StmtTwins levels consequent consequent' →
      StmtTwins levels (.branch condition consequent none)
        (.branch condition' consequent' none)
  | alternative
      {levels condition condition' consequent consequent' alternative alternative'} :
      ExprTwins pairing levels none condition condition' →
      StmtTwins levels consequent consequent' →
      StmtTwins levels alternative alternative' →
      StmtTwins levels (.branch condition consequent (some alternative))
        (.branch condition' consequent' (some alternative'))
  | loop {levels condition condition' body body'} :
      ExprTwins pairing levels none condition condition' →
      StmtTwins levels body body' →
      StmtTwins levels (.loop condition body) (.loop condition' body')
  | functionDeclaration {levels declaration declaration'} :
      Declares levels declaration.name.text declaration'.name.text →
      FunctionTwins levels declaration declaration' →
      StmtTwins levels (.functionDeclaration declaration)
        (.functionDeclaration declaration')
  | returnNothing {levels line line'} :
      pairing.lines line line' →
      StmtTwins levels (.returnValue line none) (.returnValue line' none)
  | returnValue {levels line line' value value'} :
      pairing.lines line line' →
      ExprTwins pairing levels none value value' →
      StmtTwins levels (.returnValue line (some value)) (.returnValue line' (some value'))
  | baseClass {levels name name' methods methods'} :
      name.text = name'.text →
      Declares levels name.text name'.text →
      MethodsTwins (pairing.receiver :: levels) methods methods' →
      StmtTwins levels (.classDeclaration name none methods)
        (.classDeclaration name' none methods')
  | subclass {levels name name' parent parent' methods methods'} :
      name.text = name'.text →
      Declares levels name.text name'.text →
      ReferenceTwins pairing levels parent parent' →
      pairing.admits levels (some name.text) (.reads parent) →
      MethodsTwins (pairing.receiver :: pairing.superclass :: levels) methods methods' →
      StmtTwins levels (.classDeclaration name (some parent) methods)
        (.classDeclaration name' (some parent') methods')

/-- Statements in a row that do the same, one by one. -/
inductive BodyTwins : List Label → List Stmt → List Stmt → Prop where
  | nil {levels} : BodyTwins levels [] []
  | cons {levels first first' rest rest'} :
      StmtTwins levels first first' →
      BodyTwins levels rest rest' →
      BodyTwins levels (first :: rest) (first' :: rest')

/-- Functions of one name that do the same when they are called with the same arguments. -/
inductive FunctionTwins : List Label → FunctionDeclaration → FunctionDeclaration → Prop where
  | intro {levels label name name' parameters parameters' body body'} :
      name.text = name'.text →
      List.Forall₂ (fun parameter parameter' =>
        label.renames parameter.text parameter'.text) parameters parameters' →
      BodyTwins (label :: levels) body body' →
      FunctionTwins levels (.intro name parameters body) (.intro name' parameters' body')

/-- Methods of two classes that do the same, one by one. -/
inductive MethodsTwins :
    List Label → List FunctionDeclaration → List FunctionDeclaration → Prop where
  | nil {levels} : MethodsTwins levels [] []
  | cons {levels first first' rest rest'} :
      FunctionTwins levels first first' →
      MethodsTwins levels rest rest' →
      MethodsTwins levels (first :: rest) (first' :: rest')

end

/-! ## Twin exits -/

/-- Type faults of one kind at corresponding places. -/
def TypeFault.Alike : TypeFault → TypeFault → Prop
  | .operandNotNumber line, .operandNotNumber line' => pairing.lines line line'
  | .operandsNotNumbers operator line, .operandsNotNumbers operator' line' =>
      operator = operator' ∧ pairing.lines line line'
  | .operandsNotAddable line, .operandsNotAddable line' => pairing.lines line line'
  | .notCallable line, .notCallable line' => pairing.lines line line'
  | .propertyOfNonInstance name, .propertyOfNonInstance name' => pairing.Reports name name'
  | .fieldOfNonInstance name, .fieldOfNonInstance name' => pairing.Reports name name'
  | .superclassNotClass name, .superclassNotClass name' => pairing.Reports name name'
  | .returnOutsideFunction line, .returnOutsideFunction line' => pairing.lines line line'
  | _, _ => False

/-- Runtime errors of one kind at corresponding places. -/
def RuntimeError.Alike : RuntimeError → RuntimeError → Prop
  | .undefinedVariable name, .undefinedVariable name' => pairing.Reports name name'
  | .undefinedProperty name, .undefinedProperty name' => pairing.Reports name name'
  | .typeFault fault, .typeFault fault' => fault.Alike pairing fault'
  | .divisionByZero line, .divisionByZero line' => pairing.lines line line'
  | .arityMismatch expected got line, .arityMismatch expected' got' line' =>
      expected = expected' ∧ got = got' ∧ pairing.lines line line'
  | _, _ => False

/-- Exits of one kind at corresponding places, with the same value. -/
def Exit.Alike : Exit → Exit → Prop
  | .error raised, .error raised' => raised.Alike pairing raised'
  | .returned line value, .returned line' value' => pairing.lines line line' ∧ value = value'
  | .mismatch found, .mismatch found' => found = found'
  | .exhausted, .exhausted => True
  | _, _ => False

end Lox.Execution
