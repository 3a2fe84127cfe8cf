import Lox.Proofs.Syntax.Identities

namespace Lox

/-!
# Parts of trees

Expressions, statements and functions as the nodes of one kind of tree.  A node occurs in
another one if it is a part of it, or a part of a part, and so on; what holds everywhere in
a tree holds of all nodes that occur in it.
-/

/-- A node of a syntax tree. -/
inductive Node where
  | expression (value : Expr)
  | statement (single : Stmt)
  | function (declaration : FunctionDeclaration)

namespace Node

/-- One node stands directly in another one; a superclass is a variable that is looked up. -/
inductive Part : Node → Node → Prop where
  | grouped {inner} : Part (.expression inner) (.expression (.grouping inner))
  | operand {operator line operand} :
      Part (.expression operand) (.expression (.unary operator line operand))
  | leftOperand {operator line left right} :
      Part (.expression left) (.expression (.binary operator line left right))
  | rightOperand {operator line left right} :
      Part (.expression right) (.expression (.binary operator line left right))
  | leftCondition {operator left right} :
      Part (.expression left) (.expression (.logical operator left right))
  | rightCondition {operator left right} :
      Part (.expression right) (.expression (.logical operator left right))
  | assigned {target value} : Part (.expression value) (.expression (.assign target value))
  | callee {callee arguments line} :
      Part (.expression callee) (.expression (.call callee arguments line))
  | argument {callee arguments line value} :
      value ∈ arguments →
      Part (.expression value) (.expression (.call callee arguments line))
  | object {object name} : Part (.expression object) (.expression (.property object name))
  | owner {object name value} :
      Part (.expression object) (.expression (.setProperty object name value))
  | field {object name value} :
      Part (.expression value) (.expression (.setProperty object name value))
  | effect {value} : Part (.expression value) (.statement (.expression value))
  | printed {value} : Part (.expression value) (.statement (.print value))
  | initializer {name value} :
      Part (.expression value) (.statement (.varDeclaration name (some value)))
  | member {body single} :
      single ∈ body → Part (.statement single) (.statement (.block body))
  | condition {condition consequent alternative} :
      Part (.expression condition) (.statement (.branch condition consequent alternative))
  | consequent {condition consequent alternative} :
      Part (.statement consequent) (.statement (.branch condition consequent alternative))
  | alternative {condition consequent alternative} :
      Part (.statement alternative)
        (.statement (.branch condition consequent (some alternative)))
  | loopCondition {condition body} :
      Part (.expression condition) (.statement (.loop condition body))
  | round {condition body} : Part (.statement body) (.statement (.loop condition body))
  | declared {declaration} :
      Part (.function declaration) (.statement (.functionDeclaration declaration))
  | returned {line value} :
      Part (.expression value) (.statement (.returnValue line (some value)))
  | superclass {name parent methods} :
      Part (.expression (.reference parent))
        (.statement (.classDeclaration name (some parent) methods))
  | method {name superclass methods declaration} :
      declaration ∈ methods →
      Part (.function declaration) (.statement (.classDeclaration name superclass methods))
  | run {declaration : FunctionDeclaration} {single} :
      single ∈ declaration.body → Part (.statement single) (.function declaration)

/-- A node is another one, or stands in it at some depth. -/
inductive Occurs : Node → Node → Prop where
  | here {node} : Occurs node node
  | inside {node part whole} : Occurs node part → Part part whole → Occurs node whole

theorem Occurs.trans
    {node middle whole : Node}
    (inner : Occurs node middle)
    (outer : Occurs middle whole) :
    Occurs node whole := by
  induction outer with
  | here => exact inner
  | inside _ part inductionHypothesis => exact .inside inductionHypothesis part

/-- A node occurs in one of some trees. -/
def OccursIn (trees : List Node) (node : Node) : Prop :=
  ∃ tree ∈ trees, node.Occurs tree

theorem OccursIn.part
    {trees : List Node}
    {part whole : Node}
    (occurs : whole.OccursIn trees)
    (isPart : Part part whole) :
    part.OccursIn trees := by
  obtain ⟨tree, member, inside⟩ := occurs
  exact ⟨tree, member, (Occurs.inside .here isPart).trans inside⟩

/-- All nodes that occur in a tree have some property. -/
def Everywhere (property : Node → Prop) (tree : Node) : Prop :=
  ∀ node : Node, node.Occurs tree → property node

/-- What holds of a node, and everywhere in its parts, holds everywhere in it. -/
theorem Everywhere.of_parts
    {property : Node → Prop}
    {tree : Node}
    (holds : property tree)
    (parts : ∀ part, Part part tree → Everywhere property part) :
    Everywhere property tree := by
  intro node occurs
  cases occurs with
  | here => exact holds
  | inside occurs isPart => exact parts _ isPart node occurs

/-- The identities of the occurrences in a tree. -/
def ids : Node → List NodeId
  | .expression value => value.ids
  | .statement single => single.ids
  | .function declaration => declaration.ids

end Node

end Lox
