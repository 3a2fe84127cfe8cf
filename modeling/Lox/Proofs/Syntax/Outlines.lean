import Lox.Proofs.Number.Texts
import Lox.Proofs.Syntax.Forms
import Lox.Proofs.Syntax.Parts

namespace Lox

/-!
# Trees up to identities and lines

The outline of an expression is what is left of it without identities and lines.  The text
of an expression depends on its outline alone.  The other way round the outline can be read
off the form, as long as every name, keyword and number in it can be told apart.
-/

/-- A name without its line. -/
def Identifier.outline (name : Identifier) : Identifier :=
  { name with line := 0 }

/-- A reference without its identity and its line. -/
def Reference.outline (reference : Reference) : Reference :=
  ⟨0, reference.name.outline⟩

namespace Expr

mutual

/-- An expression without the identities and lines in it. -/
def outline : Expr → Expr
  | .literal value => .literal value
  | .grouping inner => .grouping inner.outline
  | .unary operator _ operand => .unary operator 0 operand.outline
  | .binary operator _ left right => .binary operator 0 left.outline right.outline
  | .logical operator left right => .logical operator left.outline right.outline
  | .reference occurrence => .reference occurrence.outline
  | .assign target value => .assign target.outline value.outline
  | .call callee arguments _ => .call callee.outline (outlines arguments) 0
  | .property object name => .property object.outline name.outline
  | .setProperty object name value =>
      .setProperty object.outline name.outline value.outline
  | .this _ _ => .this 0 0
  | .super _ _ method => .super 0 0 method.outline

/-- Expressions without the identities and lines in them. -/
def outlines : List Expr → List Expr
  | [] => []
  | first :: rest => first.outline :: outlines rest

end

mutual

/-- The text of an expression is that of its outline. -/
theorem display_outline : ∀ value : Expr, value.outline.display = value.display
  | .literal _ => rfl
  | .grouping inner => by simp only [outline, display, inner.display_outline]
  | .unary _ _ operand => by simp only [outline, display, operand.display_outline]
  | .binary _ _ left right => by
      simp only [outline, display, left.display_outline, right.display_outline]
  | .logical _ left right => by
      simp only [outline, display, left.display_outline, right.display_outline]
  | .reference _ => rfl
  | .assign _ value => by
      simp only [outline, display, Reference.outline, Identifier.outline, value.display_outline]
  | .call callee arguments _ => by
      simp only [outline, display, callee.display_outline, displayEach_outlines arguments]
  | .property object _ => by
      simp only [outline, display, Identifier.outline, object.display_outline]
  | .setProperty object _ value => by
      simp only [outline, display, Identifier.outline, object.display_outline,
        value.display_outline]
  | .this _ _ => rfl
  | .super _ _ _ => rfl

/-- Expressions in a row are displayed as their outlines. -/
theorem displayEach_outlines :
    ∀ values : List Expr, displayEach (outlines values) = displayEach values
  | [] => rfl
  | first :: rest => by
      simp only [outlines, displayEach, first.display_outline, displayEach_outlines rest]

end

end Expr

/-! ## Reading outlines -/

namespace Form

/-- The outline that a word stands for: a number, a keyword or else a name. -/
def readWord (word : String) : Expr :=
  if word.toList.head?.any Char.isDigit then
    .literal (.number (Number.ofDecimal (Number.scientific word.toList)))
  else
    match Keyword.ofSpelling? word with
    | some .nilWord => .literal .nil
    | some .trueWord => .literal (.bool true)
    | some .falseWord => .literal (.bool false)
    | some .thisWord => .this 0 0
    | _ => .reference ⟨0, ⟨word, 0⟩⟩

/-- The outline that a head with some items stands for, told by both of them. -/
def readNode : String → List Expr → Option Expr
  | "group", [inner] => some (.grouping inner)
  | "!", [operand] => some (.unary .not 0 operand)
  | "-", [operand] => some (.unary .negate 0 operand)
  | "super", [.reference method] => some (.super 0 0 method.name)
  | "call", callee :: arguments => some (.call callee arguments 0)
  | "=", [.reference target, value] => some (.assign target value)
  | "=", [_, .reference name, object, value] => some (.setProperty object name.name value)
  | ".", [.reference name, object] => some (.property object name.name)
  | "and", [left, right] => some (.logical .and left right)
  | "or", [left, right] => some (.logical .or left right)
  | "+", [left, right] => some (.binary .add 0 left right)
  | "-", [left, right] => some (.binary .subtract 0 left right)
  | "*", [left, right] => some (.binary .multiply 0 left right)
  | "/", [left, right] => some (.binary .divide 0 left right)
  | ">", [left, right] => some (.binary .greater 0 left right)
  | ">=", [left, right] => some (.binary .greaterEqual 0 left right)
  | "<", [left, right] => some (.binary .less 0 left right)
  | "<=", [left, right] => some (.binary .lessEqual 0 left right)
  | "==", [left, right] => some (.binary .equal 0 left right)
  | "!=", [left, right] => some (.binary .notEqual 0 left right)
  | _, _ => none

mutual

/-- The outline that a form stands for, if it does for one. -/
def read? : Form → Option Expr
  | .atom text => some (readWord text)
  | .node head items => (readAll? items).bind (readNode head)

/-- The outlines of forms that stand for one each. -/
def readAll? : List Form → Option (List Expr)
  | [] => some []
  | first :: rest => first.read?.bind fun value => (readAll? rest).map (value :: ·)

end

end Form

/-! ## Legible trees -/

/-- A word that is neither a number nor a keyword. -/
structure IsName (text : String) : Prop where
  solid : Form.Solid text
  noNumber : text.toList.head?.any Char.isDigit = false
  noKeyword : ∀ word : Keyword, word.spelling ≠ text

/-- A literal whose text is that of no other expression: a string may be shown like anything. -/
def Literal.IsLegible : Literal → Prop
  | .number value => value.magnitude < Number.infinityBits ∧ value.isNegative = false
  | .string _ => False
  | _ => True

/-- What an expression says itself, apart from its parts, is legible. -/
def Expr.IsLegible : Expr → Prop
  | .literal value => value.IsLegible
  | .reference occurrence => IsName occurrence.name.text
  | .assign target _ => IsName target.name.text
  | .property _ name => IsName name.text
  | .setProperty _ name _ => IsName name.text
  | .super _ _ method => IsName method.text
  | _ => True

/-- The same of a node; what statements and functions say is left open. -/
def Node.IsLegible : Node → Prop
  | .expression value => value.IsLegible
  | _ => True

/-- An expression that is legible everywhere. -/
def Expr.Legible (value : Expr) : Prop :=
  (Node.expression value).Everywhere Node.IsLegible

/-- The parts of a legible expression are legible. -/
theorem Expr.Legible.part
    {whole part : Expr}
    (legible : whole.Legible)
    (isPart : Node.Part (.expression part) (.expression whole)) :
    part.Legible :=
  fun node occurs => legible node (occurs.trans (.inside .here isPart))

theorem Expr.Legible.own {value : Expr} (legible : value.Legible) : value.IsLegible :=
  legible _ .here

/-! ### Words -/

namespace Form

/-- A name is read as a variable. -/
theorem readWord_name {text : String} (isName : IsName text) :
    readWord text = .reference ⟨0, ⟨text, 0⟩⟩ := by
  have noKeyword : Keyword.ofSpelling? text = none :=
    List.find?_eq_none.mpr fun word _ same => isName.noKeyword word (of_decide_eq_true same)
  simp [readWord, isName.noNumber, noKeyword]

/-- A digit does not end a word. -/
theorem isSolid_of_isDigit {mark : Char} (digit : mark.isDigit) : isSolid mark := by
  simp only [isSolid, Bool.and_eq_true, bne_iff_ne]
  refine ⟨⟨?_, ?_⟩, ?_⟩
  all_goals
    rintro rfl
    cases digit

/-- A number that is neither infinite nor negative is displayed as one word. -/
theorem solid_literalText
    {value : Number}
    (finite : value.magnitude < Number.infinityBits)
    (positive : value.isNegative = false) :
    Solid value.literalText := by
  have written := Number.written_text Number.isSuffix_explicit finite positive
  obtain ⟨first, rest, shape, -⟩ := written.starts
  have marks : ['.', 'e', '-'].all isSolid := by decide
  refine ⟨by simp [Number.literalText, shape], List.all_eq_true.mpr fun mark member => ?_⟩
  rcases written.inside mark member with digit | other
  · exact isSolid_of_isDigit digit
  · exact List.all_eq_true.mp marks mark other

/-- The word of a number that is neither infinite nor negative is read as this number. -/
theorem readWord_literalText
    {value : Number}
    (finite : value.magnitude < Number.infinityBits)
    (positive : value.isNegative = false) :
    readWord value.literalText = .literal (.number value) := by
  have written := Number.written_text Number.isSuffix_explicit finite positive
  obtain ⟨first, rest, shape, digit⟩ := written.starts
  have isNumber : value.literalText.toList.head?.any Char.isDigit := by
    rw [Number.literalText, shape]
    exact digit
  rw [readWord, if_pos isNumber, Number.literalText,
    Number.ofDecimal_text Number.isSuffix_explicit finite positive]

/-- A legible literal is displayed as one word. -/
theorem solid_display {value : Literal} (legible : value.IsLegible) : Solid value.display := by
  cases value with
  | nil => exact ⟨by decide, by decide⟩
  | bool value => cases value <;> exact ⟨by decide, by decide⟩
  | number value => exact solid_literalText legible.1 legible.2
  | string contents => exact legible.elim

/-- The word of a legible literal is read as this literal. -/
theorem readWord_display {value : Literal} (legible : value.IsLegible) :
    readWord value.display = .literal value := by
  cases value with
  | nil => rfl
  | bool value => cases value <;> rfl
  | number value => exact readWord_literalText legible.1 legible.2
  | string contents => exact legible.elim

end Form

/-! ### Expressions -/

namespace Expr

mutual

/-- The form of a legible expression can be read back. -/
theorem proper_form : ∀ value : Expr, value.Legible → value.form.Proper
  | .literal _, legible => .atom (Form.solid_display legible.own)
  | .grouping inner, legible =>
      .node ⟨by decide, by decide⟩ (by simpa using inner.proper_form (legible.part .grouped))
  | .unary operator _ operand, legible =>
      .node (by cases operator <;> exact ⟨by decide, by decide⟩)
        (by simpa using operand.proper_form (legible.part .operand))
  | .binary operator _ left right, legible =>
      .node (by cases operator <;> exact ⟨by decide, by decide⟩)
        (by simpa using ⟨left.proper_form (legible.part .leftOperand),
          right.proper_form (legible.part .rightOperand)⟩)
  | .logical operator left right, legible =>
      .node (by cases operator <;> exact ⟨by decide, by decide⟩)
        (by simpa using ⟨left.proper_form (legible.part .leftCondition),
          right.proper_form (legible.part .rightCondition)⟩)
  | .reference _, legible => .atom legible.own.solid
  | .assign _ value, legible =>
      .node ⟨by decide, by decide⟩
        (by simpa using ⟨.atom legible.own.solid, value.proper_form (legible.part .assigned)⟩)
  | .call callee arguments _, legible =>
      .node ⟨by decide, by decide⟩
        (List.forall_mem_cons.mpr ⟨callee.proper_form (legible.part .callee),
          proper_forms arguments fun _ member => legible.part (.argument member)⟩)
  | .property object _, legible =>
      .node ⟨by decide, by decide⟩
        (by simpa using ⟨.atom legible.own.solid, object.proper_form (legible.part .object)⟩)
  | .setProperty object _ value, legible =>
      .node ⟨by decide, by decide⟩
        (by simpa using ⟨.atom ⟨by decide, by decide⟩, .atom legible.own.solid,
          object.proper_form (legible.part .owner), value.proper_form (legible.part .field)⟩)
  | .this _ _, _ => .atom ⟨by decide, by decide⟩
  | .super _ _ _, legible =>
      .node ⟨by decide, by decide⟩ (by simpa using .atom legible.own.solid)

/-- The forms of legible expressions can be read back. -/
theorem proper_forms :
    ∀ values : List Expr, (∀ value ∈ values, value.Legible) →
      ∀ item ∈ forms values, item.Proper
  | [], _ => nofun
  | first :: rest, legible => by
      obtain ⟨here, later⟩ := List.forall_mem_cons.mp legible
      exact List.forall_mem_cons.mpr ⟨first.proper_form here, proper_forms rest later⟩

end

mutual

/-- The outline of a legible expression is read off its form. -/
theorem read?_form : ∀ value : Expr, value.Legible → value.form.read? = some value.outline
  | .literal _, legible => congrArg some (Form.readWord_display legible.own)
  | .grouping inner, legible => by
      simp only [form, Form.read?, Form.readAll?, inner.read?_form (legible.part .grouped),
        Option.bind_some, Option.map_some]
      rfl
  | .unary operator _ operand, legible => by
      simp only [form, Form.read?, Form.readAll?, operand.read?_form (legible.part .operand),
        Option.bind_some, Option.map_some]
      cases operator <;> rfl
  | .binary operator _ left right, legible => by
      simp only [form, Form.read?, Form.readAll?, left.read?_form (legible.part .leftOperand),
        right.read?_form (legible.part .rightOperand), Option.bind_some, Option.map_some]
      cases operator <;> rfl
  | .logical operator left right, legible => by
      simp only [form, Form.read?, Form.readAll?, left.read?_form (legible.part .leftCondition),
        right.read?_form (legible.part .rightCondition), Option.bind_some, Option.map_some]
      cases operator <;> rfl
  | .reference _, legible => congrArg some (Form.readWord_name legible.own)
  | .assign _ value, legible => by
      simp only [form, Form.read?, Form.readAll?, value.read?_form (legible.part .assigned),
        Form.readWord_name legible.own, Option.bind_some, Option.map_some]
      rfl
  | .call callee arguments _, legible => by
      simp only [form, Form.read?, Form.readAll?, callee.read?_form (legible.part .callee),
        readAll?_forms arguments fun _ member => legible.part (.argument member),
        Option.bind_some, Option.map_some]
      rfl
  | .property object _, legible => by
      simp only [form, Form.read?, Form.readAll?, object.read?_form (legible.part .object),
        Form.readWord_name legible.own, Option.bind_some, Option.map_some]
      rfl
  | .setProperty object _ value, legible => by
      simp only [form, Form.read?, Form.readAll?, object.read?_form (legible.part .owner),
        value.read?_form (legible.part .field), Form.readWord_name legible.own,
        Option.bind_some, Option.map_some]
      rfl
  | .this _ _, _ => rfl
  | .super _ _ _, legible => by
      simp only [form, Form.read?, Form.readAll?, Form.readWord_name legible.own,
        Option.bind_some, Option.map_some]
      rfl

/-- Forms in a row are read as the outlines of the expressions. -/
theorem readAll?_forms :
    ∀ values : List Expr, (∀ value ∈ values, value.Legible) →
      Form.readAll? (forms values) = some (outlines values)
  | [], _ => rfl
  | first :: rest, legible => by
      obtain ⟨here, later⟩ := List.forall_mem_cons.mp legible
      simp only [forms, Form.readAll?, first.read?_form here, readAll?_forms rest later,
        Option.bind_some, Option.map_some, outlines]

end

/-- Legible expressions have the same text exactly if they have the same outline. -/
theorem display_eq_iff
    {left right : Expr}
    (legible : left.Legible)
    (legible' : right.Legible) :
    left.display = right.display ↔ left.outline = right.outline := by
  constructor
  · intro same
    have sameForm : left.form = right.form := by
      refine Form.text_inj (left.proper_form legible) (right.proper_form legible') ?_
      rw [← toList_display, same, toList_display]
    refine Option.some.inj ?_
    rw [← left.read?_form legible, sameForm, right.read?_form legible']
  · intro same
    rw [← display_outline left, same, display_outline]

end Expr

end Lox
