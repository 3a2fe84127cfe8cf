import Lox.Syntax.Display
import Mathlib.Data.List.TakeWhile

namespace Lox

/-!
# Parenthesized forms

The text of a syntax tree is that of a form: an atom, or an operator in parentheses with
the forms that it is applied to.  As long as no blank and no parenthesis is part of an atom,
the text of a form can be read in one way only.
-/

/-- An atom, or a head in parentheses with items behind it. -/
inductive Form where
  | atom (text : String)
  | node (head : String) (items : List Form)

namespace Form

mutual

/-- The characters of a form. -/
def text : Form → List Char
  | .atom text => text.toList
  | .node head items => '(' :: (head.toList ++ (texts items ++ [')']))

/-- The characters of forms, each after a blank. -/
def texts : List Form → List Char
  | [] => []
  | first :: rest => ' ' :: (first.text ++ texts rest)

end

/-- Whether a character stands within a word. -/
def isSolid (mark : Char) : Bool :=
  mark != ' ' && mark != '(' && mark != ')'

/-- A nonempty text without a blank or a parenthesis. -/
structure Solid (word : String) : Prop where
  nonempty : word.toList ≠ []
  inside : word.toList.all isSolid

/-- A form in which all words are solid. -/
inductive Proper : Form → Prop where
  | atom {text : String} (solid : Solid text) : Proper (.atom text)
  | node
      {head : String}
      {items : List Form}
      (solid : Solid head)
      (proper : ∀ item ∈ items, Proper item) :
      Proper (.node head items)

/-- What may follow a form: nothing, a blank or a closing parenthesis. -/
def Stops (rest : List Char) : Prop :=
  ∀ mark ∈ rest.head?, mark = ' ' ∨ mark = ')'

/-! ## Reading in one way -/

section

variable {rest rest' : List Char}

theorem takeWhile_solid {word : String} (solid : Solid word) (stops : Stops rest) :
    (word.toList ++ rest).takeWhile isSolid = word.toList := by
  have ended : rest.takeWhile isSolid = [] := by
    cases rest with
    | nil => rfl
    | cons mark later => rcases stops mark rfl with rfl | rfl <;> rfl
  rw [List.takeWhile_append_of_pos (List.all_eq_true.mp solid.inside), ended, List.append_nil]

/-- A word ends where something stops it. -/
theorem solid_append_inj
    {word word' : String}
    (solid : Solid word)
    (solid' : Solid word')
    (stops : Stops rest)
    (stops' : Stops rest')
    (same : word.toList ++ rest = word'.toList ++ rest') :
    word = word' ∧ rest = rest' := by
  have words : word.toList = word'.toList := by
    rw [← takeWhile_solid solid stops, same, takeWhile_solid solid' stops']
  rw [words] at same
  exact ⟨String.toList_inj.mp words, List.append_cancel_left same⟩

/-- No word starts like a node. -/
theorem solid_ne_node {word : String} (solid : Solid word) (rest later : List Char) :
    word.toList ++ rest ≠ '(' :: later := by
  obtain ⟨first, tail, shape⟩ := List.exists_cons_of_ne_nil solid.nonempty
  have inside := List.all_eq_true.mp solid.inside first (by simp [shape])
  rw [shape]
  rintro same
  obtain rfl := (List.cons.inj same).1
  cases inside

theorem stops_texts (items : List Form) (rest : List Char) :
    Stops (texts items ++ ')' :: rest) := by
  intro mark isFirst
  cases items with
  | nil => exact .inr (Option.some.inj isFirst).symm
  | cons first others => exact .inl (Option.some.inj isFirst).symm

end

mutual

/-- The text of a form with something behind it that stops it is the text of no other form. -/
theorem text_append_inj :
    ∀ (left right : Form) {rest rest' : List Char},
      left.Proper → right.Proper → Stops rest → Stops rest' →
        left.text ++ rest = right.text ++ rest' → left = right ∧ rest = rest'
  | .atom _, .atom _, _, _, .atom solid, .atom solid', stops, stops', same => by
      obtain ⟨rfl, behind⟩ := solid_append_inj solid solid' stops stops' same
      exact ⟨rfl, behind⟩
  | .atom _, .node _ _, _, _, .atom solid, _, _, _, same =>
      absurd same (solid_ne_node solid _ _)
  | .node _ _, .atom _, _, _, _, .atom solid, _, _, same =>
      absurd same.symm (solid_ne_node solid _ _)
  | .node head items, .node head' items', rest, rest', .node solid proper, .node solid' proper',
      _, _, same => by
      simp only [text, List.cons_append, List.append_assoc, List.cons.injEq, true_and,
        List.nil_append] at same
      obtain ⟨rfl, behind⟩ :=
        solid_append_inj solid solid' (stops_texts items rest) (stops_texts items' rest') same
      obtain ⟨rfl, ended⟩ := texts_append_inj items items' proper proper' behind
      exact ⟨rfl, ended⟩

/-- The same of forms in a row, up to the parenthesis behind them. -/
theorem texts_append_inj :
    ∀ (items items' : List Form) {rest rest' : List Char},
      (∀ item ∈ items, Proper item) → (∀ item ∈ items', Proper item) →
        texts items ++ ')' :: rest = texts items' ++ ')' :: rest' →
          items = items' ∧ rest = rest'
  | [], [], _, _, _, _, same => ⟨rfl, (List.cons.inj same).2⟩
  | [], _ :: _, _, _, _, _, same => by cases (List.cons.inj same).1
  | _ :: _, [], _, _, _, _, same => by cases (List.cons.inj same).1
  | first :: others, first' :: others', rest, rest', proper, proper', same => by
      simp only [texts, List.cons_append, List.append_assoc, List.cons.injEq, true_and] at same
      obtain ⟨isProper, properOthers⟩ := List.forall_mem_cons.mp proper
      obtain ⟨isProper', properOthers'⟩ := List.forall_mem_cons.mp proper'
      obtain ⟨rfl, behind⟩ := text_append_inj first first' isProper isProper'
        (stops_texts others rest) (stops_texts others' rest') same
      obtain ⟨rfl, ended⟩ := texts_append_inj others others' properOthers properOthers' behind
      exact ⟨rfl, ended⟩

end

/-- Forms with the same text are the same. -/
theorem text_inj
    {left right : Form}
    (proper : left.Proper)
    (proper' : right.Proper)
    (same : left.text = right.text) :
    left = right := by
  have nothing : Stops [] := nofun
  exact (text_append_inj left right proper proper' nothing nothing (by rw [same])).1

end Form

/-! ## The forms of expressions -/

namespace Expr

mutual

/-- The form of an expression. -/
def form : Expr → Form
  | .literal value => .atom value.display
  | .grouping inner => .node "group" [inner.form]
  | .unary operator _ operand => .node operator.spelling [operand.form]
  | .binary operator _ left right => .node operator.spelling [left.form, right.form]
  | .logical operator left right => .node operator.spelling [left.form, right.form]
  | .reference occurrence => .atom occurrence.name.text
  | .assign target value => .node "=" [.atom target.name.text, value.form]
  | .call callee arguments _ => .node "call" (callee.form :: forms arguments)
  | .property object name => .node "." [.atom name.text, object.form]
  | .setProperty object name value =>
      .node "=" [.atom ".", .atom name.text, object.form, value.form]
  | .this _ _ => .atom receiverName
  | .super _ _ method => .node "super" [.atom method.text]

/-- The forms of expressions. -/
def forms : List Expr → List Form
  | [] => []
  | first :: rest => first.form :: forms rest

end

mutual

theorem toList_display : ∀ value : Expr, value.display.toList = value.form.text
  | .literal _ => rfl
  | .grouping inner => by simp [display, form, Form.text, Form.texts, inner.toList_display]
  | .unary _ _ operand => by simp [display, form, Form.text, Form.texts, operand.toList_display]
  | .binary _ _ left right => by
      simp [display, form, Form.text, Form.texts, left.toList_display, right.toList_display]
  | .logical _ left right => by
      simp [display, form, Form.text, Form.texts, left.toList_display, right.toList_display]
  | .reference _ => rfl
  | .assign _ value => by simp [display, form, Form.text, Form.texts, value.toList_display]
  | .call callee arguments _ => by
      simp [display, form, Form.text, Form.texts, callee.toList_display,
        toList_displayEach arguments]
  | .property object _ => by simp [display, form, Form.text, Form.texts, object.toList_display]
  | .setProperty object _ value => by
      simp [display, form, Form.text, Form.texts, object.toList_display, value.toList_display]
  | .this _ _ => rfl
  | .super _ _ _ => by simp [display, form, Form.text, Form.texts]

theorem toList_displayEach :
    ∀ values : List Expr, (displayEach values).toList = Form.texts (forms values)
  | [] => rfl
  | first :: rest => by
      simp [displayEach, forms, Form.texts, first.toList_display, toList_displayEach rest]

end

end Expr

end Lox
