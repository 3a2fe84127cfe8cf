import Lox.Proofs.Grammar.WellFormed
import Lox.Proofs.Source.Rescanned
import Lox.Proofs.Syntax.Outlines

namespace Lox.Grammar

open Source (Genuine Lexeme IsWord isLetter isWordByte)
open Text.Utf8 (decodeLossy)

/-!
# Displayed trees

The text of a tree that was read off scanned tokens shows the tree.  The names in it are
identifiers, so they are neither numbers nor keywords; the numbers are those of tokens, so
they are not negative.  Where there is no string, which might look like anything, and no
number that is shown as infinity, the text tells the tree up to identities and lines.
-/

/-! ## Words -/

/-- No byte of a word is a blank or a parenthesis, and no letter is a digit. -/
theorem mark_of_isWordByte {byte : UInt8} (given : isWordByte byte) :
    Form.isSolid (Char.ofNat byte.toNat) ∧
      (isLetter byte → (Char.ofNat byte.toNat).isDigit = false) := by
  have each : ∀ number : Fin 128, isWordByte (UInt8.ofNat number.val) →
      Form.isSolid (Char.ofNat number.val) ∧
        (isLetter (UInt8.ofNat number.val) → (Char.ofNat number.val).isDigit = false) := by
    decide
  have small : byte.toNat < 128 := UInt8.lt_iff_toNat_lt.mp (Source.ascii_of_isWordByte given)
  simpa using each ⟨byte.toNat, small⟩ (by simpa using given)

/-- The text of an identifier is a name. -/
theorem isName_of_lexeme {bytes : List UInt8} (lexeme : Lexeme bytes .identifier) :
    IsName (decodeLossy bytes) := by
  have noKeyword := lexeme.ne_spelling
  obtain ⟨first, tail, rfl, word⟩ : ∃ first tail, bytes = first :: tail ∧ IsWord first tail := by
    generalize isIdentifier : TokenKind.identifier = kind at lexeme
    cases lexeme with
    | identifier starts continues _ => exact ⟨_, _, rfl, starts, continues⟩
    | _ => cases isIdentifier
  have marks : (decodeLossy (first :: tail)).toList =
      (first :: tail).map fun byte => Char.ofNat byte.toNat := by
    simp [decodeLossy, Source.decode_of_ascii word.ascii]
  have starts := mark_of_isWordByte (Source.isWordByte_of_isLetter word.starts)
  refine ⟨⟨by simp [marks], ?_⟩, ?_, fun keyword same => noKeyword keyword same.symm⟩
  · rw [marks, List.all_eq_true]
    intro mark member
    obtain ⟨byte, inWord, rfl⟩ := List.mem_map.mp member
    rcases List.mem_cons.mp inWord with rfl | inTail
    · exact starts.1
    · exact (mark_of_isWordByte (word.continues byte inTail)).1
  · rw [marks]
    exact starts.2 word.starts

section

variable {tokens : List Token}

/-! ## Literals -/

/-- A literal is the value of one of the tokens. -/
def IsDenoted (tokens : List Token) : Node → Prop
  | .expression (.literal value) => ∃ token ∈ tokens, Denotes token.kind value
  | _ => True

theorem Joins.denoted
    {level : Level}
    {operator : Token}
    {left right whole : Expr}
    (joins : Joins level operator left right whole)
    (denotedLeft : (Node.expression left).Everywhere (IsDenoted tokens))
    (denotedRight : (Node.expression right).Everywhere (IsDenoted tokens)) :
    (Node.expression whole).Everywhere (IsDenoted tokens) := by
  cases joins with
  | or | and =>
      exact .of_parts trivial fun
        | _, .leftCondition => denotedLeft
        | _, .rightCondition => denotedRight
  | _ =>
      exact .of_parts trivial fun
        | _, .leftOperand => denotedLeft
        | _, .rightOperand => denotedRight

mutual

/-- Every literal in a derived tree is the value of a token. -/
theorem Derives.denoted :
    ∀ {nonterminal before tree after},
      Derives nonterminal before tree after →
      before ⊆ tokens → (Node.expression tree).Everywhere (IsDenoted tokens)
  | _, _, _, _, .assignment _ _ value, among =>
      .of_parts trivial fun
        | _, .assigned =>
            value.denoted (List.subset_of_cons_subset (List.subset_of_cons_subset among))
  | _, _, _, _, .propertyAssignment object _ _ _ value, among => by
      have dotted := (object.wellFormed among).2
      have assigned := List.subset_of_cons_subset (List.subset_of_cons_subset dotted)
      exact .of_parts trivial fun
        | _, .owner => object.denoted among
        | _, .field => value.denoted (List.subset_of_cons_subset assigned)
  | _, _, _, _, .operation derived, among => derived.denoted among
  | _, _, _, _, .operand derived, among => derived.denoted among
  | _, _, _, _, .joined left joins right, among => by
      have behind := List.subset_of_cons_subset (left.wellFormed among).2
      exact joins.denoted (left.denoted among) (right.denoted behind)
  | _, _, _, _, .signed _ operand, among =>
      .of_parts trivial fun | _, .operand => operand.denoted (List.subset_of_cons_subset among)
  | _, _, _, _, .unsigned derived, among => derived.denoted among
  | _, _, _, _, .uncalled derived, among => derived.denoted among
  | _, _, _, _, .emptyCall callee _ _, among =>
      .of_parts trivial fun | _, .callee => callee.denoted among
  | _, _, _, _, .call callee _ arguments _ _, among =>
      .of_parts trivial fun
        | _, .callee => callee.denoted among
        | _, .argument member =>
            arguments.denoted (List.subset_of_cons_subset (callee.wellFormed among).2) _ member
  | _, _, _, _, .property object _ _, among =>
      .of_parts trivial fun | _, .object => object.denoted among
  | _, _, _, _, .literal denotes, among =>
      .of_parts ⟨_, (List.cons_subset.mp among).1, denotes⟩ nofun
  | _, _, _, _, .reference _, _ => .of_parts trivial nofun
  | _, _, _, _, .this _, _ => .of_parts trivial nofun
  | _, _, _, _, .super _ _ _, _ => .of_parts trivial nofun
  | _, _, _, _, .grouping _ inner _, among =>
      .of_parts trivial fun | _, .grouped => inner.denoted (List.subset_of_cons_subset among)

theorem DerivesArguments.denoted :
    ∀ {before trees after},
      DerivesArguments before trees after →
      before ⊆ tokens →
        ∀ tree ∈ trees, (Node.expression tree).Everywhere (IsDenoted tokens)
  | _, _, _, .last derived, among => by simpa using derived.denoted among
  | _, _, _, .more first _ rest, among =>
      List.forall_mem_cons.mpr ⟨first.denoted among,
        rest.denoted (List.subset_of_cons_subset (first.wellFormed among).2)⟩

end

/-! ## Trees of scanned tokens -/

/-- Every token is one of some source. -/
def Scanned (tokens : List Token) : Prop :=
  ∀ token ∈ tokens, ∃ source, token ∈ Source.tokens source

/-- A literal is no string, and no number that is shown as infinity. -/
def IsPlain : Literal → Prop
  | .number value => value.isInfinite = false
  | .string _ => False
  | _ => True

variable (scanned : Scanned tokens)

include scanned

theorem isName_of_named {name : Identifier} (named : NamedIn tokens name) : IsName name.text := by
  obtain ⟨token, member, kind, text, -⟩ := named
  obtain ⟨source, inSource⟩ := scanned token member
  rcases Source.genuine_of_mem_tokens inSource with ends | ⟨bytes, lexeme, spelled⟩
  · rw [kind] at ends
    cases ends
  · rw [kind] at lexeme
    rw [text, spelled]
    exact isName_of_lexeme lexeme

theorem isLegible_of_denoted
    {value : Literal}
    (denoted : ∃ token ∈ tokens, Denotes token.kind value)
    (plain : IsPlain value) :
    value.IsLegible := by
  obtain ⟨token, member, denotes⟩ := denoted
  cases value with
  | nil => trivial
  | bool _ => trivial
  | string _ => exact plain
  | number value =>
      generalize same : token.kind = kind at denotes
      cases denotes
      obtain ⟨source, inSource⟩ := scanned token member
      rcases Source.genuine_of_mem_tokens inSource with ends | ⟨bytes, lexeme, -⟩
      · rw [same] at ends
        cases ends
      · rw [same] at lexeme
        obtain rfl := lexeme.number_of_text
        exact ⟨Number.magnitude_read_lt plain, Number.isNegative_read _⟩

/-- What a parser gives of scanned tokens is legible, but for strings and infinities. -/
theorem legible_of_wholeExpression
    {nextId : NodeId}
    {value : Expr}
    {final : Reader}
    (given : wholeExpression (Reader.start tokens nextId) = .ok value final)
    (plain : ∀ literal, (Node.expression (.literal literal)).Occurs (.expression value) →
      IsPlain literal) :
    value.Legible := by
  have derived := (wholeExpression_reads given).1.derived
  have among : (Reader.start tokens nextId).rest ⊆ tokens := List.takeWhile_subset _
  have formed := (derived.wellFormed among).1
  have denoted := derived.denoted among
  intro node occurs
  have forms := formed node occurs
  have isDenoted := denoted node occurs
  cases node with
  | statement _ => trivial
  | function _ => trivial
  | expression part =>
      cases part with
      | literal literal => exact isLegible_of_denoted scanned isDenoted (plain literal occurs)
      | reference _ => exact isName_of_named scanned forms
      | assign _ _ => exact isName_of_named scanned forms
      | property _ _ => exact isName_of_named scanned forms
      | setProperty _ _ _ => exact isName_of_named scanned forms
      | super _ _ _ => exact isName_of_named scanned forms.2
      | _ => trivial

end

/--
Two trees that a parser gives of scanned tokens, without strings and without numbers that
are shown as infinity, have the same text exactly if they are the same tree up to the
identities and the lines in them.
-/
theorem display_faithful
    {tokens tokens' : List Token}
    (scanned : Scanned tokens)
    (scanned' : Scanned tokens')
    {nextId nextId' : NodeId}
    {left right : Expr}
    {final final' : Reader}
    (given : wholeExpression (Reader.start tokens nextId) = .ok left final)
    (given' : wholeExpression (Reader.start tokens' nextId') = .ok right final')
    (plain : ∀ literal, (Node.expression (.literal literal)).Occurs (.expression left) →
      IsPlain literal)
    (plain' : ∀ literal, (Node.expression (.literal literal)).Occurs (.expression right) →
      IsPlain literal) :
    left.display = right.display ↔ left.outline = right.outline :=
  Expr.display_eq_iff
    (legible_of_wholeExpression scanned given plain)
    (legible_of_wholeExpression scanned' given' plain')

/-- The trees of `-1` on the first line and on the second one differ, but not in their texts. -/
theorem display_faithful_negated :
    let one := Literal.number (Number.read "1")
    let tree (line : Nat) := Expr.unary .negate line (.literal one)
    let tokens := Source.tokens (Text.Utf8.encode "-1")
    let tokens' := Source.tokens (Text.Utf8.encode "\n-1")
    Scanned tokens ∧
      Scanned tokens' ∧
      (∃ final, wholeExpression (Reader.start tokens 0) = .ok (tree 1) final) ∧
      (∃ final, wholeExpression (Reader.start tokens' 0) = .ok (tree 2) final) ∧
      (∀ line literal, (Node.expression (.literal literal)).Occurs (.expression (tree line)) →
        IsPlain literal) ∧
      tree 1 ≠ tree 2 ∧
      (tree 1).outline = (tree 2).outline ∧
      (tree 1).display = (tree 2).display := by
  intro one tree tokens tokens'
  have scanned : Scanned tokens := fun _ member => ⟨_, member⟩
  have scanned' : Scanned tokens' := fun _ member => ⟨_, member⟩
  have plain : ∀ line literal,
      (Node.expression (.literal literal)).Occurs (.expression (tree line)) →
        IsPlain literal := by
    intro line literal occurs
    cases occurs with
    | inside occurs isPart =>
        cases isPart
        cases occurs with
        | here => rfl
        | inside _ isPart => cases isPart
  obtain ⟨final, given⟩ : ∃ final, wholeExpression (Reader.start tokens 0) = .ok (tree 1) final :=
    ⟨_, rfl⟩
  obtain ⟨final', given'⟩ :
      ∃ final, wholeExpression (Reader.start tokens' 0) = .ok (tree 2) final :=
    ⟨_, rfl⟩
  have differ : tree 1 ≠ tree 2 := by simp [tree]
  exact ⟨scanned, scanned', ⟨final, given⟩, ⟨final', given'⟩, plain, differ, rfl,
    (display_faithful scanned scanned' given given' (plain 1) (plain 2)).mpr rfl⟩

end Lox.Grammar
