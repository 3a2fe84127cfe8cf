import Lox.Proofs.Grammar.ExpressionExact
import Lox.Proofs.Grammar.ProgramExact

namespace Lox.Grammar

/-!
# The program that prints an expression

A derivation does not look at what stands behind its tokens.  So an expression that takes
all tokens of a list is the same expression between `print` and a semicolon, up to the
identities that its occurrences get.
-/

mutual

/-- A derivation of an expression has any tokens behind it. -/
theorem Derives.behind (tail : List Token) :
    ∀ {nonterminal before tree after},
      Derives nonterminal before tree after →
      Derives nonterminal (before ++ tail) tree (after ++ tail)
  | _, _, _, _, .assignment named equals value =>
      .assignment named equals (value.behind tail)
  | _, _, _, _, .propertyAssignment object dot named equals value =>
      .propertyAssignment (object.behind tail) dot named equals (value.behind tail)
  | _, _, _, _, .operation derived => .operation (derived.behind tail)
  | _, _, _, _, .operand derived => .operand (derived.behind tail)
  | _, _, _, _, .joined left joins right =>
      .joined (left.behind tail) joins (right.behind tail)
  | _, _, _, _, .signed signs operand => .signed signs (operand.behind tail)
  | _, _, _, _, .unsigned derived => .unsigned (derived.behind tail)
  | _, _, _, _, .uncalled derived => .uncalled (derived.behind tail)
  | _, _, _, _, .emptyCall callee opening closing =>
      .emptyCall (callee.behind tail) opening closing
  | _, _, _, _, .call callee opening arguments few closing =>
      .call (callee.behind tail) opening (arguments.behind tail) few closing
  | _, _, _, _, .property object dot named => .property (object.behind tail) dot named
  | _, _, _, _, .literal denotes => .literal denotes
  | _, _, _, _, .reference named => .reference named
  | _, _, _, _, .this kind => .this kind
  | _, _, _, _, .super kind dot named => .super kind dot named
  | _, _, _, _, .grouping opening inner closing =>
      .grouping opening (inner.behind tail) closing

/-- A derivation of arguments has any tokens behind it. -/
theorem DerivesArguments.behind (tail : List Token) :
    ∀ {before trees after},
      DerivesArguments before trees after →
      DerivesArguments (before ++ tail) trees (after ++ tail)
  | _, _, _, .last derived => .last (derived.behind tail)
  | _, _, _, .more first comma rest => .more (first.behind tail) comma (rest.behind tail)

end

/-- An expression between `print` and a semicolon is a program that prints it. -/
theorem Derives.printed
    {tokens : List Token}
    {tree : Expr}
    (derived : Derives .expression tokens tree [])
    {keyword semicolon : Token}
    (isPrint : keyword.kind = .keyword .printWord)
    (isSemicolon : semicolon.kind = .symbol .semicolon) :
    DerivesProgram (keyword :: (tokens ++ [semicolon])) [.print tree] :=
  .more (.statement (.print isPrint (derived.behind [semicolon]) isSemicolon)) .none

/-- A reader starts with the tokens in front of the end marker. -/
theorem Reader.start_rest_of_ended
    {tokens : List Token}
    (plain : ∀ token ∈ tokens, token.kind ≠ .endOfInput)
    {marker : Token}
    (isEnd : marker.kind = .endOfInput)
    (nextId : NodeId) :
    (Reader.start (tokens ++ [marker]) nextId).rest = tokens := by
  have all : ∀ token ∈ tokens, (!Reader.isEnd token) = true := by
    intro token member
    simpa [Reader.isEnd] using plain token member
  have ended : [marker].takeWhile (!Reader.isEnd ·) = [] := by
    simp [Reader.isEnd, isEnd]
  calc
    (tokens ++ [marker]).takeWhile (!Reader.isEnd ·)
        = tokens ++ [marker].takeWhile (!Reader.isEnd ·) := List.takeWhile_append_of_pos all
    _ = tokens := by rw [ended, List.append_nil]

/-- What is read as an expression is printed by the program with `print` and a semicolon. -/
theorem program_of_printed
    {tokens : List Token}
    {tree : Expr}
    {reader final : Reader}
    (given : wholeExpression reader = .ok tree final)
    (shape : reader.rest = tokens)
    {keyword semicolon : Token}
    (isPrint : keyword.kind = .keyword .printWord)
    (isSemicolon : semicolon.kind = .symbol .semicolon)
    {around : Reader}
    (between : around.rest = keyword :: (tokens ++ [semicolon])) :
    ∃ found after,
      program around = .ok [.print found] after ∧ found.shape = tree.shape := by
  obtain ⟨parsed, ended⟩ := wholeExpression_reads given
  have derived := parsed.derived
  rw [shape, ended] at derived
  obtain ⟨statements, after, read, likes⟩ :=
    (derived.printed isPrint isSemicolon).taken between
  cases statements with
  | nil => cases likes
  | cons first rest =>
      obtain ⟨isFirst, others⟩ := List.cons.inj likes
      obtain ⟨found, rfl, same⟩ := Stmt.eq_print_of_shape isFirst
      cases rest with
      | nil => exact ⟨found, after, read, same⟩
      | cons => cases others

end Lox.Grammar
