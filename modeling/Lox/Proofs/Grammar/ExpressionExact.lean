import Lox.Proofs.Grammar.ExpressionComplete

namespace Lox.Grammar

/-!
# The expression parser accepts exactly its grammar

A token list is read as one expression exactly if the grammar derives it as a
whole, and then every derivation gives the tree that was read, up to identities.
-/

/-- A whole expression that was read is derived from all tokens. -/
theorem wholeExpression_reads
    {reader final : Reader}
    {value : Expr}
    (given : wholeExpression reader = .ok value final) :
    ParsesAs (Derives .expression) Expr.ids reader value final ∧ final.rest = [] := by
  obtain ⟨result, middle, taken, rest⟩ := bind_eq_ok_iff.mp given
  obtain ⟨_, _, looked, read⟩ := bind_eq_ok_iff.mp taken
  rw [get_apply, EStateM.Result.ok.injEq] at looked
  obtain ⟨rfl, rfl⟩ := looked
  obtain ⟨isEnd, _, atEndStep, finished⟩ := bind_eq_ok_iff.mp rest
  simp only [atEnd, EStateM.Result.ok.injEq] at atEndStep
  obtain ⟨rfl, rfl⟩ := atEndStep
  cases ended : middle.rest with
  | nil =>
      simp only [ended, List.isEmpty_nil, ↓reduceIte, pure_apply,
        EStateM.Result.ok.injEq] at finished
      obtain ⟨rfl, rfl⟩ := finished
      exact ⟨expressionWithin_reads _ read, ended⟩
  | cons token tokens => simp [ended, reject] at finished

/-- A token list that derives as a whole is read as a whole. -/
theorem Derives.wholeExpression_taken
    {tokens : List Token}
    {tree : Expr}
    (derived : Derives .expression tokens tree []) :
    Takes wholeExpression tokens (Like tree) [] := by
  intro reader shape
  obtain ⟨value, final, read, left, like⟩ :=
    derived.taken (Nat.le_refl _) (ends_nil _) reader shape
  refine ⟨value, final, ?_, left, like⟩
  have taken : expression reader = .ok value final := by
    rw [expression, bind_of_ok (get_apply reader), shape, read]
  rw [wholeExpression, bind_of_ok taken]
  simp [atEnd, left, bind_apply, pure_apply]

/--
A fresh reader of tokens accepts them as an expression exactly if the grammar
derives them, with at most 255 arguments in every call.  What it gives is derived
itself, and every derivation of the tokens gives the same tree up to identities.
-/
theorem wholeExpression_exact
    (tokens : List Token)
    (nextId : NodeId)
    (plain : ∀ token ∈ tokens, token.kind ≠ .endOfInput) :
    ((∃ value final, wholeExpression (Reader.start tokens nextId) = .ok value final) ↔
        ∃ tree, Derives .expression tokens tree []) ∧
      ∀ value final,
        wholeExpression (Reader.start tokens nextId) = .ok value final →
        Derives .expression tokens value [] ∧
          ∀ tree, Derives .expression tokens tree [] → tree.shape = value.shape := by
  have start := Reader.start_rest plain nextId
  have sound :
      ∀ value final,
        wholeExpression (Reader.start tokens nextId) = .ok value final →
        Derives .expression tokens value [] := by
    intro value final given
    obtain ⟨parsed, ended⟩ := wholeExpression_reads given
    exact start ▸ ended ▸ parsed.derived
  refine ⟨⟨?_, ?_⟩, ?_⟩
  · rintro ⟨value, final, given⟩
    exact ⟨value, sound value final given⟩
  · rintro ⟨tree, derived⟩
    obtain ⟨value, final, given, -, -⟩ := derived.wholeExpression_taken _ start
    exact ⟨value, final, given⟩
  · intro value final given
    refine ⟨sound value final given, ?_⟩
    intro tree derived
    obtain ⟨found, ending, read, -, like⟩ := derived.wholeExpression_taken _ start
    rw [given] at read
    obtain ⟨rfl, -⟩ : value = found ∧ final = ending := by simpa using read
    exact like.symm

/-- The tokens of `point.x = y or nil` are an expression. -/
theorem wholeExpression_exact_property :
    let tokens : List Token :=
      [⟨.identifier, "point", 1⟩, ⟨.symbol .dot, ".", 1⟩, ⟨.identifier, "x", 1⟩,
        ⟨.symbol .equal, "=", 1⟩, ⟨.identifier, "y", 1⟩, ⟨.keyword .orWord, "or", 1⟩,
        ⟨.keyword .nilWord, "nil", 1⟩]
    (∀ token ∈ tokens, token.kind ≠ .endOfInput) ∧
      ∃ tree, Derives .expression tokens tree [] := by
  intro tokens
  have plain : ∀ token ∈ tokens, token.kind ≠ .endOfInput := by decide
  exact ⟨plain, (wholeExpression_exact tokens 0 plain).1.mp ⟨_, _, rfl⟩⟩

end Lox.Grammar
