import Lox.Proofs.Grammar.ExpressionSound
import Lox.Proofs.Syntax.Shape

namespace Lox.Grammar

/-!
# What is derivable is read

The converse of soundness needs to know where a parser stops.  A derivation may
be followed by anything, while a parser goes on as long as the next token lets
it; so the tokens after a derivation must not go on with its nonterminal.  An
operator of a level ends what is tighter, which lets the repetitions be followed
one operator at a time.
-/

/-- Trees that differ at most in the identities of occurrences. -/
def Like (tree found : Expr) : Prop :=
  found.shape = tree.shape

/-- Lists of trees that differ at most in the identities of occurrences. -/
def LikeAll (trees found : List Expr) : Prop :=
  Expr.shapes found = Expr.shapes trees

/-! ## Where a nonterminal ends -/

/-- How tight the operators of a level are. -/
def Level.rank : Level → Nat
  | .disjunction => 0
  | .conjunction => 1
  | .equality => 2
  | .comparison => 3
  | .sum => 4
  | .product => 5

/-- A token that goes on with a call. -/
def ContinuesCall (token : Token) : Prop :=
  token.kind = .symbol .leftParen ∨ token.kind = .symbol .dot

/-- A token with which the parser of a nonterminal goes on. -/
def Continues (token : Token) : Nonterminal → Prop
  | .expression =>
      token.kind = .symbol .equal ∨
        (∃ level : Level, level.join? token ≠ none) ∨ ContinuesCall token
  | .operation level =>
      (∃ tighter : Level, level.rank ≤ tighter.rank ∧ tighter.join? token ≠ none) ∨
        ContinuesCall token
  | .unary => ContinuesCall token
  | .call => ContinuesCall token
  | .primary => False

/-- The next token, if there is one, does not go on with a nonterminal. -/
def Ends (nonterminal : Nonterminal) (after : List Token) : Prop :=
  ∀ token ∈ after.head?, ¬ Continues token nonterminal

theorem ends_nil (nonterminal : Nonterminal) : Ends nonterminal [] := by
  intro token member
  simp at member

/-- An expression ends in front of a token that does not continue it. -/
theorem ends_cons
    {nonterminal : Nonterminal}
    {token : Token}
    (stops : ¬ Continues token nonterminal)
    (rest : List Token) :
    Ends nonterminal (token :: rest) := by
  intro found member
  simp only [List.head?_cons, Option.mem_def, Option.some.injEq] at member
  exact member ▸ stops

/-- The symbols that follow a whole expression. -/
inductive Closing : TokenKind → Prop where
  | comma : Closing (.symbol .comma)
  | semicolon : Closing (.symbol .semicolon)
  | rightParen : Closing (.symbol .rightParen)

/-- An expression ends at a symbol that follows whole expressions. -/
theorem ends_of_closing
    {token : Token}
    (closing : Closing token.kind)
    (rest : List Token) :
    Ends .expression (token :: rest) := by
  refine ends_cons ?_ rest
  generalize kindEq : token.kind = kind at closing
  rintro (isEqual | ⟨level, operator⟩ | isOpening | isDot)
  · cases closing <;> simp_all
  · cases closing <;> cases level <;>
      simp [Level.join?, disjunction?, conjunction?, equality?, comparison?, sum?,
        product?, kindEq] at operator
  · cases closing <;> simp_all
  · cases closing <;> simp_all

namespace Joins

variable {level : Level} {operator : Token} {left right whole : Expr}

/-- An operator of a level is none of a tighter level. -/
theorem not_tighter
    (joins : Joins level operator left right whole)
    {tighter : Level}
    (above : level.rank < tighter.rank) :
    tighter.join? operator = none := by
  cases joins <;> cases tighter <;>
    simp_all [Level.rank, Level.join?, conjunction?, equality?, comparison?, sum?,
      product?]

/-- An operator of a level does not go on with a call. -/
theorem not_continuesCall (joins : Joins level operator left right whole) :
    ¬ ContinuesCall operator := by
  cases joins <;> simp [ContinuesCall, *]

/-- What stands between the operators of a level ends at an operator of the level. -/
theorem ends_operand
    (joins : Joins level operator left right whole)
    (rest : List Token) :
    Ends level.operand (operator :: rest) := by
  refine ends_cons ?_ rest
  cases level with
  | product => exact joins.not_continuesCall
  | _ =>
      rintro (⟨tighter, above, found⟩ | call)
      · exact found (joins.not_tighter above)
      · exact joins.not_continuesCall call

end Joins

namespace Ends

variable {level : Level} {after : List Token}

/-- Where an expression ends, its operators end. -/
theorem operation (ends : Ends .expression after) :
    Ends (.operation .disjunction) after := by
  intro token member continues
  rcases continues with ⟨tighter, -, operator⟩ | call
  · exact ends token member (.inr (.inl ⟨tighter, operator⟩))
  · exact ends token member (.inr (.inr call))

theorem lacks_equal (ends : Ends .expression after) :
    Lacks (.symbol .equal) after :=
  fun token member isEqual => ends token member (.inl isEqual)

/-- Where an operation ends, its last operand ends. -/
theorem operand (ends : Ends (.operation level) after) : Ends level.operand after := by
  intro token member continues
  refine ends token member ?_
  cases level with
  | product => exact .inr continues
  | _ =>
      rcases continues with ⟨tighter, above, operator⟩ | call
      · exact .inl ⟨tighter, Nat.le_of_succ_le above, operator⟩
      · exact .inr call

/-- No operator of a level stands where an operation of this level ends. -/
theorem no_operator (ends : Ends (.operation level) after) :
    ∀ token ∈ after.head?, level.join? token = none := by
  intro token member
  cases found : level.join? token with
  | none => rfl
  | some join =>
      exact (ends token member
        (.inl ⟨level, Nat.le_refl _, by simp [found]⟩)).elim

theorem lacks_leftParen (ends : Ends .call after) :
    Lacks (.symbol .leftParen) after :=
  fun token member isOpening => ends token member (.inl isOpening)

theorem lacks_dot (ends : Ends .call after) : Lacks (.symbol .dot) after :=
  fun token member isDot => ends token member (.inr isDot)

end Ends

/-! ## Repetitions -/

/--
A first part and some rounds of a step take tokens: the rounds lead an extension
from the value of the first part to one with a property.
-/
def Chains
    (first : Parser α)
    (step : α → Parser (Option α))
    (before : List Token)
    (good : α → Prop)
    (after : List Token) :
    Prop :=
  ∃ rounds, rounds + after.length < before.length ∧
    ∀ reader, reader.rest = before →
      ∃ start middle value final,
        first reader = .ok start middle ∧
          (∀ fuel, extend step (rounds + fuel) start middle =
            extend step fuel value final) ∧
          final.rest = after ∧ good value

namespace Chains

section

variable {α : Type} {first : Parser α} {step : α → Parser (Option α)}
  {before middle after : List Token} {good better : α → Prop}

/-- What is taken first is a chain without further rounds, if it takes a token. -/
theorem of_takes
    (taken : Takes first before good after)
    (shorter : after.length < before.length) :
    Chains first step before good after := by
  refine ⟨0, by simpa using shorter, fun reader shape => ?_⟩
  obtain ⟨value, final, given, left, fine⟩ := taken reader shape
  exact ⟨value, final, value, final, given, fun fuel => by rw [Nat.zero_add],
    left, fine⟩

/-- One more round. -/
theorem extended
    (chained : Chains first step before good middle)
    (taken : ∀ value, good value →
      Takes (step value) middle
        (fun found => ∃ longer, found = some longer ∧ better longer) after)
    (shorter : after.length < middle.length) :
    Chains first step before better after := by
  obtain ⟨rounds, bound, runs⟩ := chained
  refine ⟨rounds + 1, by omega, fun reader shape => ?_⟩
  obtain ⟨start, early, value, late, given, led, left, fine⟩ := runs reader shape
  obtain ⟨_, final, stepped, rest, longer, rfl, finer⟩ := taken value fine late left
  refine ⟨start, early, longer, final, given, fun fuel => ?_, rest, finer⟩
  calc extend step (rounds + 1 + fuel) start early
    _ = extend step (rounds + (fuel + 1)) start early := by
        rw [Nat.add_assoc, Nat.add_comm 1 fuel]
    _ = extend step (fuel + 1) value late := led (fuel + 1)
    _ = extend step fuel longer final := by
        rw [extend, bind_of_ok stepped]

/-- An extension stops after the rounds if the step declines there. -/
theorem takes
    (chained : Chains first step before good after)
    (declines : ∀ value reader, reader.rest = after →
      step value reader = .ok none reader)
    {size : Nat}
    (bound : before.length ≤ size) :
    Takes (first >>= fun start => extend step size start) before good after := by
  obtain ⟨rounds, within, runs⟩ := chained
  intro reader shape
  obtain ⟨start, early, value, final, given, led, left, fine⟩ := runs reader shape
  refine ⟨value, final, ?_, left, fine⟩
  obtain ⟨fuel, rfl⟩ : ∃ fuel, size = rounds + (fuel + 1) :=
    ⟨size - rounds - 1, by omega⟩
  rw [bind_of_ok given, led (fuel + 1), extend, bind_of_ok (declines value final left)]
  rfl

end

end Chains

/-! ## The parser of every nonterminal -/

/-- The parser of a nonterminal, where one more token than the size may be left. -/
def Nonterminal.parser (size : Nat) : Nonterminal → Parser Expr
  | .expression => expressionWithin (size + 1)
  | .operation .disjunction => Grammar.operation (expressionWithin size) (size + 1)
  | .operation .conjunction => Grammar.conjunction (expressionWithin size) (size + 1)
  | .operation .equality => Grammar.equality (expressionWithin size) (size + 1)
  | .operation .comparison => Grammar.comparison (expressionWithin size) (size + 1)
  | .operation .sum => Grammar.sum (expressionWithin size) (size + 1)
  | .operation .product => Grammar.product (expressionWithin size) (size + 1)
  | .unary => unaryChain (callChain (expressionWithin size) (size + 1)) (size + 1)
  | .call => callChain (expressionWithin size) (size + 1)
  | .primary => Grammar.primary (expressionWithin size)

/-- The parser of a level reads operands with the operators of the level between them. -/
theorem Nonterminal.operation_parser (size : Nat) (level : Level) :
    (Nonterminal.operation level).parser size =
      joinedChain level.join? (level.operand.parser size) (size + 1) := by
  cases level <;> rfl

/-- A chain of operands ends where no operator can be read. -/
theorem joinedNext_declines
    {join? : Token → Option Join}
    {operand : Parser Expr}
    {left : Expr}
    {reader : Reader}
    (unreadable : ∀ token ∈ reader.rest.head?, join? token = none) :
    joinedNext join? operand left reader = .ok none reader := by
  rw [joinedNext, bind_of_ok (next?_declines unreadable)]
  rfl

/-- Without a parenthesis or a dot in front, nothing is called. -/
theorem callOrProperty_stops
    {inner : Parser Expr}
    {subject : Expr}
    {reader : Reader}
    (ends : Ends .call reader.rest) :
    callOrProperty inner subject reader = .ok none reader := by
  rw [callOrProperty, bind_of_ok (acceptSymbol_declines ends.lacks_leftParen)]
  simp only [Bool.false_eq_true, ↓reduceIte]
  rw [bind_of_ok (acceptSymbol_declines ends.lacks_dot)]
  rfl

/--
What a derivation of each nonterminal demands of the parsers.  A level and a call
are followed in the middle of their repetition, where they end at their own next
operator; a unary expression is read with any fuel that covers its tokens.
-/
def Complete
    (nonterminal : Nonterminal)
    (before : List Token)
    (tree : Expr)
    (after : List Token) :
    Prop :=
  ∀ size, before.length ≤ size + 1 →
    match nonterminal with
    | .expression =>
        Ends .expression after →
          Takes (expressionWithin (size + 1)) before (Like tree) after
    | .operation level =>
        Ends level.operand after →
          Chains (level.operand.parser size)
            (joinedNext level.join? (level.operand.parser size))
            before (Like tree) after
    | .unary =>
        Ends .unary after →
          ∀ fuel, before.length ≤ fuel →
            Takes (unaryChain (callChain (expressionWithin size) (size + 1)) fuel)
              before (Like tree) after
    | .call =>
        Chains (primary (expressionWithin size))
          (callOrProperty (expressionWithin size)) before (Like tree) after
    | .primary => Takes (primary (expressionWithin size)) before (Like tree) after

/-- Where a nonterminal ends, its parser takes what is derived from it. -/
theorem Complete.takes
    {nonterminal : Nonterminal}
    {before after : List Token}
    {tree : Expr}
    (complete : Complete nonterminal before tree after)
    {size : Nat}
    (bound : before.length ≤ size + 1)
    (ends : Ends nonterminal after) :
    Takes (nonterminal.parser size) before (Like tree) after := by
  cases nonterminal with
  | expression => exact complete size bound ends
  | operation level =>
      rw [Nonterminal.operation_parser]
      refine (complete size bound ends.operand).takes ?_ bound
      intro left reader shape
      exact joinedNext_declines (shape ▸ ends.no_operator)
  | unary => exact complete size bound ends (size + 1) bound
  | call =>
      refine (complete size bound).takes ?_ bound
      intro subject reader shape
      exact callOrProperty_stops (shape ▸ ends)
  | primary => exact complete size bound

/-! ## First tokens -/

/-- The tokens that begin a nonterminal. -/
def Opens (token : Token) : Nonterminal → Prop
  | .primary => ∃ start, Begins token start
  | .call => ∃ start, Begins token start
  | _ => (∃ start, Begins token start) ∨ ∃ operator, Signs token.kind operator

/-- What opens an operand opens an operation. -/
theorem Opens.operation {token : Token} {level : Level} (opens : Opens token level.operand) :
    Opens token (.operation level) := by
  cases level <;> exact opens

/-- What opens a call opens an expression. -/
theorem Opens.of_call {token : Token} (opens : Opens token .call) :
    Opens token .expression :=
  .inl opens

/-- The first token of a derivation begins its nonterminal. -/
theorem Derives.opens :
    ∀ {nonterminal before tree after},
      Derives nonterminal before tree after →
      ∃ token rest, before = token :: rest ∧ Opens token nonterminal
  | _, _, _, _, .literal denotes => ⟨_, _, rfl, _, .literal denotes⟩
  | _, _, _, _, .reference named => ⟨_, _, rfl, _, .name named⟩
  | _, _, _, _, .this kind => ⟨_, _, rfl, _, .this kind⟩
  | _, _, _, _, .super kind _ _ => ⟨_, _, rfl, _, .super kind⟩
  | _, _, _, _, .grouping kind _ _ => ⟨_, _, rfl, _, .group kind⟩
  | _, _, _, _, .uncalled derived => derived.opens
  | _, _, _, _, .emptyCall callee _ _ => callee.opens
  | _, _, _, _, .call callee _ _ _ _ => callee.opens
  | _, _, _, _, .property object _ _ => object.opens
  | _, _, _, _, .signed signs _ => ⟨_, _, rfl, .inr ⟨_, signs⟩⟩
  | _, _, _, _, .unsigned derived => by
      obtain ⟨token, rest, shape, opens⟩ := derived.opens
      exact ⟨token, rest, shape, opens.of_call⟩
  | _, _, _, _, .joined left _ _ => left.opens
  | _, _, _, _, .operand derived => by
      obtain ⟨token, rest, shape, opens⟩ := derived.opens
      exact ⟨token, rest, shape, opens.operation⟩
  | _, _, _, _, .operation derived => derived.opens
  | _, _, _, _, .propertyAssignment object _ _ _ _ => by
      obtain ⟨token, rest, shape, opens⟩ := object.opens
      exact ⟨token, rest, shape, opens.of_call⟩
  | _, _, _, _, .assignment named _ _ => ⟨_, _, rfl, .inl ⟨_, .name named⟩⟩

/-- The kinds of tokens that may stand at the front of an expression. -/
def opensExpression : TokenKind → Bool
  | .identifier => true
  | .number _ => true
  | .string _ => true
  | .keyword .trueWord => true
  | .keyword .falseWord => true
  | .keyword .nilWord => true
  | .keyword .thisWord => true
  | .keyword .superWord => true
  | .symbol .leftParen => true
  | .symbol .bang => true
  | .symbol .minus => true
  | _ => false

/-- What begins an expression is of such a kind. -/
theorem Opens.opensExpression {token : Token} (opens : Opens token .expression) :
    opensExpression token.kind = true := by
  rcases opens with ⟨start, begins⟩ | ⟨operator, signs⟩
  · cases begins with
    | literal denotes =>
        generalize token.kind = kind at denotes
        cases denotes <;> rfl
    | name named => rw [named.kind]; rfl
    | this kind => rw [kind]; rfl
    | super kind => rw [kind]; rfl
    | group kind => rw [kind]; rfl
  · generalize token.kind = kind at signs
    cases signs <;> rfl

/-- A token that opens an expression is of none of the kinds that open none. -/
theorem Opens.ne
    {token : Token}
    (opens : Opens token .expression)
    {kind : TokenKind}
    (other : Grammar.opensExpression kind = false) :
    token.kind ≠ kind := by
  rintro rfl
  rw [opens.opensExpression] at other
  exact Bool.noConfusion other

/-- A token that begins a primary expression is no sign. -/
theorem Begins.unary?_eq_none
    {token : Token}
    {start : PrimaryStart}
    (begins : Begins token start) :
    unary? token = none := by
  cases begins with
  | literal denotes =>
      unfold unary?
      generalize token.kind = kind at denotes
      cases denotes <;> rfl
  | name named => simp [unary?, named.kind]
  | this kind => simp [unary?, kind]
  | super kind => simp [unary?, kind]
  | group kind => simp [unary?, kind]

/-! ## One lemma for each rule of the grammar -/

/-- The parser of a level joins two operands as the grammar does. -/
theorem Joins.join?_eq_some
    {level : Level}
    {operator : Token}
    {left right whole : Expr}
    (joins : Joins level operator left right whole) :
    ∃ join, level.join? operator = some join ∧
      ∀ {first second : Expr}, Like left first → Like right second →
        Like whole (join first second) := by
  cases joins <;> rename_i kind
  all_goals
    refine ⟨_, by simp only [Level.join?, disjunction?, conjunction?, equality?,
      comparison?, sum?, product?, binaryJoin, kind]; rfl, ?_⟩
    intro first second likeLeft likeRight
    simp only [Like, Expr.shape] at likeLeft likeRight ⊢
    rw [likeLeft, likeRight]

/-- A parser of nested expressions takes them where one token has been taken before. -/
theorem Complete.nested
    {before after : List Token}
    {tree : Expr}
    (derived : Derives .expression before tree after)
    (complete : Complete .expression before tree after)
    {size : Nat}
    (bound : before.length ≤ size)
    (ends : Ends .expression after) :
    Takes (expressionWithin size) before (Like tree) after := by
  have shorter := derived.shorter
  obtain ⟨smaller, rfl⟩ : ∃ smaller, size = smaller + 1 := ⟨size - 1, by omega⟩
  exact complete smaller bound ends

namespace Complete

variable {before rest after : List Token} {tree : Expr}

/-- An operand alone is an operation. -/
theorem operand
    {level : Level}
    (derived : Derives level.operand before tree after)
    (complete : Complete level.operand before tree after) :
    Complete (.operation level) before tree after := by
  intro size bound ends
  exact .of_takes (complete.takes bound ends) derived.shorter

/-- One more operand is joined. -/
theorem joined
    {level : Level}
    {operator : Token}
    {left right whole : Expr}
    (leftDerived : Derives (.operation level) before left (operator :: rest))
    (leftComplete : Complete (.operation level) before left (operator :: rest))
    (joins : Joins level operator left right whole)
    (rightDerived : Derives level.operand rest right after)
    (rightComplete : Complete level.operand rest right after) :
    Complete (.operation level) before whole after := by
  intro size bound ends
  have within := leftDerived.shorter
  have shorter := rightDerived.shorter
  simp only [List.length_cons] at within
  obtain ⟨join, known, alike⟩ := joins.join?_eq_some
  refine (leftComplete size bound (joins.ends_operand rest)).extended ?_
    (by simp only [List.length_cons]; omega)
  intro first likeLeft
  refine .bind (.next?_some known) ?_
  rintro _ rfl
  refine .bind (rightComplete.takes (by omega) ends) ?_
  intro second likeRight
  exact .pure ⟨_, rfl, alike likeLeft likeRight⟩

/-- A sign is put in front of an operand. -/
theorem signed
    {sign : Token}
    {operator : UnaryOperator}
    {operand : Expr}
    (signs : Signs sign.kind operator)
    (complete : Complete .unary rest operand after) :
    Complete .unary (sign :: rest) (.unary operator sign.line operand) after := by
  intro size bound ends fuel covers
  simp only [List.length_cons] at bound covers
  obtain ⟨less, rfl⟩ : ∃ less, fuel = less + 1 := ⟨fuel - 1, by omega⟩
  refine .bind (.next?_some (unary?_eq_some.mpr ⟨operator, signs, rfl⟩)) ?_
  rintro _ rfl
  refine .bind (complete size (by omega) ends less (by omega)) ?_
  intro found like
  refine .pure ?_
  simp only [Like, Expr.shape] at like ⊢
  rw [like]

/-- A call without signs is a unary expression. -/
theorem unsigned
    (derived : Derives .call before tree after)
    (complete : Complete .call before tree after) :
    Complete .unary before tree after := by
  intro size bound ends fuel covers
  have taken : Takes (callChain (expressionWithin size) (size + 1)) before
      (Like tree) after :=
    complete.takes bound ends
  cases fuel with
  | zero => exact taken
  | succ fuel =>
      obtain ⟨token, tokens, shape, start, begins⟩ := derived.opens
      have noSign : ∀ found ∈ before.head?, unary? found = none := by
        intro found member
        rw [shape, List.head?_cons, Option.mem_def, Option.some.injEq] at member
        exact member ▸ begins.unary?_eq_none
      refine .bind (.next?_none noSign) ?_
      rintro _ rfl
      exact taken

/-- A primary expression alone is a call. -/
theorem uncalled
    (derived : Derives .primary before tree after)
    (complete : Complete .primary before tree after) :
    Complete .call before tree after := by
  intro size bound
  exact .of_takes (complete size bound) derived.shorter

/-- A call without arguments. -/
theorem emptyCall
    {callee : Expr}
    {opening closing : Token}
    (complete : Complete .call before callee (opening :: closing :: after))
    (openingKind : opening.kind = .symbol .leftParen)
    (closingKind : closing.kind = .symbol .rightParen) :
    Complete .call before (.call callee [] closing.line) after := by
  intro size bound
  refine (complete size bound).extended ?_ (by simp only [List.length_cons]; omega)
  intro subject like
  refine .bind (.acceptSymbol_true openingKind) ?_
  rintro _ rfl
  refine .bind (.listed_none closingKind) ?_
  rintro _ rfl
  refine .bind (.expectSymbol closingKind) ?_
  rintro _ rfl
  refine .pure ⟨_, rfl, ?_⟩
  simp only [Like, Expr.shape] at like ⊢
  rw [like]

/-- A property of what was read so far. -/
theorem property
    {object : Expr}
    {dot target : Token}
    {name : Identifier}
    (complete : Complete .call before object (dot :: target :: after))
    (dotKind : dot.kind = .symbol .dot)
    (named : Names target name) :
    Complete .call before (.property object name) after := by
  intro size bound
  refine (complete size bound).extended ?_ (by simp only [List.length_cons]; omega)
  intro subject like
  refine .bind (.acceptSymbol_false (lacks_cons (by simp [dotKind]) _)) ?_
  rintro _ rfl
  refine .bind (.acceptSymbol_true dotKind) ?_
  rintro _ rfl
  refine .bind (.expectName named) ?_
  rintro _ rfl
  refine .pure ⟨_, rfl, ?_⟩
  simp only [Like, Expr.shape] at like ⊢
  rw [like]

/-- A literal is a primary expression. -/
theorem literal
    {token : Token}
    {value : Literal}
    (denotes : Denotes token.kind value) :
    Complete .primary (token :: after) (.literal value) after := by
  intro size bound
  refine .bind (.next?_some (primaryStart?_eq_some.mpr (.literal denotes))) ?_
  rintro _ rfl
  exact .pure rfl

/-- A variable. -/
theorem reference
    {token : Token}
    {name : Identifier}
    {id : NodeId}
    (named : Names token name) :
    Complete .primary (token :: after) (.reference ⟨id, name⟩) after := by
  intro size bound
  refine .bind (.next?_some (primaryStart?_eq_some.mpr (.name named))) ?_
  rintro _ rfl
  refine .bind .freshId ?_
  intro found _
  exact .pure rfl

/-- The receiver of a method. -/
theorem this
    {token : Token}
    {id : NodeId}
    (kind : token.kind = .keyword .thisWord) :
    Complete .primary (token :: after) (.this id token.line) after := by
  intro size bound
  refine .bind (.next?_some (primaryStart?_eq_some.mpr (.this kind))) ?_
  rintro _ rfl
  refine .bind .freshId ?_
  intro found _
  exact .pure rfl

/-- A method of the superclass. -/
theorem super
    {token dot target : Token}
    {name : Identifier}
    {id : NodeId}
    (kind : token.kind = .keyword .superWord)
    (dotKind : dot.kind = .symbol .dot)
    (named : Names target name) :
    Complete .primary (token :: dot :: target :: after)
      (.super id token.line name) after := by
  intro size bound
  refine .bind (.next?_some (primaryStart?_eq_some.mpr (.super kind))) ?_
  rintro _ rfl
  refine .bind (.dropped (.expectSymbol dotKind)) ?_
  intro _ _
  refine .bind (.expectName named) ?_
  rintro _ rfl
  refine .bind .freshId ?_
  intro found _
  exact .pure rfl

/-- An expression in parentheses. -/
theorem grouping
    {opening closing : Token}
    {inner : Expr}
    (openingKind : opening.kind = .symbol .leftParen)
    (derived : Derives .expression rest inner (closing :: after))
    (complete : Complete .expression rest inner (closing :: after))
    (closingKind : closing.kind = .symbol .rightParen) :
    Complete .primary (opening :: rest) (.grouping inner) after := by
  intro size bound
  simp only [List.length_cons] at bound
  refine .bind (.next?_some (primaryStart?_eq_some.mpr (.group openingKind))) ?_
  rintro _ rfl
  refine .bind (complete.nested derived (by omega)
    (ends_of_closing (closingKind ▸ .rightParen) after)) ?_
  intro found like
  refine .bind (.dropped (.expectSymbol closingKind)) ?_
  intro _ _
  refine .pure ?_
  simp only [Like, Expr.shape] at like ⊢
  rw [like]

/-- An operation that is not assigned to. -/
theorem operation
    (complete : Complete (.operation .disjunction) before tree after) :
    Complete .expression before tree after := by
  intro size bound ends
  refine .bind (complete.takes bound ends.operation) ?_
  intro found like
  refine .bind .get ?_
  intro _ _
  refine .bind (.acceptSymbol_false ends.lacks_equal) ?_
  rintro _ rfl
  exact .pure like

/-- A call reaches the loosest level if no operator stands around it. -/
theorem climb
    (derived : Derives .call before tree after)
    (complete : Complete .call before tree after) :
    Complete (.operation .disjunction) before tree after := by
  have unary : Complete .unary before tree after := unsigned derived complete
  have product : Complete (.operation .product) before tree after :=
    operand (.unsigned derived) unary
  have sum : Complete (.operation .sum) before tree after :=
    operand (.operand (.unsigned derived)) product
  have comparison : Complete (.operation .comparison) before tree after :=
    operand (.operand (.operand (.unsigned derived))) sum
  have equality : Complete (.operation .equality) before tree after :=
    operand (.operand (.operand (.operand (.unsigned derived)))) comparison
  have conjunction : Complete (.operation .conjunction) before tree after :=
    operand (.operand (.operand (.operand (.operand (.unsigned derived))))) equality
  exact
    operand (.operand (.operand (.operand (.operand (.operand (.unsigned derived))))))
      conjunction

/-- An operation ends at an equals sign. -/
theorem ends_operation_of_equal
    {equals : Token}
    (kind : equals.kind = .symbol .equal)
    (rest : List Token) :
    Ends (.operation .disjunction) (equals :: rest) := by
  refine ends_cons ?_ rest
  rintro (⟨level, -, operator⟩ | isOpening | isDot)
  · cases level <;>
      simp [Level.join?, disjunction?, conjunction?, equality?, comparison?, sum?,
        product?, kind] at operator
  · simp [kind] at isOpening
  · simp [kind] at isDot

/-- An assignment to a variable. -/
theorem assignment
    {target equals : Token}
    {name : Identifier}
    {id : NodeId}
    {value : Expr}
    (named : Names target name)
    (equalKind : equals.kind = .symbol .equal)
    (derived : Derives .expression rest value after)
    (complete : Complete .expression rest value after) :
    Complete .expression (target :: equals :: rest) (.assign ⟨id, name⟩ value)
      after := by
  intro size bound ends
  simp only [List.length_cons] at bound
  have variableDerived :
      Derives .primary (target :: equals :: rest) (.reference ⟨id, name⟩)
        (equals :: rest) :=
    .reference named
  have operation :=
    climb (.uncalled variableDerived) (uncalled variableDerived (reference named))
  -- The target is read as an operation, and at the equals sign turns out to be one.
  refine .bind (operation.takes (by simpa using bound)
    (ends_operation_of_equal equalKind rest)) ?_
  intro found like
  obtain ⟨other, rfl⟩ := Expr.eq_reference_of_shape like
  refine .bind .get ?_
  intro _ _
  refine .bind (.acceptSymbol_true equalKind) ?_
  rintro _ rfl
  refine .bind (complete.nested derived (by omega) ends) ?_
  intro assigned likeValue
  refine .bind .freshId ?_
  intro fresh _
  refine .pure ?_
  simp only [Like, Expr.shape] at likeValue ⊢
  rw [likeValue]
  rfl

/-- An assignment to a property. -/
theorem propertyAssignment
    {object value : Expr}
    {dot target equals : Token}
    {name : Identifier}
    (objectDerived : Derives .call before object (dot :: target :: equals :: rest))
    (objectComplete : Complete .call before object (dot :: target :: equals :: rest))
    (dotKind : dot.kind = .symbol .dot)
    (named : Names target name)
    (equalKind : equals.kind = .symbol .equal)
    (derived : Derives .expression rest value after)
    (complete : Complete .expression rest value after) :
    Complete .expression before (.setProperty object name value) after := by
  intro size bound ends
  have within := objectDerived.shorter
  simp only [List.length_cons] at within
  have operation :=
    climb (.property objectDerived dotKind named)
      (property objectComplete dotKind named)
  refine .bind (operation.takes bound (ends_operation_of_equal equalKind rest)) ?_
  intro found like
  obtain ⟨owner, rfl, likeObject⟩ := Expr.eq_property_of_shape like
  refine .bind .get ?_
  intro _ _
  refine .bind (.acceptSymbol_true equalKind) ?_
  rintro _ rfl
  refine .bind (complete.nested derived (by omega) ends) ?_
  intro assigned likeValue
  refine .pure ?_
  simp only [Like, Expr.shape] at likeValue ⊢
  rw [likeValue, likeObject]

end Complete

/-- What a derivation of arguments demands of the parser. -/
def CompleteArguments
    (before : List Token)
    (trees : List Expr)
    (after : List Token) :
    Prop :=
  ∀ size, before.length ≤ size → Ends .expression after → Lacks (.symbol .comma) after →
    ∀ overflow room, trees.length ≤ room →
      Takes (separated (expressionWithin size) overflow room) before (LikeAll trees)
        after

namespace CompleteArguments

variable {before rest after : List Token} {tree : Expr} {trees : List Expr}

/-- The last argument. -/
theorem last
    (derived : Derives .expression before tree after)
    (complete : Complete .expression before tree after) :
    CompleteArguments before [tree] after := by
  intro size bound ends lacking overflow room fits
  obtain ⟨less, rfl⟩ : ∃ less, room = less + 1 := ⟨room - 1, by
    simp only [List.length_singleton] at fits
    omega⟩
  refine .bind (complete.nested derived bound ends) ?_
  intro found like
  refine .bind (.acceptSymbol_false lacking) ?_
  rintro _ rfl
  refine .pure ?_
  simp only [Like, LikeAll, Expr.shapes] at like ⊢
  rw [like]

/-- An argument before others. -/
theorem more
    {comma : Token}
    (derived : Derives .expression before tree (comma :: rest))
    (complete : Complete .expression before tree (comma :: rest))
    (kind : comma.kind = .symbol .comma)
    (others : CompleteArguments rest trees after) :
    CompleteArguments before (tree :: trees) after := by
  intro size bound ends lacking overflow room fits
  have shorter := derived.shorter
  simp only [List.length_cons] at shorter fits
  obtain ⟨less, rfl⟩ : ∃ less, room = less + 1 := ⟨room - 1, by omega⟩
  refine .bind (complete.nested derived bound
    (ends_of_closing (kind ▸ .comma) rest)) ?_
  intro found like
  refine .bind (.acceptSymbol_true kind) ?_
  rintro _ rfl
  refine .bind (others size (by omega) ends lacking overflow less (by omega)) ?_
  intro founds likes
  refine .pure ?_
  simp only [Like, LikeAll, Expr.shapes] at like likes ⊢
  rw [like, likes]

end CompleteArguments

/-- Derived arguments start with a token that opens an expression. -/
theorem DerivesArguments.opens
    {before after : List Token}
    {trees : List Expr}
    (derived : DerivesArguments before trees after) :
    ∃ token rest, before = token :: rest ∧ Opens token .expression := by
  cases derived with
  | last first => exact first.opens
  | more first _ _ => exact first.opens

/-- A call with arguments. -/
theorem Complete.call
    {before rest after : List Token}
    {callee : Expr}
    {arguments : List Expr}
    {opening closing : Token}
    (calleeDerived : Derives .call before callee (opening :: rest))
    (calleeComplete : Complete .call before callee (opening :: rest))
    (openingKind : opening.kind = .symbol .leftParen)
    (derived : DerivesArguments rest arguments (closing :: after))
    (complete : CompleteArguments rest arguments (closing :: after))
    (within : arguments.length ≤ mostArguments)
    (closingKind : closing.kind = .symbol .rightParen) :
    Complete .call before (.call callee arguments closing.line) after := by
  intro size bound
  have shorter := calleeDerived.shorter
  have later := derived.shorter
  simp only [List.length_cons] at shorter later
  refine (calleeComplete size bound).extended ?_
    (by simp only [List.length_cons]; omega)
  intro subject like
  refine .bind (.acceptSymbol_true openingKind) ?_
  rintro _ rfl
  obtain ⟨token, tokens, rfl, opens⟩ := derived.opens
  have taken := complete size (by omega)
    (ends_of_closing (closingKind ▸ .rightParen) after)
    (lacks_cons (by simp [closingKind]) after) .tooManyArguments argumentLimit within
  refine .bind (.listed_some (lacks_cons (opens.ne rfl) tokens) taken) ?_
  intro found likes
  refine .bind (.expectSymbol closingKind) ?_
  rintro _ rfl
  refine .pure ⟨_, rfl, ?_⟩
  simp only [Like, LikeAll, Expr.shape] at like likes ⊢
  rw [like, likes]

/-! ## The induction -/

mutual

/-- Every derivation of an expression is followed by the parsers. -/
theorem Derives.complete :
    ∀ {nonterminal before tree after},
      Derives nonterminal before tree after →
      Complete nonterminal before tree after
  | _, _, _, _, .assignment named kind value =>
      .assignment named kind value value.complete
  | _, _, _, _, .propertyAssignment object dotKind named kind value =>
      .propertyAssignment object object.complete dotKind named kind value
        value.complete
  | _, _, _, _, .operation derived => .operation derived.complete
  | _, _, _, _, .operand derived => .operand derived derived.complete
  | _, _, _, _, .joined left joins right =>
      .joined left left.complete joins right right.complete
  | _, _, _, _, .signed signs operand => .signed signs operand.complete
  | _, _, _, _, .unsigned derived => .unsigned derived derived.complete
  | _, _, _, _, .uncalled derived => .uncalled derived derived.complete
  | _, _, _, _, .emptyCall callee openingKind closingKind =>
      .emptyCall callee.complete openingKind closingKind
  | _, _, _, _, .call callee openingKind arguments within closingKind =>
      .call callee callee.complete openingKind arguments arguments.complete within
        closingKind
  | _, _, _, _, .property object dotKind named =>
      .property object.complete dotKind named
  | _, _, _, _, .literal denotes => .literal denotes
  | _, _, _, _, .reference named => .reference named
  | _, _, _, _, .this kind => .this kind
  | _, _, _, _, .super kind dotKind named => .super kind dotKind named
  | _, _, _, _, .grouping openingKind inner closingKind =>
      .grouping openingKind inner inner.complete closingKind

/-- Derived arguments are taken by the parser. -/
theorem DerivesArguments.complete :
    ∀ {before trees after},
      DerivesArguments before trees after → CompleteArguments before trees after
  | _, _, _, .last derived => .last derived derived.complete
  | _, _, _, .more first kind rest =>
      .more first first.complete kind rest.complete

end

/-- Where an expression ends, the expression parser takes what is derived. -/
theorem Derives.taken
    {before after : List Token}
    {tree : Expr}
    (derived : Derives .expression before tree after)
    {size : Nat}
    (bound : before.length ≤ size)
    (ends : Ends .expression after) :
    Takes (expressionWithin size) before (Like tree) after :=
  derived.complete.nested derived bound ends

end Lox.Grammar
