import Lox.Proofs.Execution.DetourFuel
import Lox.Proofs.Execution.DetourLayouts
import Lox.Proofs.Execution.Distances
import Lox.Proofs.Scoping.Exact

namespace Lox.Execution

open Scoping

/-!
# Loops with an initializer, a condition and an increment

A `for` loop is read as a `while` loop in blocks.  Meant is a loop that has one scope of its
own, for its variable, and that runs its parts right there: the condition before and the
increment behind every round.  Without the block around body and increment, these lie one
scope nearer to everything around them, and resolution settles their occurrences there.
-/

/-- The clauses and the body of a `for` loop.  No declaration can be the body. -/
structure ForLoop where
  initializer : Option Stmt
  condition : Option Expr
  increment : Option Expr
  body : Stmt
  plain : body.declared = []

namespace ForLoop

variable (loop : ForLoop)

/-! ## What the parser makes of it -/

/-- The statement that stands for the loop. -/
def desugared : Stmt :=
  .forLoop loop.initializer loop.condition loop.increment loop.body

/-- The body with the increment behind it. -/
def round : Stmt :=
  match loop.increment with
  | some increment => .block [loop.body, .expression increment]
  | none => loop.body

/-- The loop without its initializer. -/
def repeated : Stmt :=
  .loop (loop.condition.getD (.literal (.bool true))) loop.round

/-- What stands for a loop declares nothing around it. -/
theorem declared_desugared : loop.desugared.declared = [] := by
  obtain ⟨_ | first, condition, _ | increment, body, plain⟩ := loop
  · exact plain
  all_goals rfl

/-! ## What is meant -/

/-- Whether there is another round; without a condition there always is. -/
def holds (fuel : Nat) : Eval Bool :=
  match loop.condition with
  | none => pure true
  | some condition => Value.isTruthy <$> evaluate fuel condition

/-- What is done behind a round, if that has come to its end. -/
def advance (fuel : Nat) : Eval Unit :=
  match loop.increment with
  | none => pure ()
  | some increment => discard (evaluate fuel increment)

/-- One round after another in the current scope, as long as the condition holds. -/
def rounds (fuel : Nat) : Nat → Eval Unit
  | 0 => throw .exhausted
  | count + 1 => do
      if ← loop.holds fuel then
        execute fuel loop.body
        loop.advance fuel
        rounds fuel count

/-- The loop, in a scope of its own if there is an initializer, which is run first. -/
def run (fuel : Nat) : Eval Unit :=
  match loop.initializer with
  | none => loop.rounds fuel fuel
  | some first => do
      inNewScope (← get).scope do
        execute fuel first
        loop.rounds fuel fuel

/-! ## Its resolution -/

/-- The place of the rounds. -/
def inside (place : Place) : Place :=
  match loop.initializer with
  | none => place
  | some first => place.entering.declaring first.declared

/-- The sites of the initializer, which has a scope around it. -/
def sitesOfInitializer (place : Place) : List Site :=
  match loop.initializer with
  | none => []
  | some first => first.sites place.entering

/-- The sites of a loop that has no other scope than its own. -/
def sites (place : Place) : List Site :=
  loop.sitesOfInitializer place ++
    (Expr.sitesOfOptional (loop.inside place) none loop.condition ++
      (loop.body.sites (loop.inside place) ++
        Expr.sitesOfOptional (loop.inside place) none loop.increment))

/-- A loop with other identities in it. -/
def renumbered (number : NodeId → NodeId) : ForLoop where
  initializer := loop.initializer.map (·.renumbered number)
  condition := loop.condition.map (·.renumbered number)
  increment := loop.increment.map (·.renumbered number)
  body := loop.body.renumbered number
  plain := by rw [loop.body.declared_renumbered, loop.plain]

/-- What resolution settles in a loop with other identities in it. -/
def settlements (number : NodeId → NodeId) (place : Place) : List Settlement :=
  ((loop.sites place).filterMap Site.settlement?).map fun settlement =>
    { settlement with id := number settlement.id }

end ForLoop

/-! ## One step of each -/

/-- Two statements in a row are run one after the other. -/
theorem forM_pair {α : Type} (step : α → Eval PUnit) (first second : α) :
    [first, second].forM step = (do step first; step second) := by
  show (step first >>= fun _ => step second >>= fun _ => (pure PUnit.unit : Eval PUnit)) = _
  simp only [bind_pure_unit]

namespace ForLoop

variable (loop : ForLoop) (fuel : Nat)

/-- One round of the loop that the parser makes, and the loop again. -/
theorem execute_repeated :
    execute (fuel + 1) loop.repeated = (do
      if ← Value.isTruthy <$> evaluate fuel (loop.condition.getD (.literal (.bool true))) then
        execute fuel loop.round
        execute fuel loop.repeated) := by
  rw [bind_map_left]
  rfl

/-- Body and increment are run in a block of their own. -/
theorem execute_block (first second : Stmt) :
    execute (fuel + 1) (.block [first, second]) = (do
      inNewScope (← get).scope do
        execute fuel first
        execute fuel second) := by
  rw [← forM_pair]
  rfl

end ForLoop

/-! ## The same loop without detours -/

section

variable (long short : Distances)

/-- The detour of the body: it leads through the block that there is for an increment. -/
def ForLoop.detour (loop : ForLoop) : Detour :=
  loop.increment.map fun _ => 0

/-- Loops that do the same, the second one without the blocks around the rounds. -/
structure LoopShortened (left right : ForLoop) : Prop where
  initializer : Option.Rel (StmtShortened long short none) left.initializer right.initializer
  condition : Option.Rel (ExprShortened long short none) left.condition right.condition
  increment : Option.Rel (ExprShortened long short (some 0)) left.increment right.increment
  body : StmtShortened long short left.detour left.body right.body

end

variable {long short : Distances} {loop direct : ForLoop} {side : Side}
  {marks : List Counterpart} {steps fuel more : Nat}

namespace LoopShortened

/-- Both runs of the loop make another round, or neither does. -/
theorem holds
    (shortened : LoopShortened long short loop direct)
    (enough : side.Enough steps fuel more) :
    Accords long short side marks none Equal
      (Value.isTruthy <$> evaluate fuel (loop.condition.getD (.literal (.bool true))))
      (direct.holds more) := by
  have condition := shortened.condition
  unfold ForLoop.holds
  generalize loop.condition = given at condition ⊢
  generalize direct.condition = given' at condition ⊢
  cases condition with
  | none =>
      refine .of_enough (fun fuel => Value.isTruthy <$> evaluate fuel _) enough rfl ?_
      exact fun fuel _ => .of_shadows (.pure rfl)
  | some same => exact (Accords.evaluate enough same).map fun _ _ _ => congrArg Value.isTruthy

/-- Body and increment run in a scope of their own, which the second run does without. -/
theorem round
    (shortened : LoopShortened long short loop direct)
    (enough : side.Enough (steps + 2) fuel more) :
    Accords long short side marks none Equal (execute fuel loop.round) (do
      execute more direct.body
      direct.advance more) := by
  have body := shortened.body
  have increment := shortened.increment
  unfold ForLoop.round ForLoop.advance
  unfold ForLoop.detour at body
  generalize loop.increment = given at body increment ⊢
  generalize direct.increment = given' at increment ⊢
  cases increment with
  | none =>
      rw [bind_pure_unit]
      exact .execute enough body
  | @some step step' same =>
      have restores : Leaves Restores (do
          execute more direct.body
          discard (evaluate more step')) :=
        restores_steady.bind (restores_steady.execute more direct.body) fun _ =>
          restores_steady.map (restores_steady.evaluate more step')
      refine .of_enough (fun fuel => execute fuel _) enough rfl fun fuel enough => ?_
      rw [ForLoop.execute_block]
      refine .skip (fun later _ => ?_) restores
      refine (Accords.execute enough.pred body).bind fun later _ _ _ _ => ?_
      refine .of_enough (fun fuel => execute fuel _) enough.pred rfl fun fuel enough => ?_
      exact (Accords.evaluate enough.pred same).map fun _ _ _ _ => rfl

/-- One round of both loops, if what is left of them ends alike. -/
theorem another
    (shortened : LoopShortened long short loop direct)
    (enough : side.Enough (steps + 2) fuel more)
    {count : Nat}
    (rest : ∀ later, marks <+: later →
      Accords long short side later none Equal (execute fuel loop.repeated)
        (direct.rounds more count)) :
    Accords long short side marks none Equal (execute (fuel + 1) loop.repeated)
      (direct.rounds more (count + 1)) := by
  rw [ForLoop.execute_repeated, ForLoop.rounds]
  refine (shortened.holds enough).bind ?_
  rintro later holds _ longer rfl
  refine .either ?_ (.of_shadows (.pure rfl))
  rw [← bind_assoc]
  exact (shortened.round enough).bind fun last _ _ further _ => rest last (longer.trans further)

/-- With as much fuel, and for as many rounds, the loop without detours goes as far. -/
theorem repeated_left
    (shortened : LoopShortened long short loop direct)
    {count : Nat}
    (enough : fuel ≤ more)
    (often : fuel ≤ count) :
    Accords long short .left marks none Equal (execute fuel loop.repeated)
      (direct.rounds more count) := by
  induction fuel generalizing count marks with
  | zero => exact .exhaustedLeft _
  | succ fuel inductionHypothesis =>
      obtain ⟨count, rfl⟩ := Nat.exists_eq_add_one.mpr (Nat.zero_lt_of_lt often)
      have less : fuel ≤ more := Nat.le_of_succ_le enough
      have enoughHere : Side.left.Enough 2 fuel more := less
      exact shortened.another enoughHere fun _ _ =>
        inductionHypothesis less (Nat.le_of_succ_le_succ often)

/-- Every round with detours takes one more step, and three more within it. -/
theorem repeated_right
    (shortened : LoopShortened long short loop direct)
    {count : Nat}
    (enough : more + count + 2 < fuel) :
    Accords long short .right marks none Equal (execute fuel loop.repeated)
      (direct.rounds more count) := by
  induction count generalizing fuel marks with
  | zero => exact .exhaustedRight _
  | succ count inductionHypothesis =>
      obtain ⟨fuel, rfl⟩ := Nat.exists_eq_add_one.mpr (Nat.zero_lt_of_lt enough)
      have enoughHere : Side.right.Enough 2 fuel more := by
        show more + 2 < fuel
        omega
      exact shortened.another enoughHere fun _ _ => inductionHypothesis (by omega)

/-- The initializer runs in the scope of the loop, with the rounds behind it. -/
theorem run
    (shortened : LoopShortened long short loop direct)
    (enough : side.Enough (steps + 1) fuel more)
    (repeated : ∀ {later fuel}, side.Enough steps fuel more →
      Accords long short side later none Equal (execute fuel loop.repeated)
        (direct.rounds more more)) :
    Accords long short side marks none Equal (execute fuel loop.desugared)
      (direct.run more) := by
  have initializer := shortened.initializer
  unfold ForLoop.desugared Stmt.forLoop ForLoop.run
  generalize loop.initializer = given at initializer ⊢
  generalize direct.initializer = given' at initializer ⊢
  cases initializer with
  | none => exact repeated (enough.fewer (Nat.le_succ steps))
  | @some first first' same =>
      refine .of_enough (fun fuel => execute fuel _) enough rfl fun fuel enough => ?_
      intro left right related
      refine Accords.inNewScope related.scope (fun later longer => ?_) left right related
      rw [forM_pair]
      refine (Accords.execute enough.pred same).bind fun last _ _ _ _ => ?_
      exact repeated enough.pred

/-- Whenever the loop with detours has enough fuel, the loop without has enough of it, too. -/
theorem run_left (shortened : LoopShortened long short loop direct) (fuel : Nat) :
    Accords long short .left marks none Equal (execute fuel loop.desugared)
      (direct.run fuel) := by
  have enough : Side.left.Enough 1 fuel fuel := Nat.le_refl fuel
  exact shortened.run enough fun enough => shortened.repeated_left enough enough

/-- What the loop without detours takes is enough for the other one if it is doubled. -/
theorem run_right (shortened : LoopShortened long short loop direct) (fuel : Nat) :
    Accords long short .right marks none Equal (execute (2 * fuel + 4) loop.desugared)
      (direct.run fuel) := by
  have enough : Side.right.Enough (fuel + 2 + 1) (2 * fuel + 4) fuel := by
    show fuel + (fuel + 2 + 1) < 2 * fuel + 4
    omega
  refine shortened.run enough fun enough => shortened.repeated_right ?_
  have more : fuel + (fuel + 2) < _ := enough
  omega

end LoopShortened

/-! ## What resolution settles -/

namespace ForLoop

variable (loop : ForLoop)

theorem occurrences_repeated :
    loop.repeated.occurrences =
      Expr.occurrencesOfOptional loop.condition ++
        (loop.body.occurrences ++ Expr.occurrencesOfOptional loop.increment) := by
  unfold repeated round
  rw [Stmt.occurrences]
  cases loop.condition <;> cases loop.increment <;>
    simp [Stmt.occurrences, Stmt.occurrencesOfAll, Expr.occurrences, Expr.occurrencesOfOptional]

/-- Without the blocks, the same occurrences stand in the loop in the same order. -/
theorem occurrencesAt_sites (place : Place) :
    occurrencesAt (loop.sites place) = loop.desugared.occurrences := by
  unfold sites
  rw [occurrencesAt_append, occurrencesAt_append, occurrencesAt_append, occurrencesAt_optional,
    occurrencesAt_optional, occurrencesAt_statement, ← occurrences_repeated]
  unfold sitesOfInitializer desugared Stmt.forLoop
  cases loop.initializer with
  | none => rfl
  | some first =>
      dsimp only
      rw [occurrencesAt_statement]
      exact congrArg _ (List.append_nil _).symm

variable {loop}

/-- What is settled in the loop is recorded for its copy, if that has new identities. -/
theorem recorded
    {number : NodeId → NodeId}
    {distances : Distances}
    (place : Place)
    (injective : Function.Injective number)
    (distinct : loop.desugared.ids.Nodup)
    (unused : ∀ id ∈ loop.desugared.ids, distances.get? (number id) = none) :
    RecordedAs number (distances.record (loop.settlements number place)) (loop.sites place) := by
  intro site member id name occurs
  have settled : site.settlement? = some ⟨id, name, site.place.depth? name⟩ := by
    rw [Site.settlement?, occurs]
    rfl
  have isSettled := List.mem_filterMap.mpr ⟨site, member, settled⟩
  have ids : ((loop.sites place).filterMap Site.settlement?).map (·.id) = loop.desugared.ids := by
    rw [Stmt.ids, ← loop.occurrencesAt_sites place, ← settlements_occurrences, idsOf,
      List.map_map]
    rfl
  have occursIn : id ∈ loop.desugared.ids := by
    rw [← ids]
    exact List.mem_map_of_mem isSettled
  refine Distances.get?_record ?_ (.inl (unused id occursIn)) (.inl ?_)
  · intro other inSettlements same
    obtain ⟨found, isFound, rfl⟩ := List.mem_map.mp inSettlements
    rw [← ids] at distinct
    rw [List.inj_on_of_nodup_map distinct isFound isSettled (injective same)]
  · exact ⟨_, List.mem_map_of_mem isSettled, rfl⟩

/-! ## The loop at its place -/

section

variable {number : NodeId → NodeId} {resolved : Settlement → Prop} {place : Place}

/-- The initializer and the loop behind it stand in the block that is made of them. -/
theorem settled_parts (settled : AllSettled long resolved (loop.desugared.sites place)) :
    AllSettled long resolved (loop.sitesOfInitializer place) ∧
      AllSettled long resolved (loop.repeated.sites (loop.inside place)) := by
  revert settled
  unfold desugared Stmt.forLoop sitesOfInitializer inside
  cases loop.initializer with
  | none => exact fun settled => ⟨by simp [AllSettled], settled⟩
  | some first =>
      intro settled
      obtain ⟨ofFirst, ofLoop⟩ := AllSettled.append.mp settled
      exact ⟨ofFirst, (AllSettled.append.mp ofLoop).1⟩

/-- The body is nearer to everything around it when there is no block for the increment. -/
theorem shortened_round
    (settled : AllSettled long resolved (loop.round.sites place))
    (body : RecordedAs number short (loop.body.sites place))
    (increment : RecordedAs number short (Expr.sitesOfOptional place none loop.increment)) :
    StmtShortened long short loop.detour loop.body (loop.body.renumbered number) ∧
      Option.Rel (ExprShortened long short (some 0)) loop.increment
        (loop.increment.map (·.renumbered number)) := by
  unfold round at settled
  unfold detour
  generalize loop.increment = given at settled increment ⊢
  cases given with
  | none =>
      have same : PlaceShortened none place place := .same
      exact ⟨.of_settled loop.body same (by simp) settled body, .none⟩
  | some step =>
      have nearer : PlaceShortened (some 0) place.entering place := .here
      obtain ⟨settledBody, settledStep⟩ := AllSettled.append.mp settled
      rw [loop.plain, Place.declaring_nil] at settledStep
      refine ⟨.of_settled loop.body nearer (fun _ => loop.plain) settledBody body, .some ?_⟩
      exact .of_settled step nearer (AllSettled.append.mp settledStep).1 increment

/-- A loop that is settled as the parser makes it does the same as its copy does without detours. -/
theorem shortened_of_settled
    (settled : AllSettled long resolved (loop.desugared.sites place))
    (recorded : RecordedAs number short (loop.sites place)) :
    LoopShortened long short loop (loop.renumbered number) := by
  obtain ⟨ofInitializer, ofLoop⟩ := settled_parts settled
  obtain ⟨initializer, rest⟩ := RecordedAs.append.mp recorded
  obtain ⟨condition, rest⟩ := RecordedAs.append.mp rest
  obtain ⟨body, increment⟩ := RecordedAs.append.mp rest
  obtain ⟨ofCondition, ofRound⟩ := AllSettled.append.mp ofLoop
  obtain ⟨bodyShortened, incrementShortened⟩ := shortened_round ofRound body increment
  refine ⟨?_, ?_, incrementShortened, bodyShortened⟩
  · unfold renumbered
    unfold sitesOfInitializer at ofInitializer initializer
    dsimp only
    generalize loop.initializer = given at ofInitializer initializer ⊢
    cases given with
    | none => exact .none
    | some first =>
        have same : PlaceShortened none place.entering place.entering := .same
        exact .some (.of_settled first same (by simp) ofInitializer initializer)
  · have same : PlaceShortened none (loop.inside place) (loop.inside place) := .same
    unfold renumbered
    dsimp only
    generalize loop.condition = given at ofCondition condition ⊢
    cases given with
    | none => exact .none
    | some value => exact .some (.of_settled value same ofCondition condition)

end

end ForLoop

end Lox.Execution
