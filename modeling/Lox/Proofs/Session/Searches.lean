import Lox.Proofs.Execution.ClearNames
import Lox.Proofs.Session.Scopes
import Lox.Proofs.Session.SelfTwins

namespace Lox.Session

open Scoping Execution

/-!
# Distances and plain searches agree

A run goes to the scope at the distance of an occurrence.  As long as a program keeps its
names apart, a search for the name outwards from the current scope finds the same value
and assigns in the same scope, in every session that can come about.
-/

/-! ## What is admitted at occurrences -/

/--
An occurrence stands in one of some programs.  If that one keeps its names apart, the
scopes nearer than that of the occurrence never have its name.
-/
def ClearIfSeparate
    (programs : List (List Stmt))
    (levels : List Label)
    (initializing : Option String)
    (deed : Deed) :
    Prop :=
  ∃ program ∈ programs, ∃ site ∈ programSites program,
    site.deed = deed ∧
      (∀ target, deed = .assigns target → initializing = site.initializing) ∧
      (SeparateNames program → ∀ id name, site.occurrence? = some (id, name) →
        ∃ depth, ⟨id, name, depth⟩ ∈ (Scoping.resolve program).settled ∧
          Clear levels name depth)

/-- Sessions are their own twins when their scopes bind nothing but what is introduced there. -/
def searchPairing : SelfPairing where
  base := ownOccurrences
  admits := ClearIfSeparate
  globals := rfl
  reflexive := ⟨fun _ => rfl, fun _ => rfl⟩
  grows := fun ⟨program, member, rest⟩ => ⟨program, List.mem_cons_of_mem _ member, rest⟩
  own := by
    intro programs program member proper accepted
    refine ⟨introducedAt program, fun site inSites => ⟨?_, ?_⟩⟩
    · exact fun name declares => mem_introducedBy inSites declares
    · intro levels labelled initializing sameInitializing
      refine ⟨program, member, site, inSites, rfl, sameInitializing, ?_⟩
      intro separate id name known
      exact ⟨_, mem_settled_of_accepted accepted inSites known,
        clear_of_accepted proper accepted separate inSites labelled known⟩

/-! ## Occurrences that are evaluated -/

/--
The programs in which a task evaluates an occurrence keep their names apart, and a
variable is not assigned in its own initializer.
-/
def SeparateAt (programs : List (List Stmt)) (task : Task) : Prop :=
  ∀ origin ∈ programs, ∀ site ∈ programSites origin,
    task.deed? = some site.deed → SeparateNames origin ∧ site.OutsideInitializer

variable {programs : List (List Stmt)} {session : Session} {levels : List Label}
  {initializing : Option String} {task : Task}

/-- An assignment that is admitted stands in the initializer in which its site stands. -/
theorem outside_of_admitted
    {target : Reference}
    (admitted : ClearIfSeparate programs levels initializing (.assigns target))
    (separate : SeparateAt programs task)
    (evaluates : task.deed? = some (.assigns target)) :
    initializing ≠ some target.name.text := by
  obtain ⟨origin, inPrograms, site, inSites, isDeed, same, -⟩ := admitted
  rw [same target rfl]
  exact (separate origin inPrograms site inSites (isDeed ▸ evaluates)).2 target isDeed

/-- An occurrence that is admitted and evaluated is clear at its depth. -/
theorem clear_of_admitted
    (holds : Invariant programs session)
    {deed : Deed}
    (admitted : ClearIfSeparate programs levels initializing deed)
    (separate : SeparateAt programs task)
    (evaluates : task.deed? = some deed)
    {place : Place}
    {recorded distances : Distances}
    (settled : Settled recorded (Resolved programs distances) ⟨place, initializing, deed⟩)
    {id : NodeId}
    {name : String}
    (occurs : Site.occurrence? ⟨place, initializing, deed⟩ = some (id, name)) :
    Clear levels name (recorded.get? id) := by
  obtain ⟨origin, inPrograms, site, inSites, rfl, -, clear⟩ := admitted
  obtain ⟨apart, -⟩ := separate origin inPrograms site inSites evaluates
  obtain ⟨found, inOrigin, isClear⟩ := clear apart id name occurs
  obtain ⟨⟨other, inOthers, inOther, -⟩, distance⟩ := settled.recorded id name occurs
  -- No identity is settled in two ways, so the depth that was found is the distance.
  have same := holds.separate origin inPrograms _ inOrigin other inOthers _ inOther rfl
  have isDistance : found = recorded.get? id :=
    (congrArg Settlement.depth same).trans distance.symm
  exact isDistance ▸ isClear

variable {distances : Distances} {fuel : Nat} {state : State}

theorem searchAgrees_reference
    (holds : Invariant programs session)
    {occurrence : Reference}
    (ready : TaskReadyIn (Resolved programs distances) state initializing
      (.expression fuel (.reference occurrence)))
    (same : TaskTwins (searchPairing.pairing programs distances) state initializing
      (.expression fuel (.reference occurrence)))
    (separate : SeparateAt programs (.expression fuel (.reference occurrence))) :
    SearchAgrees state (.expression fuel (.reference occurrence)) := by
  have bound := agrees_of_ready (taskReady_iff.mpr ⟨_, ready⟩)
  obtain ⟨place, -, inside⟩ := ready
  obtain ⟨levels, ⟨labels, twins, layered⟩, both⟩ := same
  cases both with
  | reference _ admitted =>
      have settled := inside.settled _ (List.mem_singleton.mpr rfl)
      have clear := clear_of_admitted holds admitted separate rfl settled rfl
      exact lookUp_of_clear twins layered clear bound

theorem searchAgrees_this
    (holds : Invariant programs session)
    {id : NodeId}
    {line : Nat}
    (ready : TaskReadyIn (Resolved programs distances) state initializing
      (.expression fuel (.this id line)))
    (same : TaskTwins (searchPairing.pairing programs distances) state initializing
      (.expression fuel (.this id line)))
    (separate : SeparateAt programs (.expression fuel (.this id line))) :
    SearchAgrees state (.expression fuel (.this id line)) := by
  have bound := agrees_of_ready (taskReady_iff.mpr ⟨_, ready⟩)
  obtain ⟨place, -, inside⟩ := ready
  obtain ⟨levels, ⟨labels, twins, layered⟩, both⟩ := same
  cases both with
  | this _ admitted =>
      have settled := inside.settled _ (List.mem_singleton.mpr rfl)
      have clear := clear_of_admitted holds admitted separate rfl settled rfl
      refine lookUp_of_clear twins layered clear fun depth known => ?_
      obtain ⟨found, isFound, hasValue⟩ := bound
      obtain rfl := Option.some.inj (isFound.symm.trans known)
      exact hasValue

/--
Once its value is given, a variable that is assigned is bound at its distance, unless it
is being initialized.
-/
theorem searchAgrees_assign
    (holds : Invariant programs session)
    {target : Reference}
    {value : Expr}
    (ready : TaskReadyIn (Resolved programs distances) state initializing
      (.expression fuel (.assign target value)))
    (same : TaskTwins (searchPairing.pairing programs distances) state initializing
      (.expression fuel (.assign target value)))
    (separate : SeparateAt programs (.expression fuel (.assign target value))) :
    SearchAgrees state (.expression fuel (.assign target value)) := by
  obtain ⟨place, proper, inside⟩ := ready
  obtain ⟨levels, point, both⟩ := same
  cases both with
  | assign sameValue _ admitted =>
      intro fuel found after given
      have behind := inside.right.behind proper.2 inside.left given
      obtain ⟨labels, twins, layered⟩ := point.evaluated sameValue given
      have settled := behind.settled _ (List.mem_singleton.mpr rfl)
      have distance := (settled.recorded _ _ rfl).2
      have clear := clear_of_admitted holds admitted separate rfl settled rfl
      have outside := outside_of_admitted admitted separate rfl
      refine assignTo_of_clear twins layered clear (fun depth known => ?_) found
      exact getAt?_of_covers behind.covers (distance.symm.trans known) outside

/--
In every session, wherever the run of an accepted program evaluates a variable or `this`
of a program that keeps its names apart, a search for the name outwards from the current
scope gives the same value or error.  Wherever it assigns one, outside of the initializer
of the variable, a search assigns in the same scope or gives the same error.
-/
theorem searches_agree
    {program : List Stmt}
    {resolved : Session}
    (reachable : Reachable programs session)
    (member : program ∈ programs)
    (accepted : resolve program session = .ok () resolved)
    (reaches : Reaches (.statements fuel program) resolved.state task state)
    (separate : SeparateAt programs task) :
    SearchAgrees state task := by
  have holds := reachable_invariant reachable
  obtain ⟨fine, rfl⟩ := accepted_of_resolve accepted
  have ready : TaskReadyIn (Resolved programs (session.recording program).state.distances)
      (session.recording program).state none (.statements fuel program) :=
    ⟨_, holds.proper program member, ready_of_accepted holds member fine⟩
  obtain ⟨outermost, labels, twins⟩ :=
    recording_selfTwin holds member (reachable_selfTwin searchPairing reachable)
  have same : TaskTwins
      (searchPairing.pairing programs (session.recording program).state.distances)
      (session.recording program).state none (.statements fuel program) :=
    ⟨[], ⟨labels, twins, outermost ▸ .outermost⟩, program_selfTwin holds member fine⟩
  obtain ⟨initializing, readyTask, sameTask⟩ := ready_and_twins_of_reaches reaches ready same
  cases task with
  | expression _ value =>
      cases value with
      | reference _ => exact searchAgrees_reference holds readyTask sameTask separate
      | assign _ _ => exact searchAgrees_assign holds readyTask sameTask separate
      | this _ _ => exact searchAgrees_this holds readyTask sameTask separate
      | _ => trivial
  | _ => trivial

/-- The tokens of `{ var a; { a = a; } }`. -/
def assigningTokens : List Token :=
  let word (text : String) : Token := ⟨.identifier, text, 1⟩
  let keyword (word : Keyword) : Token := ⟨.keyword word, word.spelling, 1⟩
  let symbol (symbol : Symbol) : Token := ⟨.symbol symbol, symbol.spelling, 1⟩
  [symbol .leftBrace, keyword .varWord, word "a", symbol .semicolon, symbol .leftBrace,
    word "a", symbol .equal, word "a", symbol .semicolon, symbol .rightBrace,
    symbol .rightBrace]

/-- A block that assigns a variable of the block around it. -/
def assigningProgram : List Stmt :=
  [.block [.varDeclaration ⟨"a", 1⟩ none,
      .block [.expression (.assign ⟨2, ⟨"a", 1⟩⟩ (.reference ⟨1, ⟨"a", 1⟩⟩))]]]

/-- An inner block assigns where a search for the variable comes to. -/
theorem searches_agree_assignment :
    ∃ session resolved state,
      Reachable [assigningProgram] session ∧
        resolve assigningProgram session = .ok () resolved ∧
        resolved.state.distances.get? 2 = some 1 ∧
        Reaches (.statements 4 assigningProgram) resolved.state
          (.expression 1 (.assign ⟨2, ⟨"a", 1⟩⟩ (.reference ⟨1, ⟨"a", 1⟩⟩))) state ∧
        SearchAgrees state
          (.expression 1 (.assign ⟨2, ⟨"a", 1⟩⟩ (.reference ⟨1, ⟨"a", 1⟩⟩))) := by
  have faultless :
      (Grammar.readProgram (Grammar.Reader.start assigningTokens 0)).errors = [] :=
    List.isEmpty_iff.mp (by decide +kernel)
  have legible : Grammar.LegibleTokens assigningTokens := by
    unfold Grammar.LegibleTokens
    decide
  have read : (Grammar.readProgram (Grammar.Reader.start assigningTokens 0)).statements =
      assigningProgram := rfl
  obtain ⟨program, session, isRead, parsed⟩ : ∃ program session,
      program = (Grammar.readProgram (Grammar.Reader.start assigningTokens 0)).statements ∧
        parseTokens Grammar.program assigningTokens (start ⟨0⟩) = .ok program session :=
    ⟨_, _, rfl, parseTokens_of_faultless faultless ⟨0⟩⟩
  obtain rfl : program = assigningProgram := isRead.trans read
  have reachable := Reachable.parsed (.start ⟨0⟩) legible parsed
  have verdict : (Scoping.resolve assigningProgram).verdict = .ok () := by
    decide +kernel
  have accepted : resolve assigningProgram session =
      .ok () (session.recording assigningProgram) := by
    rw [resolve_apply, verdict]
  have settled : ⟨2, "a", some 1⟩ ∈ (Scoping.resolve assigningProgram).settled := by
    decide +kernel
  have recorded : (session.recording assigningProgram).state.distances.get? 2 = some 1 :=
    (reachable_invariant reachable).recorded_now List.mem_cons_self settled
  have separate : SeparateNames assigningProgram := by
    decide +kernel
  have outside : ∀ site ∈ programSites assigningProgram, site.initializing = none := by
    decide +kernel
  obtain ⟨state, reached⟩ : ∃ state,
      Reaches (.statements 4 assigningProgram) (session.recording assigningProgram).state
        (.expression 1 (.assign ⟨2, ⟨"a", 1⟩⟩ (.reference ⟨1, ⟨"a", 1⟩⟩))) state :=
    ⟨_, .inside .firstStatement <| .inside (.block rfl) <| .inside (.otherStatements rfl) <|
      .inside .firstStatement <| .inside (.block rfl) <| .inside .firstStatement <|
      .inside .effect .here⟩
  refine ⟨session, session.recording assigningProgram, state, reachable, accepted, recorded,
    reached, ?_⟩
  have separateAt : SeparateAt [assigningProgram]
      (.expression 1 (.assign ⟨2, ⟨"a", 1⟩⟩ (.reference ⟨1, ⟨"a", 1⟩⟩))) := by
    intro origin member site inSites evaluates
    obtain rfl := List.mem_singleton.mp member
    exact ⟨separate, fun target _ => by simp [outside site inSites]⟩
  exact searches_agree reachable List.mem_cons_self accepted reached separateAt

end Lox.Session
