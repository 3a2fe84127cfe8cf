import Lox.Proofs.Execution.Extension
import Lox.Proofs.Execution.LockstepRuns
import Lox.Proofs.Execution.SelfTwins
import Lox.Proofs.Execution.TaskTwins
import Lox.Proofs.Session.Scopes

namespace Lox.Session

open Scoping Execution

/-!
# Sessions are their own twins

In every session the occurrences of all programs are settled and recorded, and each of
them corresponds to itself.  So the state is its own twin, and so is every program that
resolution has accepted.
-/

/-- What a site declares may be bound there, and what happens at it is admitted. -/
structure Permitted
    (pairing : Pairing)
    (allowed : Nat → String → Prop)
    (admits : List Label → Option String → Deed → Prop)
    (site : Site) :
    Prop where
  declared :
    ∀ name, site.deed = .declares name → allowed site.place.scopes.length name.text
  admits :
    ∀ levels, Labelled pairing allowed site.place.scopes levels →
      ∀ initializing,
        (∀ target, site.deed = .assigns target → initializing = site.initializing) →
        admits levels initializing site.deed

/--
A way to pair programs with themselves: what is admitted at the occurrences of some
programs is so at those of all accepted ones, and stays so when further programs are
parsed.
-/
structure SelfPairing where
  base : Pairing
  admits : List (List Stmt) → List Label → Option String → Deed → Prop
  globals : base.globals = 0
  reflexive : base.Reflexive
  grows :
    ∀ {programs program levels initializing deed},
      admits programs levels initializing deed →
      admits (program :: programs) levels initializing deed
  own :
    ∀ {programs program}, program ∈ programs → Stmt.AllProper program →
      (Scoping.resolve program).verdict = .ok () →
      ∃ allowed, ∀ site ∈ programSites program,
        Permitted base allowed (admits programs) site

/-- Occurrences correspond that have been settled in a program and recorded. -/
def SelfPairing.pairing
    (paired : SelfPairing)
    (programs : List (List Stmt))
    (distances : Distances) :
    Pairing :=
  paired.base.settling
    (fun id id' depth => id = id' ∧ ∃ name, Resolved programs distances ⟨id, name, depth⟩)
    (paired.admits programs)

theorem SelfPairing.pairing_reflexive
    (paired : SelfPairing)
    (programs : List (List Stmt))
    (distances : Distances) :
    (paired.pairing programs distances).Reflexive :=
  ⟨paired.reflexive.lines, paired.reflexive.names⟩

/-- The state of a session is its own twin, and outside of all local scopes. -/
def SelfTwin (paired : SelfPairing) (programs : List (List Stmt)) (session : Session) : Prop :=
  session.state.scope = paired.base.globals ∧
    ∃ labels,
      StateTwins (paired.pairing programs session.state.distances) labels session.state
        session.state

/-- What settles occurrences leaves the labels of scopes as they are. -/
theorem labelled_of_settling
    {pairing : Pairing}
    {settled : NodeId → NodeId → Option Nat → Prop}
    {admits : List Label → Option String → Deed → Prop}
    {allowed : Nat → String → Prop}
    {scopes : List (List String)}
    {levels : List Label}
    (labelled : Labelled (pairing.settling settled admits) allowed scopes levels) :
    Labelled pairing allowed scopes levels := by
  induction labelled with
  | nil => exact .nil
  | receiver _ inductionHypothesis => exact .receiver inductionHypothesis
  | superclass _ inductionHypothesis => exact .superclass inductionHypothesis
  | plain permits _ inductionHypothesis => exact .plain permits inductionHypothesis

variable {paired : SelfPairing} {programs : List (List Stmt)} {session after : Session}
  {program : List Stmt}

/-- A state stays its own twin when more is settled, and that is recorded. -/
theorem SelfTwin.recording
    (twin : SelfTwin paired programs session)
    {others : List (List Stmt)}
    {distances : Distances}
    (kept : ∀ settlement, Resolved programs session.state.distances settlement →
      Resolved others distances settlement)
    (admitted : ∀ {levels initializing deed}, paired.admits programs levels initializing deed →
      paired.admits others levels initializing deed)
    (nextId : NodeId) :
    SelfTwin paired others ⟨{ session.state with distances := distances }, nextId⟩ := by
  obtain ⟨outermost, labels, twins⟩ := twin
  have further : (paired.pairing programs session.state.distances).Extends
      (paired.pairing others distances).settled (paired.admits others) := by
    refine ⟨?_, admitted⟩
    rintro id _ depth ⟨rfl, name, resolved⟩
    exact ⟨rfl, name, kept _ resolved⟩
  refine ⟨outermost, labels, twins.recording further distances distances ?_⟩
  rintro id _ depth ⟨rfl, name, -, -, -, recorded⟩
  exact ⟨recorded, recorded⟩

theorem start_selfTwin (clock : Clock) : SelfTwin paired [] (start clock) := by
  have outermost : (paired.pairing [] (start clock).state.distances).globals = 0 :=
    paired.globals
  refine ⟨outermost.symm, _, initial_twins outermost clock ?_⟩
  rintro id id' depth ⟨-, name, program, member, -⟩
  simp at member

theorem parsed_selfTwin
    {tokens : List Token}
    (twin : SelfTwin paired programs session)
    (given : parseTokens Grammar.program tokens session = .ok program after) :
    SelfTwin paired (program :: programs) after := by
  have kept : ∀ settlement, Resolved programs session.state.distances settlement →
      Resolved (program :: programs) session.state.distances settlement := by
    rintro settlement ⟨other, member, rest⟩
    exact ⟨other, List.mem_cons_of_mem _ member, rest⟩
  obtain ⟨final, -, rfl⟩ := read_of_parsed given
  exact twin.recording kept paired.grows _

theorem misparsed_selfTwin
    {tokens : List Token}
    {stop : Stop}
    (twin : SelfTwin paired programs session)
    (stopped : parseTokens Grammar.program tokens session = .error stop after) :
    SelfTwin paired programs after := by
  obtain ⟨_, _, -, rfl⟩ := read_of_misparsed stopped
  exact twin

/-- What was settled before is still recorded when a program is resolved again. -/
theorem resolved_recording
    (holds : Invariant programs session)
    (member : program ∈ programs)
    {settlement : Settlement}
    (resolved : Resolved programs session.state.distances settlement) :
    Resolved programs (session.recording program).state.distances settlement := by
  obtain ⟨other, inPrograms, settled, known⟩ := resolved
  refine ⟨other, inPrograms, settled, ?_⟩
  rcases holds.recorded_later member inPrograms settled with now | before
  · exact now
  · exact before.trans known

/-- An accepted program is its own twin once its distances are recorded. -/
theorem program_selfTwin
    (holds : Invariant programs session)
    (member : program ∈ programs)
    (accepted : (Scoping.resolve program).verdict = .ok ()) :
    BodyTwins (paired.pairing programs (session.recording program).state.distances) [] program
      program := by
  have ready := ready_of_accepted holds member accepted
  obtain ⟨allowed, permitted⟩ := paired.own member (holds.proper program member) accepted
  have prepared : AllPrepared
      (paired.pairing programs (session.recording program).state.distances) allowed
      (programSites program) := by
    intro site inSites
    have settled := ready.settled site inSites
    have here := permitted site inSites
    refine ⟨settled.faultless, settled.sound, ?_, here.declared, ?_⟩
    · exact fun id name known => ⟨rfl, name, (settled.recorded id name known).1⟩
    · exact fun levels labelled => here.admits levels (labelled_of_settling labelled)
  exact selfTwins_statements (paired.pairing_reflexive programs _) program .outermost prepared

/-- A session stays its own twin when the distances of a program are recorded again. -/
theorem recording_selfTwin
    (holds : Invariant programs session)
    (member : program ∈ programs)
    (twin : SelfTwin paired programs session) :
    SelfTwin paired programs (session.recording program) :=
  twin.recording (fun _ resolved => resolved_recording holds member resolved)
    (fun admitted => admitted) _

/-- Running what is its own twin gives a state that is its own twin, however it ends. -/
theorem interpret_selfTwin
    (holds : Invariant programs session)
    (member : program ∈ programs)
    (accepted : (Scoping.resolve program).verdict = .ok ())
    (twin : SelfTwin paired programs (session.recording program))
    (fuel : Nat) :
    match interpret fuel program (session.recording program) with
    | .ok _ after => SelfTwin paired programs after
    | .error _ after => SelfTwin paired programs after := by
  obtain ⟨outermost, labels, twins⟩ := twin
  have run := interpret_lockstep fuel twins (outermost ▸ .outermost)
    (program_selfTwin holds member accepted)
  have ending : ∀ state later,
      Onward (paired.pairing programs (session.recording program).state.distances) labels
        (session.recording program).state later state state →
      SelfTwin paired programs ⟨state, (session.recording program).nextId⟩ := by
    intro state later onward
    refine ⟨onward.evolves.scope.trans outermost, later, ?_⟩
    rw [onward.evolves.distances]
    exact onward.twins
  unfold interpret onState
  unfold Lockstep at run
  cases ended : Execution.interpret fuel program (session.recording program).state with
  | ok value state =>
      rw [ended] at run
      obtain ⟨later, onward, -⟩ := run
      exact ending state later onward
  | error exit state =>
      rw [ended] at run
      obtain ⟨later, onward, -⟩ := run
      exact ending state later onward

/-- Resolving and running a program keeps a session its own twin, whatever becomes of it. -/
theorem runProgram_selfTwin
    (holds : Invariant programs session)
    (member : program ∈ programs)
    (twin : SelfTwin paired programs session)
    (fuel : Nat) :
    match runProgram fuel program session with
    | .ok _ after => SelfTwin paired programs after
    | .error _ after => SelfTwin paired programs after := by
  have recorded := recording_selfTwin holds member twin
  unfold runProgram
  rw [bind_apply, resolve_apply]
  cases accepted : (Scoping.resolve program).verdict with
  | ok _ => exact interpret_selfTwin holds member accepted recorded fuel
  | error error => exact recorded

/-- Every session that can come about is its own twin. -/
theorem reachable_selfTwin
    (paired : SelfPairing)
    (reachable : Reachable programs session) :
    SelfTwin paired programs session := by
  induction reachable with
  | start clock => exact start_selfTwin clock
  | parsed _ _ given twin => exact parsed_selfTwin twin given
  | misparsed _ stopped twin => exact misparsed_selfTwin twin stopped
  | finished fuel before member given twin =>
      have kept := runProgram_selfTwin (reachable_invariant before) member twin fuel
      rwa [given] at kept
  | stopped fuel before member stopped twin =>
      have kept := runProgram_selfTwin (reachable_invariant before) member twin fuel
      rwa [stopped] at kept

/-- Whatever an accepted program reaches is ready, and its own twin. -/
theorem reached_twins
    {resolved : Session}
    {fuel : Nat}
    {task : Task}
    {state : State}
    (paired : SelfPairing)
    (reachable : Reachable programs session)
    (member : program ∈ programs)
    (accepted : resolve program session = .ok () resolved)
    (reaches : Reaches (.statements fuel program) resolved.state task state) :
    ∃ initializing,
      TaskReadyIn (Resolved programs resolved.state.distances) state initializing task ∧
        TaskTwins (paired.pairing programs resolved.state.distances) state initializing
          task := by
  have holds := reachable_invariant reachable
  obtain ⟨fine, rfl⟩ := accepted_of_resolve accepted
  have ready : TaskReadyIn (Resolved programs (session.recording program).state.distances)
      (session.recording program).state none (.statements fuel program) :=
    ⟨_, holds.proper program member, ready_of_accepted holds member fine⟩
  obtain ⟨outermost, labels, twins⟩ :=
    recording_selfTwin holds member (reachable_selfTwin paired reachable)
  exact ready_and_twins_of_reaches reaches ready
    ⟨[], ⟨labels, twins, outermost ▸ .outermost⟩, program_selfTwin holds member fine⟩

end Lox.Session
