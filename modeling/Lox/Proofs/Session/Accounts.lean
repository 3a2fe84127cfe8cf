import Lox.Proofs.Execution.Homes
import Lox.Proofs.Session.Scopes

namespace Lox.Session

open Scoping Execution

/-!
# Accounts of sessions

The account of a session is the series of the acts of the programs that were accepted in
it.  As all names of parsed programs are legible, what is kept by legible acts holds all
through a session.
-/

/-! ## Accounts -/

/-- The programs that were parsed in a session, and the acts of those that were run. -/
inductive Recounts (clock : Clock) : List (List Stmt) → List Act → Session → Prop where
  | start : Recounts clock [] [] (start clock)
  | parsed {programs history session tokens program after} :
      Recounts clock programs history session →
      Grammar.LegibleTokens tokens →
      parseTokens Grammar.program tokens session = .ok program after →
      Recounts clock (program :: programs) history after
  | misparsed {programs history session tokens stop after} :
      Recounts clock programs history session →
      parseTokens Grammar.program tokens session = .error stop after →
      Recounts clock programs history after
  | rejected {programs history session program stop after} :
      Recounts clock programs history session →
      program ∈ programs →
      resolve program session = .error stop after →
      Recounts clock programs history after
  | ran {programs history session program resolved fuel progress} :
      Recounts clock programs history session →
      program ∈ programs →
      resolve program session = .ok () resolved →
      Course (.statements fuel program) resolved.state progress →
      progress.state = endState (executeAll fuel program resolved.state) →
      Recounts clock programs (history ++ progress.acts) ⟨progress.state, resolved.nextId⟩

/-- The states that a session comes by while an accepted program runs, each with its account. -/
inductive Passes (clock : Clock) : List Act → State → Prop where
  | underway {programs history session program resolved fuel progress} :
      Recounts clock programs history session →
      program ∈ programs →
      resolve program session = .ok () resolved →
      Course (.statements fuel program) resolved.state progress →
      Passes clock (history ++ progress.acts) progress.state

section

variable {programs : List (List Stmt)} {session resolved : Session} {program : List Stmt}
  {clock : Clock} {history : List Act} {fuel : Nat} {progress : Progress}

/-- An accepted program leaves the session where its statements end. -/
theorem endState_runProgram
    (accepted : resolve program session = .ok () resolved)
    (fuel : Nat) :
    endState (runProgram fuel program session) =
      ⟨endState (executeAll fuel program resolved.state), resolved.nextId⟩ := by
  unfold runProgram
  rw [bind_of_ok accepted, ← Execution.endState_interpret]
  unfold interpret onState
  cases Execution.interpret fuel program resolved.state <;> rfl

/-- A session with an account can come about. -/
theorem Recounts.reachable (recounts : Recounts clock programs history session) :
    Reachable programs session := by
  induction recounts with
  | start => exact .start clock
  | parsed _ legible given reachable => exact reachable.parsed legible given
  | misparsed _ stopped reachable => exact reachable.misparsed stopped
  | @rejected _ _ session program stop after _ member stopped reachable =>
      have rejected : runProgram 0 program session = .error stop after := by
        unfold runProgram
        rw [bind_apply, stopped]
      exact reachable.stopped 0 member rejected
  | @ran _ _ session program resolved fuel progress _ member accepted _ same reachable =>
      have ends := endState_runProgram accepted fuel
      rw [← same] at ends
      cases run : runProgram fuel program session with
      | ok value after =>
          rw [run] at ends
          obtain rfl : after = _ := ends
          exact reachable.finished fuel member run
      | error stop after =>
          rw [run] at ends
          obtain rfl : after = _ := ends
          exact reachable.stopped fuel member run

/-- Every session that can come about has an account. -/
theorem Reachable.recounts (reachable : Reachable programs session) :
    ∃ clock history, Recounts clock programs history session := by
  have ran : ∀ {programs session program after fuel},
      (∃ clock history, Recounts clock programs history session) → program ∈ programs →
      endState (runProgram fuel program session) = after →
      ∃ clock history, Recounts clock programs history after := by
    rintro programs session program after fuel ⟨clock, history, before⟩ member ended
    cases accepted : resolve program session with
    | error stop rejected =>
        have stopped : runProgram fuel program session = .error stop rejected := by
          unfold runProgram
          rw [bind_apply, accepted]
        obtain rfl : rejected = after := by rwa [stopped] at ended
        exact ⟨clock, history, before.rejected member accepted⟩
    | ok _ resolved =>
        rw [endState_runProgram accepted] at ended
        have reaches : Reaches (.statements fuel program) resolved.state _ _ := .here
        obtain ⟨progress, course, same⟩ := reaches.course_end
        rw [Task.run, endState_map] at same
        rw [← same] at ended
        exact ⟨clock, _, ended ▸ before.ran member accepted course same⟩
  induction reachable with
  | start clock => exact ⟨clock, [], .start⟩
  | parsed _ legible given before =>
      obtain ⟨clock, history, recounts⟩ := before
      exact ⟨clock, history, recounts.parsed legible given⟩
  | misparsed _ stopped before =>
      obtain ⟨clock, history, recounts⟩ := before
      exact ⟨clock, history, recounts.misparsed stopped⟩
  | finished fuel _ member given before => exact ran before member (by rw [given]; rfl)
  | stopped fuel _ member stopped before => exact ran before member (by rw [stopped]; rfl)

/-! ## What holds all through a session -/

/-- What an account says of the state to which it leads. -/
structure Accounted (clock : Clock) (history : List Act) (state : State) : Prop where
  visited : Visited clock history state
  legible : ∀ act ∈ history, act.Legible
  dispatching : Dispatching state.heap
  housed : state.heap.Housed

/-- Between programs the global scope is current, and it holds no keyword. -/
structure Resting (clock : Clock) (history : List Act) (state : State) : Prop
    extends Accounted clock history state where
  current : state.scope = state.globals
  outermost : state.heap.enclosing? state.scope = none
  plain : state.heap.Plain state.scope

theorem start_resting (clock : Clock) : Resting clock [] (start clock).state := by
  have plain : ∀ scope keyword, IsKeyword keyword →
      (State.initial clock).heap.getLocal? scope keyword = none := by
    intro scope keyword isKeyword
    refine (Heap.getLocal?_addScope _ _ _).trans ?_
    split
    · rcases isKeyword with rfl | rfl <;> rfl
    · simp [Heap.empty, Heap.getLocal?]
  have none {α : Type} {id : Nat} {found : α} : (#[] : Array α)[id]? ≠ some found := by simp
  refine ⟨⟨.start, by simp, ?_, fun id function known => absurd known none⟩, rfl, rfl, plain _⟩
  refine ⟨fun scope value found => ?_, fun id function known => absurd known none,
    fun classId made name method known => absurd known none,
    fun classId method other inherited has => ?_⟩
  · cases (plain scope _ (.inl rfl)).symm.trans found
  · obtain ⟨made, name, known, -⟩ := has
    exact absurd known none

/-- Settling distances has to do with nothing else. -/
theorem Resting.settled {state : State} (resting : Resting clock history state)
    (distances : Distances) :
    Resting clock history { state with distances := distances } :=
  ⟨⟨resting.visited.settled distances, resting.legible, resting.dispatching,
    resting.housed⟩, resting.current, resting.outermost, resting.plain⟩

/-- An accepted program begins at home. -/
theorem Resting.atHome
    (resting : Resting clock history session.state)
    (reachable : Reachable programs session)
    (member : program ∈ programs)
    (accepted : resolve program session = .ok () resolved)
    (fuel : Nat) :
    Resting clock history resolved.state ∧
      AtHome (Resolved programs resolved.state.distances) resolved.state
        (.statements fuel program) := by
  obtain ⟨fine, rfl⟩ := accepted_of_resolve accepted
  have holds := reachable_invariant reachable
  have ready : TaskReady (Resolved programs (session.recording program).state.distances)
      (session.recording program).state (.statements fuel program) :=
    ⟨_, holds.proper program member, ready_of_accepted holds member fine⟩
  have recorded : Resting clock history (session.recording program).state :=
    resting.settled _
  obtain ⟨whole, scope, globals, ordered⟩ := recorded.visited.sound
  have grounded : Grounded (Resolved programs (session.recording program).state.distances)
      (session.recording program).state (.statements fuel program) :=
    { ready
      whole
      roots := by simp [Task.roots, Task.handed, scope, globals]
      ordered := ⟨_, ordered⟩
      dispatching := recorded.dispatching
      plain := recorded.plain }
  have unbound := recorded.plain receiverName (.inl rfl)
  exact ⟨recorded, grounded, recorded.housed, .outermost unbound recorded.outermost _⟩

/-- The run of an accepted program keeps what an account says. -/
theorem Resting.underway
    (resting : Resting clock history session.state)
    (reachable : Reachable programs session)
    (member : program ∈ programs)
    (accepted : resolve program session = .ok () resolved)
    (course : Course (.statements fuel program) resolved.state progress) :
    Accounted clock (history ++ progress.acts) progress.state := by
  obtain ⟨recorded, atHome⟩ := resting.atHome reachable member accepted fuel
  obtain ⟨dispatching, -, legible⟩ := course.dispatching atHome.toGrounded
  exact ⟨recorded.visited.underway rfl course,
    List.forall_mem_append.mpr ⟨recorded.legible, legible⟩, dispatching, atHome.course course⟩

theorem Recounts.resting (recounts : Recounts clock programs history session) :
    Resting clock history session.state := by
  induction recounts with
  | start => exact start_resting clock
  | parsed _ _ given resting => exact (fresh_of_parsed given).2 ▸ resting
  | misparsed _ stopped resting =>
      rw [(advances_of_misparsed stopped).2]
      exact resting
  | @rejected _ _ session program _ _ _ _ stopped resting =>
      rw [resolve_apply] at stopped
      split at stopped
      · cases stopped
      · obtain ⟨-, rfl⟩ := EStateM.Result.error.inj stopped
        exact resting.settled _
  | @ran _ _ session program resolved fuel progress before member accepted course same resting =>
      obtain ⟨recorded, atHome⟩ := resting.atHome before.reachable member accepted fuel
      have carries := course.carries atHome.toGrounded
      have restored := restores_steady.executeAll fuel program resolved.state
      rw [← same] at restored
      have scope : resolved.state.heap.Has (.scope resolved.state.scope) :=
        atHome.roots _ List.mem_cons_self
      refine ⟨resting.underway before.reachable member accepted course,
        (restored.scope.trans recorded.current).trans restored.globals.symm, ?_,
        fun keyword isKeyword => ?_⟩
      · exact restored.scope ▸ (carries.around _ scope).trans recorded.outermost
      · exact restored.scope ▸
          (carries.keywords _ keyword scope isKeyword).trans (recorded.plain keyword isKeyword)

/-- All through a session its account holds. -/
theorem Passes.accounted
    {state : State}
    (passes : Passes clock history state) :
    Accounted clock history state := by
  cases passes with
  | underway recounts member accepted course =>
      exact recounts.resting.underway recounts.reachable member accepted course

end

end Lox.Session
