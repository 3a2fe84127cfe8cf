import Lox.Proofs.Execution.Endings
import Lox.Proofs.Execution.Steps

namespace Lox.Execution

open Scoping

/-!
# Declarations and calls

The steps that make scopes, and those that bind names in them.  Each of them
brings the scopes of the run from one place of the program to the next one: behind
a declaration, into a block or a function, and around the methods of a class.
-/

section

variable {resolved : Settlement → Prop} {state : State} {allowed : Exit → Prop}

/-! ## Names and scopes -/

/-- Binding a declared name brings the run behind its declaration. -/
theorem defineHere_keeps
    {place : Place}
    {name : Identifier}
    (coherent : Coherent state.distances resolved state.heap)
    (covers : Covers state.heap state.scope place none)
    (legible : name.Legible)
    (value : Value) :
    Keeps resolved (defineHere name.text value) state
      (fun _ after =>
        Covers after.heap after.scope (place.declaring [name.text]) none)
      allowed := by
  refine .of_ok rfl ⟨.define _ _ _ _, rfl, rfl⟩ ?_ ?_
  · exact coherent.define state.scope legible value
  · exact (covers.declaring name.text).define value

/-- A new scope stands at the start of a local scope whose names it binds. -/
theorem newScope_keeps
    {bindings : Bindings Value}
    {enclosing : ScopeId}
    {place : Place}
    {names : List String}
    (coherent : Coherent state.distances resolved state.heap)
    (typed : Typed bindings)
    (covers : Covers state.heap enclosing place none)
    (binds : ∀ name ∈ names, bindings.contains name = true) :
    Keeps resolved (newScope bindings enclosing) state
      (fun scope after =>
        Covers after.heap scope (place.entering.declaring names) none)
      allowed := by
  refine .of_ok rfl ⟨.addScope _ _, rfl, rfl⟩ ?_ (covers.addScope binds)
  exact coherent.addScope typed

theorem newBlockScope_keeps
    {place : Place}
    {enclosing : ScopeId}
    (coherent : Coherent state.distances resolved state.heap)
    (covers : Covers state.heap enclosing place none) :
    Keeps resolved (newScope Bindings.empty enclosing) state
      (fun scope after => Covers after.heap scope place.entering none) allowed := by
  rw [← place.entering.declaring_nil]
  exact newScope_keeps coherent .empty covers (by simp)

/-! ## Functions -/

/-- A declared function is live, because its closure has its own name as well. -/
theorem declareFunction_keeps
    {place : Place}
    {declaration : FunctionDeclaration}
    (coherent : Coherent state.distances resolved state.heap)
    (covers : Covers state.heap state.scope place none)
    (legible : declaration.name.Legible)
    (proper : declaration.Proper)
    (settled : AllSettled state.distances resolved
      (declaration.sites .function (place.declaring [declaration.name.text]))) :
    Keeps resolved (declareFunction declaration) state
      (fun _ after =>
        Covers after.heap after.scope (place.declaring [declaration.name.text]) none)
      allowed := by
  -- The closure covers the place behind the name only once the name is bound, which is
  -- after the function was made; so both steps are taken at once.
  let value : Value := .functionObject state.heap.functions.size
  let named := state.heap.define state.scope declaration.name.text value
  have covered : Covers named state.scope
      (place.declaring [declaration.name.text]) none :=
    (covers.declaring _).define value
  have live : LiveFunction state.distances resolved named
      ⟨declaration, state.scope, false⟩ :=
    ⟨_, _, covered, proper, settled⟩
  refine .of_ok rfl ⟨.define _ _ _ _, rfl, rfl⟩ ?_ (covered.grows (.of_scopes rfl))
  exact (coherent.define state.scope legible value).addFunction live

/-- A declaration among others has its sites among theirs. -/
theorem AllSettled.of_method
    {distances : Distances}
    {place : Place}
    {methods : List FunctionDeclaration}
    {declaration : FunctionDeclaration}
    (settled :
      AllSettled distances resolved (FunctionDeclaration.sitesOfAll place methods))
    (member : declaration ∈ methods) :
    AllSettled distances resolved (declaration.sites .method place) := by
  induction methods with
  | nil => simp at member
  | cons first rest inductionHypothesis =>
      intro site inSites
      rcases List.mem_cons.mp member with rfl | later
      · exact settled site (List.mem_append_left _ inSites)
      · refine inductionHypothesis (fun other inRest => ?_) later site inSites
        exact settled other (List.mem_append_right _ inRest)

end

end Lox.Execution

namespace Lox

/-- Proper functions are proper one by one. -/
theorem FunctionDeclaration.AllProper.of_mem
    {methods : List FunctionDeclaration}
    (proper : FunctionDeclaration.AllProper methods)
    {declaration : FunctionDeclaration}
    (member : declaration ∈ methods) :
    declaration.Proper := by
  induction methods with
  | nil => simp at member
  | cons first rest inductionHypothesis =>
      rcases List.mem_cons.mp member with rfl | later
      · exact proper.1
      · exact inductionHypothesis proper.2 later

end Lox

namespace Lox.Execution

open Scoping

section

variable {resolved : Settlement → Prop} {state : State} {allowed : Exit → Prop}

/-! ## Classes -/

/-- Methods closed over a scope that covers the place around `this` are live. -/
theorem live_methodTable
    {distances : Distances}
    {heap : Heap}
    {place : Place}
    {closure : ScopeId}
    {methods : List FunctionDeclaration}
    (covers : Covers heap closure place none)
    (proper : FunctionDeclaration.AllProper methods)
    (settled : AllSettled distances resolved
      (FunctionDeclaration.sitesOfAll (place.holding receiverName) methods)) :
    ∀ name method, (methodTable closure methods).get? name = some method →
      LiveMethod distances resolved heap method := by
  intro name method known
  obtain ⟨declaration, member, same⟩ :=
    List.mem_map.mp (Bindings.mem_of_get?_ofList known)
  obtain ⟨-, rfl⟩ := Prod.mk.inj same
  exact ⟨place, covers, proper.of_mem member, settled.of_method member⟩

/-- A class with live methods may be bound to a legible name. -/
theorem defineClass_keeps
    {place : Place}
    {name : Identifier}
    {declared : Class}
    (coherent : Coherent state.distances resolved state.heap)
    (covers : Covers state.heap state.scope place none)
    (legible : name.Legible)
    (live : LiveClass state.distances resolved state.heap declared) :
    Keeps resolved (do defineHere name.text (← newClass declared)) state
      (fun _ after => Covers after.heap after.scope place none) allowed := by
  let value : Value := .classObject state.heap.classes.size
  have grown := Grows.define state.heap state.scope name.text value
  refine .of_ok rfl ⟨grown, rfl, rfl⟩ ?_ (covers.grows grown)
  have named : LiveClass state.distances resolved
      (state.heap.define state.scope name.text value) declared :=
    live.grows grown
  exact (coherent.define state.scope legible value).addClass named

/-- The class that a superclass clause names may be missing as a look-up may. -/
theorem superclassOf_keeps
    {parent : Reference}
    (found : Keeps resolved (lookUp parent.id parent.name) state (fun _ _ => True) allowed)
    (mistyped :
      allowed (.error (.typeFault (.superclassNotClass parent.name)))) :
    Keeps resolved (superclassOf parent) state (fun _ _ => True) allowed := by
  refine found.bind fun value after _ _ coherentAfter _ => ?_
  cases value with
  | classObject id => exact .pure coherentAfter trivial
  | _ => exact .throw coherentAfter mistyped

/-- A class without a superclass is live, and so are its methods. -/
theorem declareBaseClass_keeps
    {place : Place}
    {name : Identifier}
    {methods : List FunctionDeclaration}
    (coherent : Coherent state.distances resolved state.heap)
    (covers : Covers state.heap state.scope place none)
    (legible : name.Legible)
    (proper : FunctionDeclaration.AllProper methods)
    (settled : AllSettled state.distances resolved
      (FunctionDeclaration.sitesOfAll
        ((place.declaring [name.text]).ofMethods none) methods)) :
    Keeps resolved (declareClass name none methods) state
      (fun _ after =>
        Covers after.heap after.scope (place.declaring [name.text]) none)
      allowed := by
  rw [declareClass_none]
  refine (defineHere_keeps coherent covers legible .nil).bind ?_
  intro _ after _ evolves coherentAfter named
  have inClass : Covers after.heap after.scope
      ((place.declaring [name.text]).asClass .base) none :=
    named.of_scopes rfl
  refine .get ?_
  refine defineClass_keeps coherentAfter named legible ?_
  exact live_methodTable inClass proper (evolves.distances ▸ settled)

/-- A class with a superclass is live, and so are its methods. -/
theorem declareSubclass_keeps
    {place : Place}
    {name : Identifier}
    {parent : Reference}
    {methods : List FunctionDeclaration}
    (covers : Covers state.heap state.scope place none)
    (legible : name.Legible)
    (proper : FunctionDeclaration.AllProper methods)
    (settled : AllSettled state.distances resolved
      (FunctionDeclaration.sitesOfAll
        ((place.declaring [name.text]).ofMethods (some parent)) methods))
    (superclass : Keeps resolved (superclassOf parent) state (fun _ _ => True) allowed) :
    Keeps resolved (declareClass name (some parent) methods) state
      (fun _ after =>
        Covers after.heap after.scope (place.declaring [name.text]) none)
      allowed := by
  rw [declareClass_some]
  refine superclass.bind fun id first _ evolves coherent _ => ?_
  refine (defineHere_keeps coherent (evolves.covers covers) legible .nil).bind ?_
  intro _ second _ evolvesSecond coherentSecond named
  have inClass : Covers second.heap second.scope
      ((place.declaring [name.text]).asClass .subclass) none :=
    named.of_scopes rfl
  have around : Keeps resolved
      (newScope (Bindings.ofList [(superclassName, .classObject id)]) second.scope)
      second
      (fun scope after => Covers after.heap scope
        (((place.declaring [name.text]).asClass .subclass).holding superclassName) none)
      allowed := by
    refine newScope_keeps coherentSecond (.superclassScope id) inClass ?_
    intro other member
    obtain rfl := List.mem_singleton.mp member
    exact Bindings.contains_ofList (by simp)
  refine .get (around.bind fun closure third _ evolvesThird coherentThird inside => ?_)
  refine defineClass_keeps coherentThird (evolvesThird.covers named) legible ?_
  refine live_methodTable inside proper ?_
  exact evolvesThird.settled (evolvesSecond.settled (evolves.settled settled))

/-! ## Calls -/

/-- A callee that can run with a number of arguments. -/
def LiveCallee
    (distances : Distances)
    (resolved : Settlement → Prop)
    (heap : Heap)
    (count : Nat) :
    Callee → Prop
  | .native _ => True
  | .function function =>
      LiveFunction distances resolved heap function ∧ function.arity = count
  | .classObject id => heap.classArity id = count

/-- A callee is live, and takes as many arguments as it is given. -/
theorem calleeFor_keeps
    {task : Task}
    {origin : State}
    (coherent : Coherent state.distances resolved state.heap)
    (subject : Value)
    (count line : Nat) :
    Keeps resolved (calleeFor subject count line) state
      (fun callee after => LiveCallee after.distances resolved after.heap count callee)
      (MayStop task origin) := by
  refine .get ?_
  dsimp only
  cases known : state.heap.callee? subject with
  | none => exact .throw coherent (.of_other (by simp) (by simp))
  | some callee =>
      by_cases matched : count = state.heap.arity callee
      · simp only [matched, if_true]
        refine .pure coherent ?_
        cases callee with
        | native _ => trivial
        | classObject id => rfl
        | function function =>
            refine ⟨?_, rfl⟩
            cases subject with
            | functionObject id =>
                obtain ⟨found, table, same⟩ := Option.map_eq_some_iff.mp known
                obtain rfl := Callee.function.inj same
                exact coherent.functions id found table
            | _ => simp [Heap.callee?] at known
      · simp only [matched, if_false]
        exact .throw coherent (.of_other (by simp) (by simp))

/-- A call of a live function stands at the start of its body. -/
theorem activate_keeps
    {function : Function}
    {arguments : List Value}
    {place : Place}
    (coherent : Coherent state.distances resolved state.heap)
    (covers : Covers state.heap function.closure place none)
    (legible : ∀ name ∈ function.declaration.parameters, name.Legible)
    (matched : function.arity = arguments.length) :
    Keeps resolved (activate function arguments) state
      (fun scope after =>
        Covers after.heap scope
          (place.entering.declaring (function.declaration.parameters.map (·.text))) none)
      allowed := by
  refine newScope_keeps coherent (.ofList ?_) covers ?_
  · rintro ⟨name, value⟩ member
    obtain ⟨declared, inParameters, rfl⟩ := List.mem_map.mp (List.of_mem_zip member).1
    exact legible declared inParameters
  · -- Pairing drops parameters beyond the arguments; the arity says there are none.
    intro name member
    have enough : (function.declaration.parameters.map (·.text)).length ≤
        arguments.length := by
      rw [List.length_map]
      exact Nat.le_of_eq matched
    exact Bindings.contains_ofList (by rwa [List.map_fst_zip enough])

theorem callResult_keeps
    (coherent : Coherent state.distances resolved state.heap)
    (function : Function)
    (result : Value) :
    Keeps resolved (callResult function result) state (fun _ _ => True) allowed := by
  unfold callResult
  split
  · exact .get (.pure coherent trivial)
  · exact .pure coherent trivial

theorem newInstance_keeps
    (coherent : Coherent state.distances resolved state.heap)
    (classId : ClassId) :
    Keeps resolved (newInstance classId) state
      (fun _ after => after.heap.classes = state.heap.classes) allowed :=
  .of_ok rfl ⟨.of_scopes rfl, rfl, rfl⟩ (coherent.of_instances _) rfl

/-- The methods of a class depend on classes only. -/
theorem findMethod?_of_classes
    {heap other : Heap}
    (same : other.classes = heap.classes)
    (classId : ClassId)
    (name : String) :
    other.findMethod? classId name = heap.findMethod? classId name := by
  unfold Heap.findMethod?
  rw [same]
  generalize heap.classes.size = fuel
  induction fuel generalizing classId with
  | zero => rfl
  | succ fuel inductionHypothesis =>
      have above : other.findMethodWithin? name fuel = heap.findMethodWithin? name fuel :=
        funext inductionHypothesis
      simp only [Heap.findMethodWithin?, same, above]

end

end Lox.Execution
