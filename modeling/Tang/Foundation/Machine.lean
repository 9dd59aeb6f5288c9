import Mathlib.Logic.Function.Basic

/-! # Deterministic labelled machines and their runs

All nondeterminism of a concurrent program (which party moves, what it does)
is carried by the action, so a step is a partial function and a run is a list
of actions. A disabled action ends the run: nothing is said about what follows.
`Along` and `Throughout` say that a property holds in every state, or of every
step, of one run; `Meets` says that every step taken satisfies a condition on
the state it starts in.
-/

namespace Foundation

universe uState uAction

/-- A start state and a partial transition function. -/
structure Machine (State : Type uState) (Action : Type uAction) where
  start : State
  step : State → Action → Option State

namespace Machine

variable {State : Type uState} {Action : Type uAction} (machine : Machine State Action)

/-- The state after a list of actions, all of which have to be enabled. -/
def exec : State → List Action → Option State
  | state, [] => some state
  | state, action :: rest => (machine.step state action).bind fun next => exec next rest

/-- States some run from the start state ends in. -/
inductive Reachable : State → Prop
  | start : Reachable machine.start
  | step {state next : State} (action : Action) (prior : Reachable state)
      (hstep : machine.step state action = some next) : Reachable next

/-- The property holds in every state the run passes through. -/
def Along (property : State → Prop) : State → List Action → Prop
  | state, [] => property state
  | state, action :: rest => property state ∧
      ∀ next, machine.step state action = some next → Along property next rest

/-- The property holds of every step the run takes. -/
def Throughout (property : State → Action → State → Prop) : State → List Action → Prop
  | _, [] => True
  | state, action :: rest => ∀ next, machine.step state action = some next →
      property state action next ∧ Throughout property next rest

/-- Every step the run takes starts in a state that meets the condition. -/
def Meets (condition : State → Action → Prop) : State → List Action → Prop :=
  machine.Throughout fun state action _ => condition state action

instance decidableAlong (property : State → Prop) [DecidablePred property] :
    (state : State) → (actions : List Action) → Decidable (machine.Along property state actions)
  | state, [] => inferInstanceAs (Decidable (property state))
  | state, action :: rest =>
      have := fun next => decidableAlong property next rest
      inferInstanceAs (Decidable (property state ∧ ∀ next ∈ machine.step state action,
        machine.Along property next rest))

instance decidableThroughout (property : State → Action → State → Prop)
    [∀ state action next, Decidable (property state action next)] :
    (state : State) → (actions : List Action) →
      Decidable (machine.Throughout property state actions)
  | _, [] => inferInstanceAs (Decidable True)
  | state, action :: rest =>
      have := fun next => decidableThroughout property next rest
      inferInstanceAs (Decidable (∀ next ∈ machine.step state action,
        property state action next ∧ machine.Throughout property next rest))

instance (condition : State → Action → Prop) [∀ state action, Decidable (condition state action)]
    (state : State) (actions : List Action) : Decidable (machine.Meets condition state actions) :=
  machine.decidableThroughout (fun state action _ => condition state action) state actions

variable {machine}

/-- An inductive invariant holds in every reachable state. -/
theorem Reachable.invariant {invariant : State → Prop} (hstart : invariant machine.start)
    (hpreserved : ∀ state action next, invariant state →
      machine.step state action = some next → invariant next)
    {state : State} (hstate : machine.Reachable state) : invariant state := by
  induction hstate with
  | start => exact hstart
  | step action _ hstep ih => exact hpreserved _ action _ ih hstep

namespace Along

variable {property : State → Prop} {state final : State} {actions : List Action}

theorem head (halong : machine.Along property state actions) : property state := by
  cases actions with
  | nil => exact halong
  | cons action rest => exact halong.1

/-- A property that holds along a run holds in the state the run ends in. -/
theorem last (halong : machine.Along property state actions)
    (hfinal : machine.exec state actions = some final) : property final := by
  induction actions generalizing state with
  | nil =>
      cases hfinal
      exact halong
  | cons action rest ih =>
      obtain ⟨next, hnext, hrest⟩ := Option.bind_eq_some_iff.mp hfinal
      exact ih (halong.2 next hnext) hrest

end Along

/-- The last step of an executable run satisfies a property that holds
throughout it. -/
theorem Throughout.last {property : State → Action → State → Prop}
    {state middle next : State} (front : List Action) {action : Action}
    (hrun : machine.Throughout property state (front ++ [action]))
    (hmiddle : machine.exec state front = some middle)
    (hnext : machine.step middle action = some next) : property middle action next := by
  induction front generalizing state with
  | nil =>
      cases hmiddle
      exact (hrun next hnext).1
  | cons first rest ih =>
      obtain ⟨after, hafter, hrest⟩ := Option.bind_eq_some_iff.mp hmiddle
      exact ih (hrun after hafter).2 hrest

/-- An invariant that every step preserves holds along every run. -/
theorem along_of_invariant (invariant : State → Prop) {property : State → Prop}
    (hpreserved : ∀ state action next, invariant state →
      machine.step state action = some next → invariant next)
    (hproperty : ∀ state, invariant state → property state)
    {state : State} (hstate : invariant state) {actions : List Action} :
    machine.Along property state actions := by
  induction actions generalizing state with
  | nil => exact hproperty state hstate
  | cons action rest ih =>
      exact ⟨hproperty state hstate, fun next hnext =>
        ih (hpreserved state action next hstate hnext)⟩

theorem Reachable.exec {state final : State} (hstate : machine.Reachable state)
    (actions : List Action) (hfinal : machine.exec state actions = some final) :
    machine.Reachable final := by
  induction actions generalizing state with
  | nil =>
      cases hfinal
      exact hstate
  | cons action rest ih =>
      obtain ⟨next, hnext, hrest⟩ := Option.bind_eq_some_iff.mp hfinal
      exact ih (hstate.step action hnext) hrest

theorem exec_append (state : State) (front back : List Action) :
    machine.exec state (front ++ back) =
      (machine.exec state front).bind fun middle => machine.exec middle back := by
  induction front generalizing state with
  | nil => rfl
  | cons action rest ih => simp only [List.cons_append, exec, ih, Option.bind_assoc]

/-- An invariant survives every run. -/
theorem exec_invariant (invariant : State → Prop)
    (hpreserved : ∀ state action next, invariant state →
      machine.step state action = some next → invariant next)
    {state final : State} (hstate : invariant state) {actions : List Action}
    (hfinal : machine.exec state actions = some final) : invariant final :=
  (along_of_invariant invariant hpreserved (fun _ hinvariant => hinvariant) hstate).last hfinal

/-- What every step does holds throughout every run. -/
theorem throughout_of_step {property : State → Action → State → Prop}
    (hproperty : ∀ state action next,
      machine.step state action = some next → property state action next)
    (state : State) (actions : List Action) : machine.Throughout property state actions := by
  induction actions generalizing state with
  | nil => trivial
  | cons action rest ih =>
      intro next hnext
      exact ⟨hproperty state action next hnext, ih next⟩

/-- What every step out of an invariant does holds throughout every run. -/
theorem throughout_of_invariant (invariant : State → Prop)
    {property : State → Action → State → Prop}
    (hpreserved : ∀ state action next, invariant state →
      machine.step state action = some next → invariant next)
    (hproperty : ∀ state action next, invariant state →
      machine.step state action = some next → property state action next)
    {state : State} (hstate : invariant state) {actions : List Action} :
    machine.Throughout property state actions := by
  induction actions generalizing state with
  | nil => trivial
  | cons action rest ih =>
      intro next hnext
      exact ⟨hproperty state action next hstate hnext,
        ih (hpreserved state action next hstate hnext)⟩

/-- A run that starts with an enabled step which meets the condition. -/
theorem Meets.cons {condition : State → Action → Prop} {state next : State} {action : Action}
    {rest : List Action} (hstep : machine.step state action = some next)
    (hcondition : condition state action) (hrest : machine.Meets condition next rest) :
    machine.Meets condition state (action :: rest) := by
  intro other hother
  obtain rfl := Option.some.inj (hstep.symm.trans hother)
  exact ⟨hcondition, hrest⟩

theorem Meets.mono {strong weak : State → Action → Prop} {state : State} {actions : List Action}
    (hmeets : machine.Meets strong state actions)
    (hweak : ∀ state action, strong state action → weak state action) :
    machine.Meets weak state actions := by
  induction actions generalizing state with
  | nil => trivial
  | cons action rest ih =>
      intro next hnext
      obtain ⟨hstrong, hrest⟩ := hmeets next hnext
      exact ⟨hweak state action hstrong, ih hrest⟩

/-- A condition on the actions alone. -/
theorem meets_of_forall {condition : State → Action → Prop} {actions : List Action}
    (hcondition : ∀ action ∈ actions, ∀ state, condition state action) (state : State) :
    machine.Meets condition state actions := by
  induction actions generalizing state with
  | nil => trivial
  | cons action rest ih =>
      intro next _
      exact ⟨hcondition action List.mem_cons_self state,
        ih (fun other hother => hcondition other (List.mem_cons_of_mem _ hother)) next⟩

/-! ## Conditional invariants

An invariant that only the steps meeting a condition preserve still holds along
every run whose steps all meet it. -/

section Conditional

variable (invariant : State → Prop) {property : State → Prop}
  {condition : State → Action → Prop}

theorem along_of_meets
    (hpreserved : ∀ state action next, invariant state → condition state action →
      machine.step state action = some next → invariant next)
    (hproperty : ∀ state, invariant state → property state)
    {state : State} (hstate : invariant state) {actions : List Action}
    (hmeets : machine.Meets condition state actions) :
    machine.Along property state actions := by
  induction actions generalizing state with
  | nil => exact hproperty state hstate
  | cons action rest ih =>
      refine ⟨hproperty state hstate, fun next hnext => ?_⟩
      obtain ⟨hcondition, hrest⟩ := hmeets next hnext
      exact ih (hpreserved state action next hstate hcondition hnext) hrest

theorem throughout_of_meets {stepProperty : State → Action → State → Prop}
    (hpreserved : ∀ state action next, invariant state → condition state action →
      machine.step state action = some next → invariant next)
    (hproperty : ∀ state action next, invariant state → condition state action →
      machine.step state action = some next → stepProperty state action next)
    {state : State} (hstate : invariant state) {actions : List Action}
    (hmeets : machine.Meets condition state actions) :
    machine.Throughout stepProperty state actions := by
  induction actions generalizing state with
  | nil => trivial
  | cons action rest ih =>
      intro next hnext
      obtain ⟨hcondition, hrest⟩ := hmeets next hnext
      exact ⟨hproperty state action next hstate hcondition hnext,
        ih (hpreserved state action next hstate hcondition hnext) hrest⟩

/-- When a step has the property exactly if it meets the condition, a run has the
property throughout exactly if all its steps meet the condition. -/
theorem throughout_iff_meets {stepProperty : State → Action → State → Prop}
    (hpreserved : ∀ state action next, invariant state →
      machine.step state action = some next → invariant next)
    (hexact : ∀ state action next, invariant state →
      machine.step state action = some next →
      (stepProperty state action next ↔ condition state action))
    {state : State} (hstate : invariant state) {actions : List Action} :
    machine.Throughout stepProperty state actions ↔ machine.Meets condition state actions := by
  induction actions generalizing state with
  | nil => exact Iff.rfl
  | cons action rest ih =>
      refine forall₂_congr fun next hnext => ?_
      exact and_congr (hexact state action next hstate hnext)
        (ih (hpreserved state action next hstate hnext))

/-- When a step out of a good state leads to a good state exactly if it meets
the condition, a run is good throughout exactly if all its steps meet it. The
invariant only has to survive the steps that meet the condition. -/
theorem along_iff_meets
    (hpreserved : ∀ state action next, invariant state → property state →
      condition state action → machine.step state action = some next → invariant next)
    (hexact : ∀ state action next, invariant state → property state →
      machine.step state action = some next → (property next ↔ condition state action))
    {state : State} (hstate : invariant state) (hgood : property state)
    {actions : List Action} :
    machine.Along property state actions ↔ machine.Meets condition state actions := by
  induction actions generalizing state with
  | nil => exact ⟨fun _ => trivial, fun _ => hgood⟩
  | cons action rest ih =>
      constructor
      · rintro ⟨_, htail⟩ next hnext
        have hrest := htail next hnext
        have hgoodNext : property next := Along.head hrest
        have hcondition := (hexact state action next hstate hgood hnext).mp hgoodNext
        have hstateNext := hpreserved state action next hstate hgood hcondition hnext
        exact ⟨hcondition, (ih hstateNext hgoodNext).mp hrest⟩
      · intro hmeets
        refine ⟨hgood, fun next hnext => ?_⟩
        obtain ⟨hcondition, hrest⟩ := hmeets next hnext
        have hgoodNext := (hexact state action next hstate hgood hnext).mpr hcondition
        have hstateNext := hpreserved state action next hstate hgood hcondition hnext
        exact (ih hstateNext hgoodNext).mpr hrest

end Conditional

/-! ## Conditions that no step can do without -/

/-- Every run from here whose steps meet the condition keeps the property. -/
def Secure (machine : Machine State Action) (condition : State → Action → Prop)
    (property : State → Prop) (state : State) : Prop :=
  ∀ later, machine.Meets condition state later → machine.Along property state later

theorem Secure.head {condition : State → Action → Prop} {property : State → Prop} {state : State}
    (hsecure : machine.Secure condition property state) : property state :=
  hsecure [] trivial

theorem Secure.step {condition : State → Action → Prop} {property : State → Prop}
    {state next : State} {action : Action} (hsecure : machine.Secure condition property state)
    (hcondition : condition state action) (hstep : machine.step state action = some next) :
    machine.Secure condition property next :=
  fun later hmeets => (hsecure (action :: later) (.cons hstep hcondition hmeets)).2 next hstep

theorem Secure.exec {condition : State → Action → Prop} {property : State → Prop}
    {state final : State} (hsecure : machine.Secure condition property state)
    {actions : List Action} (hmeets : machine.Meets condition state actions)
    (hfinal : machine.exec state actions = some final) :
    machine.Secure condition property final := by
  induction actions generalizing state with
  | nil =>
      cases hfinal
      exact hsecure
  | cons action rest ih =>
      obtain ⟨next, hnext, hrest⟩ := Option.bind_eq_some_iff.mp hfinal
      obtain ⟨hcondition, htail⟩ := hmeets next hnext
      exact ih (hsecure.step hcondition hnext) htail hrest

/-- When the condition keeps an invariant, and a step that does not meet it leads
to a state which is not secure, a run is secure throughout exactly if all its
steps meet the condition. -/
theorem secure_along_iff_meets (invariant : State → Prop) {property : State → Prop}
    {condition : State → Action → Prop}
    (hpreserved : ∀ state action next, invariant state → condition state action →
      machine.step state action = some next → invariant next)
    (hproperty : ∀ state, invariant state → property state)
    (hbreaks : ∀ state action next, invariant state → ¬ condition state action →
      machine.step state action = some next → ¬ machine.Secure condition property next)
    {state : State} (hstate : invariant state) {actions : List Action} :
    machine.Along (machine.Secure condition property) state actions ↔
      machine.Meets condition state actions := by
  have hsecure : ∀ state, invariant state → machine.Secure condition property state :=
    fun _ hinvariant _ hmeets => along_of_meets invariant hpreserved hproperty hinvariant hmeets
  apply along_iff_meets invariant ?_ ?_ hstate (hsecure state hstate)
  · intro state action next hinvariant _ hcondition hstep
    exact hpreserved state action next hinvariant hcondition hstep
  · intro state action next hinvariant _ hstep
    constructor
    · intro hnext
      by_contra hcondition
      exact hbreaks state action next hinvariant hcondition hstep hnext
    · intro hcondition
      exact hsecure next (hpreserved state action next hinvariant hcondition hstep)

end Machine

end Foundation
