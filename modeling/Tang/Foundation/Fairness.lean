import Mathlib.Order.Filter.AtTopBot.Basic
import Mathlib.Order.Filter.Finite
import Tang.Foundation.Machine

/-! # Infinite runs and fairness

A schedule names an action for each time, or none. A disabled action is skipped,
so every schedule has an infinite run. A group of actions is treated fairly when
it does not stay enabled from some time on without ever acting again.
-/

namespace Foundation.Machine

open Filter

universe uState uAction

variable {State : Type uState} {Action : Type uAction} (machine : Machine State Action)
  (schedule : Nat → Option Action)

/-- The state at each time of a schedule. -/
def states : Nat → State
  | 0 => machine.start
  | time + 1 =>
      ((schedule time).bind (machine.step (states time))).getD (states time)

/-- The step from one time to the next. -/
def Takes (time : Nat) (action : Action) : Prop :=
  schedule time = some action ∧
    machine.step (machine.states schedule time) action =
      some (machine.states schedule (time + 1))

/-- One of the actions is taken. -/
def Acts (mine : Action → Prop) (time : Nat) : Prop :=
  ∃ action, mine action ∧ machine.Takes schedule time action

/-- One of the actions can be taken. -/
def Enabled (mine : Action → Prop) (state : State) : Prop :=
  ∃ action, mine action ∧ (machine.step state action).isSome

/-- What can be done from some time on is done again and again. -/
def Fair (mine : Action → Prop) : Prop :=
  (∀ᶠ time in atTop, machine.Enabled mine (machine.states schedule time)) →
    ∃ᶠ time in atTop, machine.Acts schedule mine time

/-- What can be done again and again is done again and again. -/
def StronglyFair (mine : Action → Prop) : Prop :=
  (∃ᶠ time in atTop, machine.Enabled mine (machine.states schedule time)) →
    ∃ᶠ time in atTop, machine.Acts schedule mine time

/-- Every step taken starts in a state that meets the condition. -/
def MeetsAlways (condition : State → Action → Prop) : Prop :=
  ∀ time action, machine.Takes schedule time action →
    condition (machine.states schedule time) action

variable {machine schedule}

/-- Between two times a step is taken, or nothing happens. -/
theorem takes_or_rests (machine : Machine State Action) (schedule : Nat → Option Action)
    (time : Nat) :
    (∃ action, machine.Takes schedule time action) ∨
      (∀ mine, ¬ machine.Acts schedule mine time) ∧
        machine.states schedule (time + 1) = machine.states schedule time := by
  cases hschedule : schedule time with
  | none =>
      refine Or.inr ⟨?_, by simp [states, hschedule]⟩
      rintro mine ⟨action, _, htakes, _⟩
      simp [hschedule] at htakes
  | some action =>
      cases hstep : machine.step (machine.states schedule time) action with
      | none =>
          refine Or.inr ⟨?_, by simp [states, hschedule, hstep]⟩
          rintro mine ⟨other, _, hother, htaken⟩
          obtain rfl : action = other := Option.some.inj (hschedule.symm.trans hother)
          simp [hstep] at htaken
      | some next =>
          refine Or.inl ⟨action, hschedule, ?_⟩
          simp [states, hschedule, hstep]

theorem Takes.unique {time : Nat} {action other : Action}
    (htakes : machine.Takes schedule time action) (hother : machine.Takes schedule time other) :
    other = action :=
  Option.some.inj (hother.1.symm.trans htakes.1)

/-- An invariant that the steps meeting a condition preserve. -/
theorem states_invariant {invariant : State → Prop} {condition : State → Action → Prop}
    (hstart : invariant machine.start)
    (hpreserved : ∀ state action next, invariant state → condition state action →
      machine.step state action = some next → invariant next)
    (hmeets : machine.MeetsAlways schedule condition) (time : Nat) :
    invariant (machine.states schedule time) := by
  induction time with
  | zero => exact hstart
  | succ time ih =>
      rcases takes_or_rests machine schedule time with ⟨action, htakes⟩ | ⟨_, hrests⟩
      · exact hpreserved _ action _ ih (hmeets time action htakes) htakes.2
      · rwa [hrests]

/-- A group that stops acting is not enabled all the time. -/
theorem Fair.not_eventually_enabled {mine : Action → Prop} (hfair : machine.Fair schedule mine)
    (hidle : ∀ᶠ time in atTop, ¬ machine.Acts schedule mine time) :
    ¬ ∀ᶠ time in atTop, machine.Enabled mine (machine.states schedule time) := by
  intro henabled
  obtain ⟨time, hacts, hnot⟩ := ((hfair henabled).and_eventually hidle).exists
  exact hnot hacts

theorem StronglyFair.fair {mine : Action → Prop} (hfair : machine.StronglyFair schedule mine) :
    machine.Fair schedule mine :=
  fun henabled => hfair henabled.frequently

section Waiting

variable {mine : Action → Prop} (waits goal : Nat → Prop)
  (hmoves : ∀ time, waits time →
    (waits (time + 1) ∧ ¬ machine.Acts schedule mine time) ∨ goal time)

include hmoves

/-- Who never reaches the goal waits for ever, and does nothing. -/
theorem waits_of_not_goal {time : Nat} (hnever : ∀ later, time ≤ later → ¬ goal later)
    (hwaits : waits time) :
    (∀ᶠ later in atTop, waits later) ∧
      ∀ᶠ later in atTop, ¬ machine.Acts schedule mine later := by
  have hforever : ∀ later, time ≤ later → waits later := by
    intro later hlater
    induction later, hlater using Nat.le_induction with
    | base => exact hwaits
    | succ later hlater ih => exact ((hmoves later ih).resolve_right (hnever later hlater)).1
  refine ⟨eventually_atTop.mpr ⟨time, hforever⟩,
    eventually_atTop.mpr ⟨time, fun later hlater => ?_⟩⟩
  exact ((hmoves later (hforever later hlater)).resolve_right (hnever later hlater)).2

/-- A fair group that waits for nothing but itself reaches its goal. -/
theorem Fair.leads (hfair : machine.Fair schedule mine)
    (henabled : ∀ time, waits time → machine.Enabled mine (machine.states schedule time))
    {time : Nat} (hwaits : waits time) : ∃ later, time ≤ later ∧ goal later := by
  by_contra hnever
  push Not at hnever
  obtain ⟨hforever, hidle⟩ := waits_of_not_goal waits goal hmoves hnever hwaits
  exact hfair.not_eventually_enabled hidle (hforever.mono henabled)

/-- A strongly fair group reaches its goal when it can go on again and again. -/
theorem StronglyFair.leads (hfair : machine.StronglyFair schedule mine)
    (henabled : ∀ time, waits time →
      ∃ later, time ≤ later ∧
        (waits later → machine.Enabled mine (machine.states schedule later)))
    {time : Nat} (hwaits : waits time) : ∃ later, time ≤ later ∧ goal later := by
  by_contra hnever
  push Not at hnever
  obtain ⟨hforever, hidle⟩ := waits_of_not_goal waits goal hmoves hnever hwaits
  have hagain : ∃ᶠ later in atTop, machine.Enabled mine (machine.states schedule later) := by
    obtain ⟨start, hstart⟩ := eventually_atTop.mp hforever
    refine frequently_atTop.mpr fun first => ?_
    obtain ⟨later, hlater, hable⟩ := henabled (max start first) (hstart _ (le_max_left _ _))
    exact ⟨later, (le_max_right _ _).trans hlater,
      hable (hstart later ((le_max_left _ _).trans hlater))⟩
  obtain ⟨later, hacts, hnot⟩ := ((hfair hagain).and_eventually hidle).exists
  exact hnot hacts

end Waiting

/-- A fair group whose steps lower a rank that no other step raises reaches its
goal. -/
theorem Fair.leads_ranked {mine : Action → Prop} (hfair : machine.Fair schedule mine)
    (waits goal : Nat → Prop) (rank : Nat → Nat)
    (hmoves : ∀ time, waits time →
      (waits (time + 1) ∧ (rank (time + 1) < rank time ∨
        rank (time + 1) ≤ rank time ∧ ¬ machine.Acts schedule mine time)) ∨ goal time)
    (henabled : ∀ time, waits time → machine.Enabled mine (machine.states schedule time))
    {time : Nat} (hwaits : waits time) : ∃ later, time ≤ later ∧ goal later := by
  induction hrank : rank time using Nat.strong_induction_on generalizing time with
  | h bound ih =>
      -- until the rank is lower, or the goal is reached
      obtain ⟨first, hfirst, hgoal | ⟨hafter, hlower⟩⟩ :=
        Fair.leads (fun now => waits now ∧ rank now ≤ bound)
          (fun now => goal now ∨ waits (now + 1) ∧ rank (now + 1) < bound)
          (fun now hnow => by
            rcases hmoves now hnow.1 with ⟨hafter, hlower | ⟨hle, hidle⟩⟩ | hgoal
            · exact Or.inr (Or.inr ⟨hafter, hlower.trans_le hnow.2⟩)
            · exact Or.inl ⟨⟨hafter, hle.trans hnow.2⟩, hidle⟩
            · exact Or.inr (Or.inl hgoal))
          hfair (fun now hnow => henabled now hnow.1) ⟨hwaits, hrank.le⟩
      · exact ⟨first, hfirst, hgoal⟩
      · obtain ⟨later, hlater, hgoal⟩ := ih _ hlower hafter rfl
        exact ⟨later, by omega, hgoal⟩

/-! ## Finite schedules -/

theorem states_of_silent {first : Nat} (hsilent : ∀ time, first ≤ time → schedule time = none)
    (time : Nat) (htime : first ≤ time) :
    machine.states schedule time = machine.states schedule first := by
  induction time, htime using Nat.le_induction with
  | base => rfl
  | succ time htime ih =>
      rw [← ih]
      simp [states, hsilent time htime]

/-- A schedule that ends is fair to who can do nothing at its end. -/
theorem stronglyFair_of_silent {first : Nat}
    (hsilent : ∀ time, first ≤ time → schedule time = none) {mine : Action → Prop}
    (hdisabled : ¬ machine.Enabled mine (machine.states schedule first)) :
    machine.StronglyFair schedule mine := by
  intro henabled
  obtain ⟨time, hnow, htime⟩ := (henabled.and_eventually (eventually_ge_atTop first)).exists
  rw [states_of_silent hsilent time htime] at hnow
  exact absurd hnow hdisabled

theorem fair_of_silent {first : Nat} (hsilent : ∀ time, first ≤ time → schedule time = none)
    {mine : Action → Prop} (hdisabled : ¬ machine.Enabled mine (machine.states schedule first)) :
    machine.Fair schedule mine :=
  (stronglyFair_of_silent hsilent hdisabled).fair

/-! ## What does not change for ever -/

/-- A value that does not change any more. -/
theorem eventually_constant {α : Type*} (value : Nat → α)
    (hstays : ∀ᶠ time in atTop, value (time + 1) = value time) :
    ∃ last, ∀ᶠ time in atTop, value time = last := by
  obtain ⟨first, hfirst⟩ := eventually_atTop.mp hstays
  refine ⟨value first, eventually_atTop.mpr ⟨first, fun time htime => ?_⟩⟩
  induction time, htime using Nat.le_induction with
  | base => rfl
  | succ time htime ih => rw [hfirst time htime, ih]

/-- A rank that never grows ends up constant. -/
theorem eventually_level (rank : Nat → Nat)
    (hfalls : ∀ᶠ time in atTop, rank (time + 1) ≤ rank time) :
    ∀ᶠ time in atTop, rank (time + 1) = rank time := by
  obtain ⟨first, hfirst⟩ := eventually_atTop.mp hfalls
  have hmono : ∀ start, first ≤ start → ∀ time, start ≤ time → rank time ≤ rank start := by
    intro start hstart time htime
    induction time, htime using Nat.le_induction with
    | base => exact le_rfl
    | succ time htime ih => exact (hfirst time (hstart.trans htime)).trans ih
  -- from the time on at which the rank is least
  obtain ⟨least, hleast, hmin⟩ :=
    (measure rank).wf.has_min {time | first ≤ time} ⟨first, le_refl first⟩
  refine eventually_atTop.mpr ⟨least, fun time htime => ?_⟩
  have hfrom : ∀ later, least ≤ later → rank later = rank least := fun later hlater =>
    le_antisymm (hmono least hleast later hlater)
      (Nat.le_of_not_lt (hmin later (le_trans hleast hlater)))
  rw [hfrom time htime, hfrom (time + 1) (Nat.le_succ_of_le htime)]

/-- What lowers a rank that never grows comes to an end. -/
theorem eventually_not_lowered (rank : Nat → Nat) (lowers : Nat → Prop)
    (hfalls : ∀ᶠ time in atTop, rank (time + 1) ≤ rank time)
    (hlowers : ∀ᶠ time in atTop, lowers time → rank (time + 1) < rank time) :
    ∀ᶠ time in atTop, ¬ lowers time := by
  filter_upwards [eventually_level rank hfalls, hlowers] with time hlevel hlower hnow
  exact (hlower hnow).ne hlevel

/-- What lasts once it holds, and is broken again and again, is over at some time. -/
theorem eventually_not (property : Nat → Prop)
    (hlasts : ∀ᶠ time in atTop, property time → property (time + 1))
    (hbreaks : ∃ᶠ time in atTop, ¬ property time) : ∀ᶠ time in atTop, ¬ property time := by
  obtain ⟨first, hfirst⟩ := eventually_atTop.mp hlasts
  refine eventually_atTop.mpr ⟨first, fun start hstart hproperty => ?_⟩
  obtain ⟨later, hlater, hbroken⟩ := frequently_atTop.mp hbreaks start
  apply hbroken
  clear hbroken
  induction later, hlater using Nat.le_induction with
  | base => exact hproperty
  | succ time htime ih => exact hfirst time (hstart.trans htime) ih

/-- A part whose rank falls whenever it moves, but for a phase that it leaves
again and again, comes to rest outside of the phase. -/
theorem eventually_rests {Stage : Type*} (stage : Nat → Stage) (rank : Stage → Nat)
    (inside : Stage → Prop) (acts : Nat → Prop)
    (hmoves : ∀ᶠ time in atTop, (stage (time + 1) = stage time ∧ ¬ acts time) ∨
      rank (stage (time + 1)) < rank (stage time) ∨
      inside (stage time) ∧ inside (stage (time + 1)) ∧
        rank (stage (time + 1)) = rank (stage time))
    (hleaves : ∃ᶠ time in atTop, ¬ inside (stage time)) :
    ∃ last, ¬ inside last ∧ ∀ᶠ time in atTop, stage time = last ∧ ¬ acts time := by
  have hlevel := eventually_level (fun time => rank (stage time)) (hmoves.mono fun time htime => by
    rcases htime with ⟨hsame, _⟩ | hlt | ⟨_, _, heq⟩
    · exact le_of_eq (congrArg rank hsame)
    · exact hlt.le
    · exact heq.le)
  -- without a fall it stays inside once it is there, and it does not
  have houtside : ∀ᶠ time in atTop, ¬ inside (stage time) :=
    eventually_not (fun time => inside (stage time))
      ((hmoves.and hlevel).mono fun time ⟨hcase, hequal⟩ hinside => by
        rcases hcase with ⟨hsame, _⟩ | hlt | ⟨_, hlater, _⟩
        · rwa [hsame]
        · exact absurd hequal hlt.ne
        · exact hlater) hleaves
  have hstill : ∀ᶠ time in atTop, stage (time + 1) = stage time ∧ ¬ acts time :=
    ((hmoves.and hlevel).and houtside).mono fun time ⟨⟨hcase, hequal⟩, hout⟩ => by
      rcases hcase with hstays | hlt | ⟨hinside, _⟩
      · exact hstays
      · exact absurd hequal hlt.ne
      · exact absurd hinside hout
  obtain ⟨last, hlast⟩ := eventually_constant stage (hstill.mono fun _ => And.left)
  refine ⟨last, ?_, (hlast.and hstill).mono fun _ ⟨hsame, _, hidle⟩ => ⟨hsame, hidle⟩⟩
  obtain ⟨time, hsame, hout⟩ := (hlast.and houtside).exists
  rwa [hsame] at hout

end Foundation.Machine
