import Mathlib.Algebra.Group.Int.Defs
import Tang.Foundation.Family
import Tang.Foundation.Machine

/-! # The counter behind its guard

`task_started` is one atomic increment. `task_completed` reads the counter, and
if it was positive decrements it in a second atomic step. Workers, the main loop
and `task::run` on a finished task call `task_completed`, so any thread may be
between the two steps at any time. `stop` ends with a store of zero.
-/

namespace Tang.Scheduler.Counter

open Foundation

/-- Where a thread stands in `task_completed`. -/
inductive Stage
  | outside
  /-- The test has found `active_tasks_` positive. -/
  | decrementing
  deriving DecidableEq

structure State (Thread : Type) where
  active : Int
  stages : Thread → Stage

inductive Action (Thread : Type)
  /-- `task_started`. -/
  | started (thread : Thread)
  /-- `task_completed`, up to its test. -/
  | test (thread : Thread)
  | decrement (thread : Thread)
  /-- `active_tasks_.store(0)`. -/
  | reset
  deriving DecidableEq

/-- `active_tasks_` is a `std::atomic_int`, which wraps around. -/
def wrap (value : Int) : Int := value.bmod (2 ^ 32)

variable {Thread : Type} [DecidableEq Thread]

def State.advance (state : State Thread) (thread : Thread) (stage : Stage) : State Thread :=
  { state with stages := Function.update state.stages thread stage }

def step (state : State Thread) : Action Thread → Option (State Thread)
  | .started thread =>
      match state.stages thread with
      | .outside => some { state with active := wrap (state.active + 1) }
      | .decrementing => none
  | .test thread =>
      match state.stages thread with
      | .outside =>
          if 0 < state.active then some (state.advance thread .decrementing) else some state
      | .decrementing => none
  | .decrement thread =>
      match state.stages thread with
      | .outside => none
      | .decrementing =>
          some ({ state with active := wrap (state.active - 1) }.advance thread .outside)
  | .reset => some { state with active := 0 }

def initial : State Thread where
  active := 0
  stages _ := .outside

/-- All interleavings of the calls of any number of threads. -/
def machine (Thread : Type) [DecidableEq Thread] : Machine (State Thread) (Action Thread) where
  start := initial
  step := step

/-! ## What the counter has to cover -/

/-- The decrements a thread still has to make. -/
def Stage.pending : Stage → Nat
  | .outside => 0
  | .decrementing => 1

def NonNegative (state : State Thread) : Prop := 0 ≤ state.active

instance (state : State Thread) : Decidable (NonNegative state) :=
  inferInstanceAs (Decidable (0 ≤ state.active))

/-- `task_started` leaves the counter positive. -/
def Raises (_ : State Thread) (action : Action Thread) (next : State Thread) : Prop :=
  ∀ thread, action = .started thread → 0 < next.active

variable [Fintype Thread]

/-- The decrements that are still to come. -/
def State.pending (state : State Thread) : Nat := total Stage.pending state.stages

/-- The tests that pass are covered by the counter, one unit for each decrement
that is still to come, and the counter does not overflow. -/
def Covered (state : State Thread) : Action Thread → Prop
  | .started _ => state.active < 2 ^ 31 - 1
  | .test _ => 0 < state.active → state.pending < state.active
  | .decrement _ => True
  | .reset => state.pending = 0

/-- What covered steps preserve. -/
structure Covers (state : State Thread) : Prop where
  pending_le : state.pending ≤ state.active
  bounded : state.active < 2 ^ 31

theorem wrap_of_bounds {value : Int} (hlower : -2 ^ 31 ≤ value) (hupper : value < 2 ^ 31) :
    wrap value = value := by
  apply Int.bmod_eq_of_le <;> simp only [Nat.reducePow] <;> omega

omit [DecidableEq Thread] in
theorem State.exists_decrementing {state : State Thread} (hpending : 0 < state.pending) :
    ∃ thread, state.stages thread = .decrementing := by
  by_contra hnone
  refine hpending.ne' (total_eq_zero fun thread => ?_)
  cases hstage : state.stages thread with
  | outside => rfl
  | decrementing => exact absurd ⟨thread, hstage⟩ hnone

/-! ## What a step does to the counter and the decrements to come -/

inductive Trades (state next : State Thread) : Action Thread → Prop
  | raises (thread : Thread) (hactive : next.active = wrap (state.active + 1))
      (hpending : next.pending = state.pending) : Trades state next (.started thread)
  | passes (thread : Thread) (hpositive : 0 < state.active)
      (hactive : next.active = state.active) (hpending : next.pending = state.pending + 1) :
      Trades state next (.test thread)
  | skips (thread : Thread) (hzero : ¬ 0 < state.active) (hnext : next = state) :
      Trades state next (.test thread)
  | lowers (thread : Thread) (hactive : next.active = wrap (state.active - 1))
      (hpending : next.pending + 1 = state.pending) : Trades state next (.decrement thread)
  | clears (hactive : next.active = 0) (hpending : next.pending = state.pending) :
      Trades state next .reset

variable {state next : State Thread} {action : Action Thread}

theorem trades_of_step (hstep : (machine Thread).step state action = some next) :
    Trades state next action := by
  change step state action = some next at hstep
  cases action with
  | started thread =>
      simp only [step] at hstep
      split at hstep
      next => cases hstep; exact .raises thread rfl rfl
      next => cases hstep
  | test thread =>
      simp only [step] at hstep
      split at hstep
      next hstage =>
        have htotal := total_update Stage.pending state.stages thread .decrementing
        rw [hstage] at htotal
        split at hstep
        next hpositive => cases hstep; exact .passes thread hpositive rfl htotal
        next hzero => cases hstep; exact .skips thread hzero rfl
      next => cases hstep
  | decrement thread =>
      simp only [step] at hstep
      split at hstep
      next => cases hstep
      next hstage =>
        have htotal := total_update Stage.pending state.stages thread .outside
        rw [hstage] at htotal
        cases hstep
        exact .lowers thread rfl htotal
  | reset =>
      cases hstep
      exact .clears rfl rfl

namespace Covers

omit [DecidableEq Thread] in
theorem nonNegative (hcovers : Covers state) : NonNegative state :=
  (Int.natCast_nonneg _).trans hcovers.pending_le

omit [DecidableEq Thread] in
theorem initial : Covers (initial : State Thread) where
  pending_le := by
    have hnone : (Counter.initial : State Thread).pending = 0 := total_eq_zero fun _ => rfl
    rw [hnone]
    rfl
  bounded := by simp [Counter.initial]

omit [DecidableEq Thread] in
theorem step (hcovers : Covers state) (hcondition : Covered state action)
    (htrades : Trades state next action) : Covers next ∧ Raises state action next := by
  obtain ⟨hpending, hbounded⟩ := hcovers
  cases htrades with
  | raises thread hactive hkeeps =>
      simp only [Covered] at hcondition
      rw [wrap_of_bounds (by omega) (by omega)] at hactive
      exact ⟨⟨by omega, by omega⟩, fun _ _ => by omega⟩
  | passes thread hpositive hactive hmore =>
      have hcovered := hcondition hpositive
      exact ⟨⟨by omega, by omega⟩, by simp [Raises]⟩
  | skips thread _ hnext =>
      subst hnext
      exact ⟨⟨hpending, hbounded⟩, by simp [Raises]⟩
  | lowers thread hactive hless =>
      rw [wrap_of_bounds (by omega) (by omega)] at hactive
      exact ⟨⟨by omega, by omega⟩, by simp [Raises]⟩
  | clears hactive hkeeps =>
      simp only [Covered] at hcondition
      exact ⟨⟨by omega, by omega⟩, by simp [Raises]⟩

end Covers

/-! ## No step can do without its cover -/

/-- The decrements that are still to come take a counter below them under zero. -/
theorem not_secure_of_lt (hbounded : state.active < 2 ^ 31)
    (hpending : state.active < state.pending) :
    ¬ (machine Thread).Secure Covered NonNegative state := by
  intro hsecure
  have hnonneg : 0 ≤ state.active := hsecure.head
  induction hcount : state.pending generalizing state with
  | zero => omega
  | succ count ih =>
      obtain ⟨thread, hstage⟩ := State.exists_decrementing (show 0 < state.pending by omega)
      obtain ⟨next, hstep⟩ : ∃ next, (machine Thread).step state (.decrement thread) =
          some next := ⟨_, by simp only [machine, Counter.step, hstage]; rfl⟩
      have hnext := hsecure.step (by trivial) hstep
      cases trades_of_step hstep with
      | lowers _ hactive hless =>
          rw [wrap_of_bounds (by omega) (by omega)] at hactive
          exact ih (by omega) (by omega) hnext hnext.head (by omega)

theorem not_secure_of_uncovered (hcovers : Covers state) (hcondition : ¬ Covered state action)
    (htrades : Trades state next action) :
    ¬ (machine Thread).Secure Covered NonNegative next := by
  obtain ⟨hpending, hbounded⟩ := hcovers
  cases htrades with
  | raises thread hactive _ =>
      intro hsecure
      have hnonneg : 0 ≤ next.active := hsecure.head
      have hlast : state.active + 1 = 2 ^ 31 := by
        simp only [Covered] at hcondition
        omega
      rw [hactive, hlast] at hnonneg
      exact absurd hnonneg (by decide)
  | passes thread hpositive hactive hmore =>
      simp only [Covered] at hcondition
      exact not_secure_of_lt (by omega) (by omega)
  | skips thread hzero hnext => exact absurd (fun hpositive => absurd hpositive hzero) hcondition
  | lowers thread _ _ => exact absurd trivial hcondition
  | clears hactive hkeeps =>
      simp only [Covered] at hcondition
      exact not_secure_of_lt (by omega) (by omega)

/-- In every run the counter stays safe from the calls that are under way
exactly if every test that passes is covered; then it is never negative, and
`task_started` leaves it positive. -/
theorem secure_along_iff_covered (actions : List (Action Thread)) :
    ((machine Thread).Along ((machine Thread).Secure Covered NonNegative) initial actions ↔
        (machine Thread).Meets Covered initial actions) ∧
      ((machine Thread).Meets Covered initial actions →
        (machine Thread).Along NonNegative initial actions ∧
          (machine Thread).Throughout Raises initial actions) := by
  have hpreserved : ∀ (state : State Thread) action next, Covers state → Covered state action →
      (machine Thread).step state action = some next → Covers next :=
    fun _ _ _ hcovers hcondition hstep => (hcovers.step hcondition (trades_of_step hstep)).1
  have hproperty : ∀ state : State Thread, Covers state → NonNegative state :=
    fun _ hcovers => hcovers.nonNegative
  refine ⟨?_, fun hmeets => ⟨?_, ?_⟩⟩
  · exact Machine.secure_along_iff_meets Covers hpreserved hproperty
      (fun _ _ _ hcovers hcondition hstep =>
        not_secure_of_uncovered hcovers hcondition (trades_of_step hstep)) .initial
  · exact Machine.along_of_meets Covers hpreserved hproperty .initial hmeets
  · exact Machine.throughout_of_meets Covers hpreserved
      (fun _ _ _ hcovers hcondition hstep => (hcovers.step hcondition (trades_of_step hstep)).2)
      .initial hmeets

/-- Two threads complete a task while one is active: both tests pass, and the
next task that starts leaves the counter at zero. -/
theorem two_completions_run :
    (((machine (Fin 2)).exec initial [.started 0, .test 0, .test 1, .decrement 0,
        .decrement 1]).map State.active = some (-1)) ∧
      ((machine (Fin 2)).exec initial [.started 0, .test 0, .test 1, .decrement 0,
        .decrement 1, .started 0]).map State.active = some 0 ∧
      ¬ (machine (Fin 2)).Along NonNegative initial [.started 0, .test 0, .test 1,
        .decrement 0, .decrement 1] := by
  decide

end Tang.Scheduler.Counter
