import Mathlib.Data.Fintype.Basic
import Tang.Scheduler.Basic

/-! # Waiting for completion

Threads wait on `completion_cv_` for a counter at zero and an empty queue: in
`wait_for_completion`, at the end of `run`, and, for the counter only, in
`stop`. The counter and the queue change without `completion_mutex_`. A waiter
is notified by `task_completed`, which notifies one, and by nothing else.
Workers, the loops of `run` and any other code are threads here; a thread that
has popped a handle is in an iteration, in which the body it resumes may call
the runtime. The queue has a mutex of its own, whose critical sections are
single steps, and so is `init`.
-/

namespace Tang.Scheduler.Release

open Foundation

/-- What a thread waits for on `completion_cv_`. -/
inductive Wait
  /-- `wait_for_completion`. -/
  | completion
  /-- The last timed wait of `run`. -/
  | run
  /-- The timed wait of `stop`. -/
  | stop
  deriving DecidableEq

inductive WaitStage
  /-- Before the lock of `completion_mutex_`. -/
  | entering
  /-- The predicate, with the mutex: `active_tasks_`, then `task_queue_`. -/
  | reading
  | inspecting
  /-- The predicate was false, and the wait has not begun. -/
  | parking
  | blocked
  /-- Woken up, without the mutex. -/
  | notified
  deriving DecidableEq

/-- A call of the scheduler, by its next step. A `last` call of `schedule` is the
re-scheduling that ends an iteration. -/
inductive Call
  | checking (handle : Handle) (last : Bool)
  | counting (handle : Handle) (last : Bool)
  | pushing (handle : Handle) (last : Bool)
  /-- `task_started`. -/
  | starting
  /-- `task_completed`: the test, the decrement, the notification. -/
  | testing
  | decrementing
  | notifying
  | waiting (wait : Wait) (stage : WaitStage)
  /-- `stop`; its wait stands between the last two. -/
  | exchanging
  | joining
  | clearing
  | resetting
  deriving DecidableEq

/-- What code calls. -/
inductive Request
  | schedule (handle : Handle)
  | taskStarted
  | taskCompleted
  | wait (kind : Wait)
  | stop
  deriving DecidableEq

def Request.call : Request → Call
  | .schedule handle => .checking handle false
  | .taskStarted => .starting
  | .taskCompleted => .testing
  | .wait kind => .waiting kind .entering
  | .stop => .exchanging

inductive Iteration
  | outside
  /-- Popped; a worker has still to read `running_` again. -/
  | taken (handle : Handle)
  | held (handle : Handle)
  deriving DecidableEq

/-- A thread: the iteration it is in, and the call it is in. -/
structure Party where
  iteration : Iteration
  call : Option Call
  deriving DecidableEq

namespace Party

def proceed (party : Party) (call : Call) : Party := { party with call := some call }

/-- The call returns. -/
def returns (party : Party) (last : Bool) : Party where
  iteration := if last then .outside else party.iteration
  call := none

end Party

structure State (Thread : Type) where
  running : Bool
  active : Int
  queue : List Handle
  /-- Who holds `completion_mutex_`. -/
  owner : Option Thread
  parties : Thread → Party
  /-- The workers that are not there, or have left their loop. -/
  exited : Thread → Bool
  /-- The coroutines at their final suspension. -/
  done : Handle → Bool

inductive Action (Thread : Type)
  /-- The next step of a call. -/
  | go (thread : Thread)
  /-- The critical section of `task_completed`, and whom `notify_one` wakes. -/
  | notify (thread : Thread) (target : Option Thread)
  | call (thread : Thread) (request : Request)
  | pop (thread : Thread)
  /-- The first step after a pop. -/
  | accept (thread : Thread)
  /-- The coroutine is done, before or after its resumption. -/
  | finish (thread : Thread)
  /-- The resumption throws. -/
  | fail (thread : Thread)
  /-- The coroutine is not done after its resumption. -/
  | again (thread : Thread)
  /-- A worker leaves its loop. -/
  | exit (thread : Thread)
  | spurious (thread : Thread)
  /-- A timed wait ends. -/
  | expire (thread : Thread)
  /-- A coroutine reaches its final suspension. -/
  | ends (handle : Handle)
  /-- `init`, which starts the workers. -/
  | init (thread : Thread)
  deriving DecidableEq

variable {Thread : Type}

namespace State

def blocked (state : State Thread) (thread : Thread) : Prop :=
  ∃ wait, (state.parties thread).call = some (.waiting wait .blocked)

/-- `notify_one` wakes some waiter if there is one. -/
def Notifies (state : State Thread) : Option Thread → Prop
  | some target => state.blocked target
  | none => ∀ thread, ¬ state.blocked thread

variable [DecidableEq Thread]

def set (state : State Thread) (thread : Thread) (party : Party) : State Thread :=
  { state with parties := Function.update state.parties thread party }

/-- A waiter is woken up. -/
def wake (state : State Thread) (thread : Thread) : State Thread :=
  match (state.parties thread).call with
  | some (.waiting wait .blocked) =>
      state.set thread ((state.parties thread).proceed (.waiting wait .notified))
  | _ => state

end State

instance (party : Party) : Decidable (∃ wait, party.call = some (.waiting wait .blocked)) :=
  decidable_of_iff (party.call = some (.waiting .completion .blocked) ∨
      party.call = some (.waiting .run .blocked) ∨
      party.call = some (.waiting .stop .blocked)) <| by
    constructor
    · rintro (hcall | hcall | hcall) <;> exact ⟨_, hcall⟩
    · rintro ⟨wait, hcall⟩
      cases wait <;> simp [hcall]

instance (state : State Thread) (thread : Thread) : Decidable (state.blocked thread) :=
  inferInstanceAs (Decidable (∃ wait, (state.parties thread).call = some (.waiting wait .blocked)))

instance [Fintype Thread] (state : State Thread) : (target : Option Thread) →
    Decidable (state.Notifies target)
  | some target => inferInstanceAs (Decidable (state.blocked target))
  | none => inferInstanceAs (Decidable (∀ thread, ¬ state.blocked thread))

variable [DecidableEq Thread] [Fintype Thread] (worker : Thread → Bool)

/-- The next step of a call of a thread. -/
def callStep (state : State Thread) (thread : Thread) (party : Party) :
    Call → Option (State Thread × Party)
  | .checking handle last =>
      some (state, if state.done handle then party.returns last
        else party.proceed (.counting handle last))
  | .counting handle last =>
      some ({ state with active := state.active + 1 }, party.proceed (.pushing handle last))
  | .pushing handle last =>
      some ({ state with queue := state.queue ++ [handle] }, party.returns last)
  | .starting => some ({ state with active := state.active + 1 }, party.returns false)
  | .testing =>
      some (state, party.proceed (if 0 < state.active then .decrementing else .notifying))
  | .decrementing => some ({ state with active := state.active - 1 }, party.proceed .notifying)
  | .waiting wait .entering | .waiting wait .notified =>
      if state.owner = none then
        some ({ state with owner := some thread }, party.proceed (.waiting wait .reading))
      else none
  | .waiting wait .reading =>
      if state.active = 0 then
        match wait with
        | .stop => some ({ state with owner := none }, party.proceed .clearing)
        | .completion | .run => some (state, party.proceed (.waiting wait .inspecting))
      else some (state, party.proceed (.waiting wait .parking))
  | .waiting wait .inspecting =>
      if state.queue = [] then some ({ state with owner := none }, party.returns false)
      else some (state, party.proceed (.waiting wait .parking))
  | .waiting wait .parking =>
      some ({ state with owner := none }, party.proceed (.waiting wait .blocked))
  -- a scheduler that is not running is left as it is
  | .exchanging =>
      if state.running then some ({ state with running := false }, party.proceed .joining)
      else some (state, party.returns false)
  | .joining =>
      if ∀ other, worker other = true → state.exited other = true then
        some (state, party.proceed (.waiting .stop .entering))
      else none
  | .clearing => some ({ state with queue := [] }, party.proceed .resetting)
  | .resetting => some ({ state with active := 0 }, party.returns false)
  | .notifying | .waiting _ .blocked => none

def step (state : State Thread) : Action Thread → Option (State Thread)
  | .go thread =>
      let party := state.parties thread
      match party.call with
      | none => none
      | some call =>
          (callStep worker state thread party call).map fun after => after.1.set thread after.2
  | .notify thread target =>
      let party := state.parties thread
      if party.call = some .notifying ∧ state.owner = none ∧ state.Notifies target then
        some ((target.elim state state.wake).set thread (party.returns false))
      else none
  | .call thread request =>
      let party := state.parties thread
      match party with
      | ⟨.outside, none⟩ =>
          if worker thread then none else some (state.set thread (party.proceed request.call))
      | ⟨.held _, none⟩ => some (state.set thread (party.proceed request.call))
      | _ => none
  | .pop thread =>
      match state.parties thread, state.queue with
      | ⟨.outside, none⟩, handle :: rest =>
          if state.exited thread then none
          else some ({ state with queue := rest }.set thread ⟨.taken handle, none⟩)
      | _, _ => none
  | .accept thread =>
      match state.parties thread with
      | ⟨.taken handle, none⟩ =>
          -- the handle of a worker that finds `running_` cleared is dropped
          if worker thread ∧ state.running = false then
            some ({ state with exited := Function.update state.exited thread true }.set thread
              ⟨.outside, none⟩)
          else some (state.set thread ⟨.held handle, none⟩)
      | _ => none
  | .finish thread =>
      match state.parties thread with
      | ⟨.held handle, none⟩ =>
          if state.done handle then some (state.set thread ⟨.outside, some .testing⟩) else none
      | _ => none
  | .fail thread =>
      match state.parties thread with
      | ⟨.held _, none⟩ => some (state.set thread ⟨.outside, some .testing⟩)
      | _ => none
  | .again thread =>
      match state.parties thread with
      | ⟨.held handle, none⟩ =>
          if state.done handle then none
          else some (state.set thread ⟨.held handle, some (.checking handle true)⟩)
      | _ => none
  | .exit thread =>
      match state.parties thread with
      | ⟨.outside, none⟩ =>
          if worker thread ∧ state.running = false then
            some { state with exited := Function.update state.exited thread true }
          else none
      | _ => none
  | .spurious thread => if state.blocked thread then some (state.wake thread) else none
  | .expire thread =>
      let party := state.parties thread
      if state.owner = none then
        match party.call with
        | some (.waiting .run .blocked) => some (state.set thread (party.returns false))
        | some (.waiting .stop .blocked) => some (state.set thread (party.proceed .clearing))
        | _ => none
      else none
  | .ends handle => some { state with done := Function.update state.done handle true }
  | .init thread =>
      if worker thread = false ∧ state.running = false ∧
          ∀ other, worker other = true → state.exited other = true then
        some { state with running := true, exited := fun _ => false }
      else none

/-- A scheduler after its construction. -/
def initial : State Thread where
  running := false
  active := 0
  queue := []
  owner := none
  parties _ := ⟨.outside, none⟩
  exited := worker
  done _ := false

/-- All runs of a scheduler with these workers. -/
def machine (Thread : Type) [DecidableEq Thread] [Fintype Thread] (worker : Thread → Bool) :
    Machine (State Thread) (Action Thread) where
  start := initial worker
  step := step worker

/-! ## Rest, and who waits for it -/

/-- In `task_completed`. -/
def Call.completes : Call → Bool
  | .testing | .decrementing | .notifying => true
  | _ => false

/-- Blocked in `wait_for_completion`, or about to be. -/
def Call.waits : Call → Bool
  | .waiting .completion .parking | .waiting .completion .blocked => true
  | _ => false

/-- With a popped handle. -/
def Iteration.holds : Iteration → Bool
  | .outside => false
  | .taken _ | .held _ => true

/-- With a popped handle, or in `task_completed`. -/
def Party.busy (party : Party) : Bool :=
  party.iteration.holds || party.call.any Call.completes

def Party.waits (party : Party) : Bool := party.call.any Call.waits

@[simp] theorem Request.call_waits (request : Request) : request.call.waits = false := by
  cases request with
  | wait kind => cases kind <;> rfl
  | _ => rfl

@[simp] theorem Party.proceed_busy (party : Party) (call : Call) :
    (party.proceed call).busy = (party.iteration.holds || call.completes) := rfl

@[simp] theorem Party.proceed_waits (party : Party) (call : Call) :
    (party.proceed call).waits = call.waits := rfl

@[simp] theorem Party.returns_busy (party : Party) (last : Bool) :
    (party.returns last).busy = (!last && party.iteration.holds) := by
  cases last <;> simp [Party.busy, Party.returns, Iteration.holds]

@[simp] theorem Party.returns_waits (party : Party) (last : Bool) :
    (party.returns last).waits = false := rfl

omit [Fintype Thread] in
@[simp] theorem State.set_active (state : State Thread) (thread : Thread) (party : Party) :
    (state.set thread party).active = state.active := rfl

omit [Fintype Thread] in
@[simp] theorem State.set_queue (state : State Thread) (thread : Thread) (party : Party) :
    (state.set thread party).queue = state.queue := rfl

section Rest

/-- Nothing is left to do. -/
structure AtRest (state : State Thread) : Prop where
  active : state.active = 0
  queue : state.queue = []
  idle : ∀ thread, (state.parties thread).busy = false

/-- A scheduler at rest has nobody blocked in `wait_for_completion`. -/
def Released (state : State Thread) : Prop :=
  AtRest state → ∀ thread, (state.parties thread).call ≠ some (.waiting .completion .blocked)

/-- With this counter and this queue the scheduler is at rest, but for a thread. -/
structure RestsBut (state : State Thread) (thread : Thread) (active : Int) (queue : List Handle) :
    Prop where
  active : active = 0
  queue : queue = []
  idle : ∀ other, other ≠ thread → (state.parties other).busy = false

/-- A call of the thread that ends with this counter and this queue, outside of an
iteration, does not bring a scheduler to rest that somebody waits for. -/
def State.Unawaited (state : State Thread) (thread : Thread) (active : Int)
    (queue : List Handle) : Prop :=
  RestsBut state thread active queue → ∀ waiter, (state.parties waiter).waits = false

/-- The scheduler comes to rest while somebody waits only by a notification that
reaches everybody who waits: not by a worker that drops the handle it popped, a
re-scheduling that finds the coroutine done, a `task_started` that raises a
negative counter, or the end of the queue and the reset of the counter in `stop`. -/
def Releases (state : State Thread) : Action Thread → Prop
  | .notify thread target => (state.parties thread).iteration = .outside →
      RestsBut state thread state.active state.queue →
        ∀ waiter, (state.parties waiter).waits = true → target = some waiter
  | .accept thread => worker thread = true → state.running = false →
      state.Unawaited thread state.active state.queue
  | .go thread =>
      match state.parties thread with
      | ⟨_, some (.checking handle true)⟩ => state.done handle = true →
          state.Unawaited thread state.active state.queue
      | ⟨.outside, some (.counting _ _)⟩ | ⟨.outside, some .starting⟩ =>
          state.Unawaited thread (state.active + 1) state.queue
      | ⟨.outside, some .clearing⟩ => state.Unawaited thread state.active []
      | ⟨.outside, some .resetting⟩ => state.Unawaited thread 0 state.queue
      | _ => True
  | _ => True

/-- Whoever waits when the scheduler is at rest, waits in vain. -/
def Settled (state : State Thread) : Prop :=
  AtRest state → ∀ thread, (state.parties thread).waits = false

omit [DecidableEq Thread] [Fintype Thread] in
theorem Settled.released {state : State Thread} (hsettled : Settled state) : Released state := by
  intro hrest thread hblocked
  have hwaits := hsettled hrest thread
  simp [Party.waits, hblocked, Call.waits] at hwaits

end Rest

/-! ## What a step does to rest and to those who wait -/

/-- What a step can be. -/
inductive Turn (state next : State Thread) (action : Action Thread) : Prop
  /-- A step that has no part in it. -/
  | calm (hparties : ∀ thread, (next.parties thread).busy = (state.parties thread).busy ∧
        ((next.parties thread).waits = true → (state.parties thread).waits = true ∨
          state.active ≠ 0 ∨ state.queue ≠ []))
      (hactive : next.active = state.active) (hqueue : next.queue = state.queue)
      (hreleases : Releases worker state action)
  /-- Something is left to do. -/
  | stirs (hstirs : next.queue ≠ [] ∨ ∃ thread, (next.parties thread).busy = true)
      (hreleases : Releases worker state action)
  /-- A thread has no part in it any more. -/
  | quits (thread : Thread) (party : Party) (active : Int) (queue : List Handle)
      (hparties : next.parties = Function.update state.parties thread party)
      (hactive : next.active = active) (hqueue : next.queue = queue)
      (hbusy : party.busy = false) (hwaits : (state.parties thread).waits = party.waits)
      (hreleases : Releases worker state action ↔ state.Unawaited thread active queue)
  /-- A waiter is notified, by a thread that is in no iteration. -/
  | notifies (thread : Thread) (target : Option Thread) (party : Party)
      (parties : Thread → Party) (hparties : next.parties = Function.update parties thread party)
      (hsame : ∀ other, (parties other).busy = (state.parties other).busy)
      (hactive : next.active = state.active) (hqueue : next.queue = state.queue)
      (hbusy : party.busy = false)
      (hwaits : ∀ other, (next.parties other).waits = true ↔
        (state.parties other).waits = true ∧ target ≠ some other)
      (hreleases : Releases worker state action ↔
        (RestsBut state thread state.active state.queue →
          ∀ waiter, (state.parties waiter).waits = true → target = some waiter))

section Turns

variable {worker} {state next : State Thread} {action : Action Thread} {thread : Thread}
  {party : Party}

omit [Fintype Thread] in
theorem Turn.of_set (hparties : next.parties = Function.update state.parties thread party)
    (hactive : next.active = state.active) (hqueue : next.queue = state.queue)
    (hbusy : party.busy = (state.parties thread).busy)
    (hwaits : party.waits = true → (state.parties thread).waits = true ∨ state.active ≠ 0 ∨
      state.queue ≠ [])
    (hreleases : Releases worker state action) : Turn worker state next action := by
  refine .calm (fun other => ?_) hactive hqueue hreleases
  rw [hparties]
  by_cases hother : other = thread
  · subst hother
    rw [Function.update_self]
    exact ⟨hbusy, hwaits⟩
  · rw [Function.update_of_ne hother]
    exact ⟨rfl, Or.inl⟩

omit [Fintype Thread] in
theorem Turn.of_busy (hparties : next.parties = Function.update state.parties thread party)
    (hbusy : party.busy = true) (hreleases : Releases worker state action) :
    Turn worker state next action :=
  .stirs (Or.inr ⟨thread, by rw [hparties, Function.update_self, hbusy]⟩) hreleases

omit [Fintype Thread] in
/-- A call that stores the counter or the queue leaves nothing to do unless the thread
is in an iteration. -/
theorem Turn.of_store {iteration : Iteration} {call : Call} (active : Int) (queue : List Handle)
    (hparty : state.parties thread = ⟨iteration, some call⟩) (hcall : call.waits = false)
    (hbusy : party.busy = iteration.holds) (hwaits : party.waits = false)
    (hreleases : Releases worker state (.go thread) ↔
      (iteration = .outside → state.Unawaited thread active queue)) :
    Turn worker state ({ state with active := active, queue := queue }.set thread party)
      (.go thread) := by
  cases iteration with
  | outside =>
      refine .quits thread party active queue rfl rfl rfl hbusy ?_ (hreleases.trans (by simp))
      rw [hwaits, hparty]
      exact hcall
  | _ => exact .of_busy rfl hbusy (hreleases.mpr (by simp))

/-- The predicate is false only while something is left to do. -/
theorem turn_of_wait {iteration : Iteration} {wait : Wait} {stage : WaitStage}
    {after : State Thread × Party}
    (hparty : state.parties thread = ⟨iteration, some (.waiting wait stage)⟩)
    (hstep : callStep worker state thread ⟨iteration, some (.waiting wait stage)⟩
      (.waiting wait stage) = some after) :
    Turn worker state (after.1.set thread after.2) (.go thread) := by
  have hreleases : Releases worker state (.go thread) := by simp [Releases, hparty]
  have hbusy : (state.parties thread).busy = iteration.holds := by
    simp [hparty, Party.busy, Call.completes]
  cases stage with
  | entering | notified =>
      simp only [callStep] at hstep
      split at hstep
      next =>
        cases hstep
        exact .of_set rfl rfl rfl (by simp [hbusy, Call.completes]) (by simp [Call.waits]) hreleases
      next => cases hstep
  | reading =>
      simp only [callStep] at hstep
      split at hstep
      next =>
        split at hstep <;> cases hstep <;>
          exact .of_set rfl rfl rfl (by simp [hbusy, Call.completes]) (by simp [Call.waits])
            hreleases
      next hactive =>
        cases hstep
        exact .of_set rfl rfl rfl (by simp [hbusy, Call.completes])
          (fun _ => Or.inr (Or.inl hactive)) hreleases
  | inspecting =>
      simp only [callStep] at hstep
      split at hstep
      next =>
        cases hstep
        exact .of_set rfl rfl rfl (by simp [hbusy]) (by simp) hreleases
      next hqueue =>
        cases hstep
        exact .of_set rfl rfl rfl (by simp [hbusy, Call.completes])
          (fun _ => Or.inr (Or.inr hqueue)) hreleases
  | parking =>
      cases hstep
      refine .of_set rfl rfl rfl (by simp [hbusy, Call.completes]) (fun hwaits => Or.inl ?_)
        hreleases
      cases wait with
      | completion => simp [hparty, Party.waits, Call.waits]
      | run => simp [Call.waits] at hwaits
      | stop => simp [Call.waits] at hwaits
  | blocked => cases hstep

theorem turn_of_call {iteration : Iteration} {call : Call} {after : State Thread × Party}
    (hparty : state.parties thread = ⟨iteration, some call⟩)
    (hstep : callStep worker state thread ⟨iteration, some call⟩ call = some after) :
    Turn worker state (after.1.set thread after.2) (.go thread) := by
  -- In an iteration the thread stays busy, whatever the call does.
  cases call with
  | checking handle last =>
      cases hstep
      cases hdone : state.done handle with
      | false =>
          refine .of_set rfl rfl rfl ?_ ?_ ?_
          · simp [hparty, Party.busy, Party.proceed, Call.completes]
          · simp [Call.waits]
          · cases last <;> simp [Releases, hparty, hdone]
      | true =>
          cases last with
          | false =>
              refine .of_set rfl rfl rfl ?_ ?_ ?_
              · simp [hparty, Party.busy, Party.returns, Call.completes]
              · simp
              · simp [Releases, hparty]
          | true =>
              refine .quits thread _ _ _ rfl rfl rfl ?_ ?_ ?_
              · simp
              · simp [hparty, Party.waits, Party.returns, Call.waits]
              · simp [Releases, hparty, hdone]
  | counting handle last =>
      cases hstep
      refine .of_store (state.active + 1) state.queue hparty rfl ?_ rfl ?_
      · simp [Call.completes]
      · cases iteration <;> simp [Releases, hparty]
  | pushing handle last =>
      cases hstep
      exact .stirs (Or.inl (by simp)) (by simp [Releases, hparty])
  | starting =>
      cases hstep
      refine .of_store (state.active + 1) state.queue hparty rfl (by simp) rfl ?_
      cases iteration <;> simp [Releases, hparty]
  | testing =>
      cases hstep
      refine .of_busy rfl ?_ (by simp [Releases, hparty])
      simp only [Party.proceed_busy]
      split <;> simp [Call.completes]
  | decrementing =>
      cases hstep
      exact .of_busy rfl (by simp [Call.completes]) (by simp [Releases, hparty])
  | notifying => cases hstep
  | waiting wait stage => exact turn_of_wait hparty hstep
  | exchanging =>
      simp only [callStep] at hstep
      split at hstep
      next =>
        cases hstep
        refine .of_set rfl rfl rfl ?_ ?_ (by simp [Releases, hparty])
        · simp [hparty, Party.busy, Party.proceed, Call.completes]
        · simp [Call.waits]
      next =>
        cases hstep
        refine .of_set rfl rfl rfl ?_ ?_ (by simp [Releases, hparty])
        · simp [hparty, Party.busy, Party.returns, Call.completes]
        · simp
  | joining =>
      simp only [callStep] at hstep
      split at hstep
      next =>
        cases hstep
        refine .of_set rfl rfl rfl ?_ ?_ (by simp [Releases, hparty])
        · simp [hparty, Party.busy, Party.proceed, Call.completes]
        · simp [Call.waits]
      next => cases hstep
  | clearing =>
      cases hstep
      refine .of_store state.active [] hparty rfl ?_ rfl ?_
      · simp [Call.completes]
      · cases iteration <;> simp [Releases, hparty]
  | resetting =>
      cases hstep
      refine .of_store 0 state.queue hparty rfl (by simp) rfl ?_
      cases iteration <;> simp [Releases, hparty]

omit [Fintype Thread] in
theorem State.wake_of_ne (state : State Thread) {target other : Thread} (hother : other ≠ target) :
    (state.wake target).parties other = state.parties other := by
  unfold State.wake
  split
  next => exact Function.update_of_ne hother _ _
  next => rfl

omit [Fintype Thread] in
/-- A thread that is woken up stays in its iteration, and waits no more. -/
theorem State.wake_self {state : State Thread} {target : Thread}
    (hblocked : state.blocked target) :
    ((state.wake target).parties target).busy = (state.parties target).busy ∧
      ((state.wake target).parties target).waits = false := by
  obtain ⟨wait, hcall⟩ := hblocked
  simp [State.wake, hcall, State.set, Party.busy, Party.waits, Party.proceed, Call.completes,
    Call.waits]

omit [Fintype Thread] in
/-- Whom `notify_one` wakes is out of the wait, and the others are as before. -/
theorem State.notified_party {state : State Thread} {target : Option Thread}
    (hnotifies : state.Notifies target) (other : Thread) :
    ((target.elim state state.wake).parties other).busy = (state.parties other).busy ∧
      (((target.elim state state.wake).parties other).waits = true ↔
        (state.parties other).waits = true ∧ target ≠ some other) := by
  cases target with
  | none => simp
  | some target =>
      by_cases hother : other = target
      · subst hother
        obtain ⟨hbusy, hwaits⟩ := State.wake_self hnotifies
        simp [hbusy, hwaits]
      · have hne : target ≠ other := fun heq => hother heq.symm
        simp [state.wake_of_ne hother, hne]

omit [Fintype Thread] in
@[simp] theorem State.wake_active (state : State Thread) (target : Thread) :
    (state.wake target).active = state.active := by
  unfold State.wake
  split <;> rfl

omit [Fintype Thread] in
@[simp] theorem State.wake_queue (state : State Thread) (target : Thread) :
    (state.wake target).queue = state.queue := by
  unfold State.wake
  split <;> rfl

omit [Fintype Thread] in
theorem turn_of_notify {target : Option Thread}
    (hcall : (state.parties thread).call = some .notifying) (hnotifies : state.Notifies target) :
    Turn worker state ((target.elim state state.wake).set thread
      ((state.parties thread).returns false)) (.notify thread target) := by
  have hparty := State.notified_party hnotifies
  cases hiteration : (state.parties thread).iteration with
  | outside =>
      refine .notifies thread target _ _ rfl (fun other => (hparty other).1) ?_ ?_ ?_
        (fun other => ?_) ?_
      · cases target <;> simp
      · cases target <;> simp
      · simp [hiteration, Iteration.holds]
      · by_cases hother : other = thread
        · subst hother
          simp [State.set, Party.waits, Party.returns, hcall, Call.waits]
        · simpa [State.set, Function.update_of_ne hother] using (hparty other).2
      · simp [Releases, hiteration]
  | _ =>
      refine .stirs (Or.inr ⟨thread, ?_⟩) (by simp [Releases, hiteration])
      simp [State.set, hiteration, Iteration.holds]

theorem turn_of_step (hstep : (machine Thread worker).step state action = some next) :
    Turn worker state next action := by
  change step worker state action = some next at hstep
  cases action with
  | go thread =>
      cases hparty : state.parties thread with
      | mk iteration call =>
          simp only [step, hparty] at hstep
          cases call with
          | none => cases hstep
          | some call =>
              obtain ⟨after, hafter, rfl⟩ := Option.map_eq_some_iff.mp hstep
              exact turn_of_call hparty hafter
  | notify thread target =>
      simp only [step] at hstep
      split at hstep
      next hnotifies => cases hstep; exact turn_of_notify hnotifies.1 hnotifies.2.2
      next => cases hstep
  | call thread request =>
      simp only [step] at hstep
      split at hstep
      next hparty =>
        split at hstep
        next => cases hstep
        next =>
          cases hstep
          cases hcompletes : request.call.completes with
          | false =>
              refine .of_set rfl rfl rfl ?_ (by simp) trivial
              rw [Party.proceed_busy, hcompletes, hparty]
              rfl
          | true => exact .of_busy rfl (by simp [hcompletes]) trivial
      next handle hparty =>
        cases hstep
        exact .of_busy rfl (by simp [hparty, Iteration.holds]) trivial
      next => cases hstep
  | pop thread =>
      simp only [step] at hstep
      split at hstep
      next =>
        split at hstep
        next => cases hstep
        next => cases hstep; exact .of_busy rfl rfl trivial
      next => cases hstep
  | accept thread =>
      simp only [step] at hstep
      split at hstep
      next handle hparty =>
        split at hstep
        next hdrops =>
          -- A worker that finds the scheduler stopped drops the handle it has popped.
          cases hstep
          refine .quits thread _ _ _ rfl rfl rfl rfl ?_ ?_
          · simp [hparty, Party.waits]
          · simp [Releases, hdrops]
        next hholds =>
          cases hstep
          refine .of_busy rfl rfl fun hworker hstopped => ?_
          exact absurd ⟨hworker, hstopped⟩ hholds
      next => cases hstep
  | finish thread =>
      simp only [step] at hstep
      split at hstep
      next =>
        split at hstep
        next => cases hstep; exact .of_busy rfl rfl trivial
        next => cases hstep
      next => cases hstep
  | fail thread =>
      simp only [step] at hstep
      split at hstep
      next => cases hstep; exact .of_busy rfl rfl trivial
      next => cases hstep
  | again thread =>
      simp only [step] at hstep
      split at hstep
      next =>
        split at hstep
        next => cases hstep
        next => cases hstep; exact .of_busy rfl rfl trivial
      next => cases hstep
  | exit thread =>
      simp only [step] at hstep
      split at hstep
      next =>
        split at hstep
        next => cases hstep; exact .calm (fun _ => ⟨rfl, Or.inl⟩) rfl rfl trivial
        next => cases hstep
      next => cases hstep
  | spurious thread =>
      simp only [step] at hstep
      split at hstep
      next hblocked =>
        cases hstep
        refine .calm (fun other => ?_) (by simp) (by simp) trivial
        have hnotifies : state.Notifies (some thread) := hblocked
        obtain ⟨hbusy, hwaits⟩ := State.notified_party hnotifies other
        exact ⟨hbusy, fun hother => Or.inl (hwaits.mp hother).1⟩
      next => cases hstep
  | expire thread =>
      simp only [step] at hstep
      split at hstep
      next =>
        split at hstep
        next hcall =>
          cases hstep
          refine .of_set rfl rfl rfl ?_ (by simp) trivial
          simp [Party.busy, hcall, Party.returns, Call.completes]
        next hcall =>
          cases hstep
          refine .of_set rfl rfl rfl ?_ (by simp [Call.waits]) trivial
          simp [Party.busy, hcall, Party.proceed, Call.completes]
        next => cases hstep
      next => cases hstep
  | ends handle =>
      cases hstep
      exact .calm (fun _ => ⟨rfl, Or.inl⟩) rfl rfl trivial
  | init thread =>
      simp only [step] at hstep
      split at hstep
      next => cases hstep; exact .calm (fun _ => ⟨rfl, Or.inl⟩) rfl rfl trivial
      next => cases hstep

/-! ## Coming to rest with nobody waiting -/

omit [Fintype Thread] in
/-- What the others do decides about rest once a thread has quit. -/
theorem atRest_iff_restsBut {parties : Thread → Party} {active : Int} {queue : List Handle}
    (hparties : next.parties = Function.update parties thread party)
    (hsame : ∀ other, (parties other).busy = (state.parties other).busy)
    (hactive : next.active = active) (hqueue : next.queue = queue) (hbusy : party.busy = false) :
    AtRest next ↔ RestsBut state thread active queue := by
  have hothers : ∀ other, other ≠ thread →
      (next.parties other).busy = (state.parties other).busy := by
    intro other hother
    rw [hparties, Function.update_of_ne hother, hsame]
  constructor
  · intro hrest
    exact ⟨hactive ▸ hrest.active, hqueue ▸ hrest.queue, fun other hother =>
      (hothers other hother).symm.trans (hrest.idle other)⟩
  · intro hrests
    refine ⟨hactive.trans hrests.active, hqueue.trans hrests.queue, fun other => ?_⟩
    by_cases hother : other = thread
    · rw [hother, hparties, Function.update_self, hbusy]
    · rw [hothers other hother, hrests.idle other hother]

omit [Fintype Thread] in
/-- A step that releases keeps the scheduler settled, and no other one does. -/
theorem Turn.settled_iff (hturn : Turn worker state next action) (hsettled : Settled state) :
    Settled next ↔ Releases worker state action := by
  cases hturn with
  | calm hparties hactive hqueue hreleases =>
      refine iff_of_true (fun hrest thread => ?_) hreleases
      have hprior : AtRest state := ⟨hactive ▸ hrest.active, hqueue ▸ hrest.queue,
        fun other => (hparties other).1 ▸ hrest.idle other⟩
      rw [Bool.eq_false_iff]
      intro hwaits
      rcases (hparties thread).2 hwaits with hwaited | hactive | hqueue
      · rw [hsettled hprior thread] at hwaited
        cases hwaited
      · exact hactive hprior.active
      · exact hqueue hprior.queue
  | stirs hstirs hreleases =>
      refine iff_of_true (fun hrest => ?_) hreleases
      rcases hstirs with hqueue | ⟨thread, hbusy⟩
      · exact absurd hrest.queue hqueue
      · rw [hrest.idle thread] at hbusy
        cases hbusy
  | quits thread party active queue hparties hactive hqueue hbusy hwaits hreleases =>
      have hsame : ∀ other, (next.parties other).waits = (state.parties other).waits := by
        intro other
        by_cases hother : other = thread
        · rw [hother, hparties, Function.update_self, hwaits]
        · rw [hparties, Function.update_of_ne hother]
      rw [hreleases, Settled, State.Unawaited,
        atRest_iff_restsBut hparties (fun _ => rfl) hactive hqueue hbusy]
      simp only [hsame]
  | notifies thread target party parties hparties hsame hactive hqueue hbusy hwaits hreleases =>
      rw [hreleases, Settled, atRest_iff_restsBut hparties hsame hactive hqueue hbusy]
      refine imp_congr_right fun _ => forall_congr' fun waiter => ?_
      rw [← Bool.not_eq_true, hwaits waiter]
      exact not_and_not_right

omit [DecidableEq Thread] [Fintype Thread] in
theorem Party.call_of_waits (hwaits : party.waits = true) :
    party.call = some (.waiting .completion .parking) ∨
      party.call = some (.waiting .completion .blocked) := by
  obtain ⟨call, hcall, hcalls⟩ := (Option.any_eq_true _ _).mp hwaits
  rw [hcall, Option.some_inj, Option.some_inj]
  unfold Call.waits at hcalls
  split at hcalls
  · exact Or.inl rfl
  · exact Or.inr rfl
  · cases hcalls

/-- Somebody who waits when the scheduler is at rest is soon blocked, if not yet. -/
theorem not_secure_of_not_settled (hnot : ¬ Settled state) :
    ¬ (machine Thread worker).Secure (Releases worker) Released state := by
  intro hsecure
  simp only [Settled, not_forall, Bool.not_eq_false] at hnot
  obtain ⟨hrest, waiter, hwaits⟩ := hnot
  rcases Party.call_of_waits hwaits with hparking | hblocked
  · cases hparty : state.parties waiter with
    | mk iteration call =>
        obtain rfl : call = some (.waiting .completion .parking) := by simpa [hparty] using hparking
        have hparks : (machine Thread worker).step state (.go waiter) =
            some ({ state with owner := none }.set waiter
              ⟨iteration, some (.waiting .completion .blocked)⟩) := by
          simp [machine, step, hparty, callStep, Party.proceed]
        have hnext := hsecure.step (by simp [Releases, hparty]) hparks
        have hidle : iteration.holds = false := by
          simpa [hparty, Party.busy, Call.completes] using hrest.idle waiter
        refine hnext.head ⟨hrest.active, hrest.queue, fun other => ?_⟩ waiter ?_
        · by_cases hother : other = waiter
          · simp [hother, State.set, Party.busy, hidle, Call.completes]
          · simpa [State.set, Function.update_of_ne hother] using hrest.idle other
        · simp [State.set]
  · exact hsecure.head hrest waiter hblocked

end Turns

/-- In every run, those who wait for completion stay safe from what comes next
exactly if the scheduler comes to rest, while somebody waits, only by
notifications that reach everybody; then nobody is left blocked at rest. -/
theorem secure_along_iff_releases (worker : Thread → Bool) (actions : List (Action Thread)) :
    ((machine Thread worker).Along ((machine Thread worker).Secure (Releases worker) Released)
        (initial worker) actions ↔
      (machine Thread worker).Meets (Releases worker) (initial worker) actions) ∧
      ((machine Thread worker).Meets (Releases worker) (initial worker) actions →
        (machine Thread worker).Along Released (initial worker) actions) := by
  have hpreserved : ∀ (state : State Thread) action next, Settled state →
      Releases worker state action → (machine Thread worker).step state action = some next →
      Settled next :=
    fun _ _ _ hsettled hreleases hstep =>
      ((turn_of_step hstep).settled_iff hsettled).mpr hreleases
  have hproperty : ∀ state : State Thread, Settled state → Released state :=
    fun _ hsettled => hsettled.released
  have hstart : Settled (initial worker : State Thread) := fun _ _ => rfl
  refine ⟨?_, fun hmeets => ?_⟩
  · exact Machine.secure_along_iff_meets Settled hpreserved hproperty
      (fun _ _ _ hsettled hfails hstep => not_secure_of_not_settled fun hnext =>
        hfails (((turn_of_step hstep).settled_iff hsettled).mp hnext)) hstart
  · exact Machine.along_of_meets Settled hpreserved hproperty hstart hmeets

/-- Threads 1 and 2 wait for the one task, which worker 0 has popped. Its
`task_completed` wakes thread 1, and thread 2 is left blocked. -/
theorem second_waiter_run :
    (((machine (Fin 3) (· = 0)).exec (initial (· = 0))
      [.init 1, .call 1 (.schedule 5), .go 1, .go 1, .go 1, .pop 0, .accept 0,
        .call 1 (.wait .completion), .go 1, .go 1, .go 1,
        .call 2 (.wait .completion), .go 2, .go 2, .go 2,
        .ends 5, .finish 0, .go 0, .go 0, .notify 0 (some 1)]).map fun final =>
          (final.active, final.queue, (final.parties 0).busy,
            (final.parties 1).call, (final.parties 2).call)) =
        some (0, [], false, some (.waiting .completion .notified),
          some (.waiting .completion .blocked)) ∧
      ¬ (machine (Fin 3) (· = 0)).Along Released (initial (· = 0))
        [.init 1, .call 1 (.schedule 5), .go 1, .go 1, .go 1, .pop 0, .accept 0,
          .call 1 (.wait .completion), .go 1, .go 1, .go 1,
          .call 2 (.wait .completion), .go 2, .go 2, .go 2,
          .ends 5, .finish 0, .go 0, .go 0, .notify 0 (some 1)] := by
  refine ⟨by decide, fun halong => ?_⟩
  have hreleased := halong.last rfl
  exact hreleased ⟨by decide, by decide, by decide⟩ 2 (by decide)

end Tang.Scheduler.Release
