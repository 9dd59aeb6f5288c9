import Mathlib.Data.Fintype.Basic
import Tang.Foundation.Machine

/-! # The threads of the scheduler

Workers, the thread inside `scheduler::run`, and threads that call `schedule` and
`stop`, around `task_queue_`, `queue_mutex_`, `queue_cv_`, `running_` and
`active_tasks_`. Every access of an atomic and every critical section is a step
of its own. A worker reads `running_` inside its critical section, so that one
has several steps and `owner` says who is in it; the others are single steps
that need the mutex to be free. Which waiter a notification wakes, what a
coroutine body does, and when a timed wait ends is chosen by the run.
-/

namespace Tang.Scheduler

open Foundation

/-- `std::coroutine_handle<>`. -/
abbrev Handle := Nat

/-- A call of `schedule`, by its next step. -/
inductive Post
  /-- The test of `done()`. -/
  | checking (handle : Handle)
  /-- `task_started`. -/
  | counting (handle : Handle)
  /-- The critical section: push and `notify_one`. -/
  | pushing (handle : Handle)
  deriving DecidableEq

/-- What a thread does with a popped handle. `skipped` records that the
coroutine was found done before its resumption. -/
inductive Round
  | ready (handle : Handle)
  /-- In `handle.resume()`; the body may be in a call of `schedule`. -/
  | resuming (handle : Handle) (post : Option Post)
  | resumed (handle : Handle)
  | rescheduling (post : Post)
  /-- In `task_completed`, before the test of `active_tasks_`. -/
  | completing (skipped : Bool)
  | decrementing (skipped : Bool)
  | finished (skipped : Bool)
  deriving DecidableEq

inductive WorkerStage
  | unstarted
  | top
  | locking
  /-- Before the predicate of `queue_cv_.wait`, with the mutex. -/
  | evaluating
  /-- The predicate was false, and the wait has not begun. -/
  | parking
  | blocked
  /-- Woken up, without the mutex. -/
  | notified
  /-- After the wait, with the mutex. -/
  | taking
  | popped (handle : Option Handle)
  | working (round : Round)
  | exited
  deriving DecidableEq

/-- Where the thread inside `run` stands. -/
inductive MainStage
  | outside
  | initializing
  | spawning
  /-- The loop condition: `active_tasks_`, then `task_queue_`. -/
  | testing
  | inspecting
  | locking
  /-- In the timed wait. -/
  | blocked
  | notified
  | expired
  | working (round : Round)
  /-- The progress check: `active_tasks_`, then `task_queue_`. -/
  | checking
  | comparing (current : Int)
  /-- A round of the extended wait: `task_queue_`, `active_tasks_`, and again
  `active_tasks_`. -/
  | extending
  | probing
  | sweeping
  | locked
  | extra (round : Round)
  /-- The last timed wait. -/
  | waiting
  deriving DecidableEq

/-- A thread that calls `schedule` and `stop`, by its next step. -/
inductive ThreadStage
  | idle
  | posting (post : Post)
  | exchanging
  | notifying
  | joining
  | settling
  | clearing
  | resetting
  deriving DecidableEq

/-- Who can wait on `queue_cv_`. -/
inductive Waiter (Worker : Type)
  | worker (worker : Worker)
  | main
  deriving DecidableEq

structure State (Worker Thread : Type) where
  running : Bool
  active : Int
  queue : List Handle
  /-- The worker that holds `queue_mutex_`. -/
  owner : Option Worker
  workers : Worker → WorkerStage
  main : MainStage
  /-- `last_active_tasks`, `no_progress_count` and the extended rounds of `run`. -/
  lastActive : Int
  noProgress : Nat
  rounds : Nat
  threads : Thread → ThreadStage
  /-- The coroutines at their final suspension. -/
  done : Handle → Bool
  /-- The calls of `destroy()`. -/
  destroyed : List Handle

/-- A step of one party. -/
inductive Move (Worker : Type)
  /-- The next step of its code. -/
  | go
  /-- The critical section of `schedule`, and whom `notify_one` wakes. -/
  | push (target : Option (Waiter Worker))
  /-- Its code calls `schedule`. -/
  | call (handle : Handle)
  /-- The coroutine body it runs suspends. -/
  | suspend
  /-- The coroutine body it runs ends. -/
  | finish
  /-- A wait ends without a notification. -/
  | spurious
  /-- A timed wait ends. -/
  | expire
  /-- It starts a worker thread. -/
  | spawn (worker : Worker)
  /-- It calls `stop`. -/
  | stop
  deriving DecidableEq

inductive Action (Worker Thread : Type)
  | worker (worker : Worker) (move : Move Worker)
  | main (move : Move Worker)
  | thread (thread : Thread) (move : Move Worker)
  /-- Code resumes a coroutine itself until it ends. -/
  | complete (handle : Handle)
  deriving DecidableEq

namespace State

variable {Worker Thread : Type} [DecidableEq Worker] [DecidableEq Thread]

def setWorker (state : State Worker Thread) (worker : Worker) (stage : WorkerStage) :
    State Worker Thread :=
  { state with workers := Function.update state.workers worker stage }

def setMain (state : State Worker Thread) (stage : MainStage) : State Worker Thread :=
  { state with main := stage }

def setThread (state : State Worker Thread) (thread : Thread) (stage : ThreadStage) :
    State Worker Thread :=
  { state with threads := Function.update state.threads thread stage }

/-- The waiters `notify_one` may choose from. -/
def waits (state : State Worker Thread) : Waiter Worker → Prop
  | .worker worker => state.workers worker = .blocked
  | .main => state.main = .blocked

instance (state : State Worker Thread) (waiter : Waiter Worker) :
    Decidable (state.waits waiter) := by
  unfold waits
  split <;> infer_instance

/-- `notify_one` wakes some waiter if there is one. -/
def Notifies (state : State Worker Thread) : Option (Waiter Worker) → Prop
  | some waiter => state.waits waiter
  | none => (∀ worker, state.workers worker ≠ .blocked) ∧ state.main ≠ .blocked

def wake (state : State Worker Thread) : Option (Waiter Worker) → State Worker Thread
  | some (.worker worker) => state.setWorker worker .notified
  | some .main => state.setMain .notified
  | none => state

/-- `queue_cv_.notify_all()`. -/
def wakeAll (state : State Worker Thread) : State Worker Thread :=
  { state with
    workers := fun worker =>
      if state.workers worker = .blocked then .notified else state.workers worker
    main := if state.main = .blocked then .notified else state.main }

def push (state : State Worker Thread) (handle : Handle) (target : Option (Waiter Worker)) :
    State Worker Thread :=
  { state with queue := state.queue ++ [handle] }.wake target

variable [Fintype Worker]

instance (state : State Worker Thread) (target : Option (Waiter Worker)) :
    Decidable (state.Notifies target) := by
  unfold Notifies
  split <;> infer_instance

end State

variable {Worker Thread : Type} [DecidableEq Worker] [DecidableEq Thread] [Fintype Worker]

/-- A step of `schedule`; no rest when the call returns. -/
def postStep (state : State Worker Thread) :
    Post → Move Worker → Option (State Worker Thread × Option Post)
  | .checking handle, .go =>
      if state.done handle then some (state, none) else some (state, some (.counting handle))
  | .counting handle, .go =>
      some ({ state with active := state.active + 1 }, some (.pushing handle))
  | .pushing handle, .push target =>
      if state.owner = none ∧ state.Notifies target then some (state.push handle target, none)
      else none
  | _, _ => none

/-- A step with a popped handle. -/
def roundStep (state : State Worker Thread) :
    Round → Move Worker → Option (State Worker Thread × Round)
  | .ready handle, .go =>
      if state.done handle then some (state, .completing true)
      else some (state, .resuming handle none)
  | .resuming handle none, .call other => some (state, .resuming handle (some (.checking other)))
  | .resuming handle none, .suspend => some (state, .resumed handle)
  | .resuming handle none, .finish =>
      some ({ state with done := Function.update state.done handle true }, .resumed handle)
  | .resuming handle (some post), move =>
      (postStep state post move).map fun after => (after.1, .resuming handle after.2)
  | .resumed handle, .go =>
      if state.done handle then some (state, .completing false)
      else some (state, .rescheduling (.checking handle))
  | .rescheduling post, move =>
      (postStep state post move).map fun after =>
        (after.1, after.2.elim (.finished false) .rescheduling)
  | .completing skipped, .go =>
      if 0 < state.active then some (state, .decrementing skipped)
      else some (state, .finished skipped)
  | .decrementing skipped, .go =>
      some ({ state with active := state.active - 1 }, .finished skipped)
  | _, _ => none

/-- A step of a worker of `scheduler::init`. -/
def workerStep (state : State Worker Thread) (worker : Worker) :
    WorkerStage → Move Worker → Option (State Worker Thread × WorkerStage)
  | .top, .go => if state.running then some (state, .locking) else some (state, .exited)
  | .locking, .go | .notified, .go =>
      if state.owner = none then some ({ state with owner := some worker }, .evaluating) else none
  | .evaluating, .go =>
      if state.queue = [] ∧ state.running then some (state, .parking) else some (state, .taking)
  | .parking, .go => some ({ state with owner := none }, .blocked)
  | .blocked, .spurious => some (state, .notified)
  | .taking, .go =>
      if state.running then
        match state.queue with
        | [] => some ({ state with owner := none }, .popped none)
        | handle :: rest =>
            some ({ state with queue := rest, owner := none }, .popped (some handle))
      else some ({ state with owner := none }, .exited)
  -- the handle of a worker that finds `running_` cleared here is dropped
  | .popped handle, .go =>
      if state.running then some (state, handle.elim .top fun handle => .working (.ready handle))
      else some (state, .exited)
  | .working (.finished _), .go => some (state, .top)
  | .working round, move =>
      (roundStep state round move).map fun after => (after.1, .working after.2)
  | _, _ => none

/-- The critical section of the main loop, up to the pop or the wait. -/
def mainPop (state : State Worker Thread) (empty : MainStage) :
    Option (State Worker Thread × MainStage) :=
  if state.owner = none then
    match state.queue with
    | [] => some (state, empty)
    | handle :: rest => some ({ state with queue := rest }, .working (.ready handle))
  else none

/-- `MAX_NO_PROGRESS_ITERATIONS`. -/
def maxNoProgress : Nat := 500

/-- The rounds of the extended wait. -/
def maxRounds : Nat := 100

/-- A step of `scheduler::run`. -/
def mainStep (state : State Worker Thread) :
    MainStage → Move Worker → Option (State Worker Thread × MainStage)
  | .outside, .go => some (state, .initializing)
  | .initializing, .go =>
      let fresh := { state with lastActive := 0, noProgress := 0, rounds := 0 }
      if state.running then some (fresh, .testing)
      else some ({ fresh with running := true }, .spawning)
  | .spawning, .spawn worker =>
      if state.workers worker = .unstarted then some (state.setWorker worker .top, .spawning)
      else none
  | .spawning, .go =>
      if ∀ worker, state.workers worker ≠ .unstarted then some (state, .testing) else none
  | .testing, .go =>
      if 0 < state.active then some (state, .locking) else some (state, .inspecting)
  | .inspecting, .go =>
      if state.queue = [] then some (state, .extending) else some (state, .locking)
  | .locking, .go | .notified, .go => mainPop state .blocked
  | .blocked, .spurious => some (state, .notified)
  | .blocked, .expire => some (state, .expired)
  | .expired, .go => mainPop state .checking
  | .working (.finished skipped), .go =>
      some (state, if skipped then .testing else .checking)
  | .working round, move =>
      (roundStep state round move).map fun after => (after.1, .working after.2)
  | .checking, .go => some (state, .comparing state.active)
  | .comparing current, .go =>
      if current = state.lastActive ∧ state.queue = [] then
        some ({ state with noProgress := state.noProgress + 1 },
          if maxNoProgress ≤ state.noProgress + 1 then .extending else .testing)
      else some ({ state with lastActive := current, noProgress := 0 }, .testing)
  | .extending, .go =>
      if maxRounds ≤ state.rounds then some (state, .waiting)
      else some (state, if state.queue = [] then .probing else .sweeping)
  | .probing, .go => some (state, if state.active = 0 then .waiting else .sweeping)
  | .sweeping, .go =>
      if 0 < state.active then some (state, .locked)
      else some ({ state with rounds := state.rounds + 1 }, .extending)
  | .locked, .go =>
      if state.owner = none then
        match state.queue with
        | [] => some ({ state with rounds := state.rounds + 1 }, .extending)
        | handle :: rest => some ({ state with queue := rest }, .extra (.ready handle))
      else none
  | .extra (.finished _), .go =>
      some ({ state with rounds := state.rounds + 1 }, .extending)
  | .extra round, move =>
      (roundStep state round move).map fun after => (after.1, .extra after.2)
  | .waiting, .go => some (state, .outside)
  | _, _ => none

/-- A worker thread that is not there, or has returned from its loop. -/
def WorkerStage.joinable : WorkerStage → Bool
  | .unstarted | .exited => true
  | _ => false

/-- A step of a call of `schedule` or `stop`. -/
def threadStep (state : State Worker Thread) :
    ThreadStage → Move Worker → Option (State Worker Thread × ThreadStage)
  | .idle, .call handle => some (state, .posting (.checking handle))
  | .idle, .stop => some (state, .exchanging)
  | .posting post, move =>
      (postStep state post move).map fun after => (after.1, after.2.elim .idle .posting)
  -- a scheduler that is not running is left as it is
  | .exchanging, .go =>
      if state.running then some ({ state with running := false }, .notifying)
      else some (state, .idle)
  | .notifying, .go => if state.owner = none then some (state.wakeAll, .joining) else none
  | .joining, .go =>
      if ∀ worker, (state.workers worker).joinable then
        some ({ state with workers := fun _ => .unstarted }, .settling)
      else none
  | .settling, .go => some (state, .clearing)
  | .clearing, .go =>
      if state.owner = none then
        some ({ state with
          destroyed := state.destroyed ++ state.queue.filter fun handle => !state.done handle
          queue := [] }, .resetting)
      else none
  | .resetting, .go => some ({ state with active := 0 }, .idle)
  | _, _ => none

def step (state : State Worker Thread) : Action Worker Thread → Option (State Worker Thread)
  | .worker worker move =>
      (workerStep state worker (state.workers worker) move).map fun after =>
        after.1.setWorker worker after.2
  | .main move => (mainStep state state.main move).map fun after => after.1.setMain after.2
  | .thread thread move =>
      (threadStep state (state.threads thread) move).map fun after =>
        after.1.setThread thread after.2
  | .complete handle =>
      some { state with done := Function.update state.done handle true }

/-- A scheduler after its construction. -/
def machine (Worker Thread : Type) [DecidableEq Worker] [DecidableEq Thread] [Fintype Worker] :
    Machine (State Worker Thread) (Action Worker Thread) where
  start :=
    { running := false
      active := 0
      queue := []
      owner := none
      workers := fun _ => .unstarted
      main := .outside
      lastActive := 0
      noProgress := 0
      rounds := 0
      threads := fun _ => .idle
      done := fun _ => false
      destroyed := [] }
  step := step

end Tang.Scheduler
