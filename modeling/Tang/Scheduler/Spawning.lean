import Mathlib.Logic.Function.Basic
import Tang.Foundation.Machine

/-! # Starting and losing worker threads

The constructor reserves room for the configured number of threads, and `init`
creates workers while its index is below `threads_.capacity()`. When the creation
of a thread throws, `init` clears `running_` and lets the exception go; the
workers started before stay in `threads_`. The owner of the scheduler calls
`init`, `stop` and the destructor; the workers run meanwhile, and other threads
post tasks. A critical section is one step, and so is what follows the joins in
`stop`.
-/

namespace Tang.Scheduler.Spawning

open Foundation

/-- How `std::vector` allocates: its capacity after `reserve` on an empty vector,
and after an insertion into a full one. -/
structure Allocation where
  reserve : Nat → Nat
  grow : Nat → Nat
  le_reserve (count : Nat) : count ≤ reserve count
  lt_grow (capacity : Nat) : capacity < grow capacity

/-- The number of threads the constructor reserves room for. -/
def configured (numThreads hardwareConcurrency : Nat) : Nat :=
  if numThreads = 0 then
    if hardwareConcurrency = 0 then 1 else hardwareConcurrency
  else numThreads

/-- Where the owner stands. `last` marks the call of `stop` in the destructor. -/
inductive Control
  | idle
  /-- In `init`, before the loop condition. -/
  | creating (index : Nat)
  | exchanging (last : Bool)
  | notifying (last : Bool)
  | joining (index : Nat) (last : Bool)
  /-- The last wait of `stop`, the end of the queue and the reset. -/
  | settling (last : Bool)
  /-- The destructors of the members. -/
  | members
  | destroyed
  /-- A joinable `std::thread` was destroyed, of a worker that did not wait. -/
  | terminated
  deriving DecidableEq

/-- The next step of the owner. -/
inductive Move
  | init
  /-- An iteration of the loop of `init`, with the creation of a thread. -/
  | create
  /-- One whose creation throws. -/
  | fail
  /-- The loop condition is false, and `init` returns. -/
  | finish
  | stop
  | destroy
  | go
  deriving DecidableEq

/-- What the owner works on. Threads are numbered by their creation, and
`joined` records the calls of `join()` that have returned. -/
structure Core where
  running : Bool
  capacity : Nat
  threads : List Nat
  created : Nat
  joined : List Nat
  control : Control
  deriving DecidableEq

inductive WorkerStage
  | top
  | locking
  | blocked
  | notified
  | popped
  /-- With a coroutine. -/
  | busy
  | exited
  deriving DecidableEq

structure State where
  core : Core
  workers : Nat → WorkerStage
  /-- The length of `task_queue_`. -/
  queued : Nat

inductive Action
  | owner (move : Move)
  /-- The next step of a worker. -/
  | worker (worker : Nat)
  /-- The wait of a worker ends without a notification. -/
  | spurious (worker : Nat)
  /-- Somebody calls `schedule`, and `notify_one` wakes this worker or another
  waiter, or nobody. -/
  | post (target : Option Nat)
  deriving DecidableEq

/-- A step of the owner; `exited` says which workers have returned. -/
def coreStep (allocation : Allocation) (exited : Nat → Bool) (core : Core) : Move → Option Core
  | .init =>
      match core.control with
      | .idle =>
          if core.running then some core
          else some { core with running := true, control := .creating 0 }
      | _ => none
  | .create =>
      match core.control with
      | .creating index =>
          if index < core.capacity then
            some { core with
              threads := core.threads ++ [core.created]
              capacity :=
                if core.threads.length = core.capacity then allocation.grow core.capacity
                else core.capacity
              created := core.created + 1
              control := .creating (index + 1) }
          else none
      | _ => none
  | .fail =>
      match core.control with
      | .creating index =>
          if index < core.capacity then some { core with running := false, control := .idle }
          else none
      | _ => none
  | .finish =>
      match core.control with
      | .creating index =>
          if index < core.capacity then none else some { core with control := .idle }
      | _ => none
  | .stop =>
      match core.control with
      | .idle => some { core with control := .exchanging false }
      | _ => none
  | .destroy =>
      match core.control with
      | .idle => some { core with control := .exchanging true }
      | _ => none
  | .go =>
      match core.control with
      -- a scheduler that is not running is left as it is
      | .exchanging last =>
          if core.running then some { core with running := false, control := .notifying last }
          else some { core with control := if last then .members else .idle }
      | .notifying last => some { core with control := .joining 0 last }
      | .joining index last =>
          match core.threads[index]? with
          | none => some { core with threads := [], control := .settling last }
          | some worker =>
              if exited worker then
                some { core with
                  joined := core.joined ++ [worker]
                  control := .joining (index + 1) last }
              else none
      | .settling last => some { core with control := if last then .members else .idle }
      | .members =>
          some { core with control := if core.threads = [] then .destroyed else .terminated }
      | _ => none

namespace State

variable (state : State)

/-- The workers after a step of the owner. -/
def workersAfter : Move → Nat → WorkerStage
  | .create => Function.update state.workers state.core.created .top
  | .go =>
      match state.core.control with
      | .notifying _ => fun worker =>
          if state.workers worker = .blocked then .notified else state.workers worker
      | _ => state.workers
  | _ => state.workers

/-- The length of the queue after a step of the owner. -/
def queuedAfter (move : Move) : Nat :=
  match move, state.core.control with
  | .go, .settling _ => 0
  | _, _ => state.queued

def setWorker (worker : Nat) (stage : WorkerStage) : State :=
  { state with workers := Function.update state.workers worker stage }

/-- The members are destroyed, `queue_cv_` before `threads_`, while a worker waits
on `queue_cv_`. -/
def destroysAwaited : Move → Bool
  | .go =>
      match state.core.control with
      | .members => state.core.threads.any fun worker => state.workers worker = .blocked
      | _ => false
  | _ => false

end State

def workerStep (state : State) (worker : Nat) : WorkerStage → Option State
  | .top => some (state.setWorker worker (if state.core.running then .locking else .exited))
  | .locking | .notified =>
      if state.core.running then
        match state.queued with
        | 0 => some (state.setWorker worker .blocked)
        | rest + 1 => some ({ state with queued := rest }.setWorker worker .popped)
      else some (state.setWorker worker .exited)
  | .popped => some (state.setWorker worker (if state.core.running then .busy else .exited))
  | .busy => some (state.setWorker worker .top)
  | .blocked | .exited => none

/-- A step of a party. To destroy a condition variable that a thread waits on is
undefined: the run ends before it. -/
def step (allocation : Allocation) (state : State) : Action → Option State
  | .owner move =>
      if state.destroysAwaited move then none
      else
        (coreStep allocation (fun worker => state.workers worker = .exited) state.core move).map
          fun core => ⟨core, state.workersAfter move, state.queuedAfter move⟩
  | .worker worker =>
      if worker < state.core.created then workerStep state worker (state.workers worker) else none
  | .spurious worker =>
      if worker < state.core.created ∧ state.workers worker = .blocked then
        some (state.setWorker worker .notified)
      else none
  | .post none => some { state with queued := state.queued + 1 }
  | .post (some worker) =>
      if worker < state.core.created ∧ state.workers worker = .blocked then
        some ({ state with queued := state.queued + 1 }.setWorker worker .notified)
      else none

/-- `scheduler::scheduler`. -/
def constructed (allocation : Allocation) (numThreads hardwareConcurrency : Nat) : State where
  core :=
    { running := false
      capacity := allocation.reserve (configured numThreads hardwareConcurrency)
      threads := []
      created := 0
      joined := []
      control := .idle }
  workers _ := .exited
  queued := 0

/-- All runs of a scheduler. -/
def machine (allocation : Allocation) (numThreads hardwareConcurrency : Nat) :
    Machine State Action where
  start := constructed allocation numThreads hardwareConcurrency
  step := step allocation

/-! ## What is to hold after a failed start -/

def Action.move : Action → Option Move
  | .owner move => some move
  | .worker _ | .spurious _ | .post _ => none

/-- The steps of the owner in a run. -/
def moves (actions : List Action) : List Move := actions.filterMap Action.move

section Properties

variable (allocation : Allocation) (numThreads hardwareConcurrency failure : Nat)

/-- The exception has left the first `init`, after this many creations. -/
def Failed (failed : State) : Prop :=
  ∃ front, (machine allocation numThreads hardwareConcurrency).exec
      (constructed allocation numThreads hardwareConcurrency) front = some failed ∧
    moves front = .init :: (List.replicate failure .create ++ [.fail])

/-- A call of the owner has ended. -/
def Control.ended : Control → Bool
  | .idle | .destroyed | .terminated => true
  | _ => false

/-- When the scheduler has been stopped or destroyed after the failure, all the
workers started before it have returned and been joined. -/
def CleansUp : Prop :=
  ∀ failed, Failed allocation numThreads hardwareConcurrency failure failed →
    ∀ later final call count, call = .stop ∨ call = .destroy →
      (machine allocation numThreads hardwareConcurrency).exec failed later = some final →
      moves later = call :: List.replicate count .go → final.core.control.ended = true →
      ∀ worker < failure, final.workers worker = .exited ∧ worker ∈ final.core.joined

/-- When `init` is called again and no creation fails, it makes a bounded number
of creations, and returns with the configured number of threads. -/
def Restarts : Prop :=
  ∀ failed, Failed allocation numThreads hardwareConcurrency failure failed →
    ∃ bound, ∀ later final count,
      (machine allocation numThreads hardwareConcurrency).exec failed later = some final →
      (moves later = .init :: List.replicate count .create → count ≤ bound) ∧
        (moves later = .init :: (List.replicate count .create ++ [.finish]) →
          final.core.threads.length = configured numThreads hardwareConcurrency)

/-- A failed start leaves no threads behind. -/
def Recovers : Prop :=
  CleansUp allocation numThreads hardwareConcurrency failure ∧
    Restarts allocation numThreads hardwareConcurrency failure

end Properties

/-! ## The owner by itself

Up to the joins nothing the owner does depends on the workers. -/

/-- The owner of a scheduler whose workers never return. -/
def ownerMachine (allocation : Allocation) (start : Core) : Machine Core Move where
  start := start
  step := coreStep allocation fun _ => false

section Owner

variable {allocation : Allocation} {numThreads hardwareConcurrency : Nat}

theorem coreStep_eq {move : Move} (hmove : move ≠ .go) (exited other : Nat → Bool) (core : Core) :
    coreStep allocation exited core move = coreStep allocation other core move := by
  cases move with
  | go => exact absurd rfl hmove
  | _ => rfl

/-- Before it waits for the workers the owner moves by itself. -/
theorem step_owner {move : Move} (hmove : move ≠ .go) (state : State) :
    step allocation state (.owner move) =
      (coreStep allocation (fun _ => false) state.core move).map
        fun core => ⟨core, state.workersAfter move, state.queuedAfter move⟩ := by
  have hdefined : state.destroysAwaited move = false := by
    cases move with
    | go => exact absurd rfl hmove
    | _ => rfl
  simp only [step, hdefined, Bool.false_eq_true, if_false]
  rw [coreStep_eq hmove]

theorem workerStep_core {state next : State} {worker : Nat} {stage : WorkerStage}
    (hstep : workerStep state worker stage = some next) : next.core = state.core := by
  cases stage with
  | top => cases hstep; rfl
  | popped => cases hstep; rfl
  | busy => cases hstep; rfl
  | blocked => cases hstep
  | exited => cases hstep
  | locking | notified =>
      simp only [workerStep] at hstep
      split at hstep
      next => split at hstep <;> (cases hstep; rfl)
      next => cases hstep; rfl

/-- Only the owner works on its part of the state. -/
theorem step_core {state next : State} {action : Action} (hmove : action.move = none)
    (hstep : step allocation state action = some next) : next.core = state.core := by
  cases action with
  | owner move => cases hmove
  | worker worker =>
      simp only [step] at hstep
      split at hstep
      next => exact workerStep_core hstep
      next => cases hstep
  | spurious worker =>
      simp only [step] at hstep
      split at hstep
      next => cases hstep; rfl
      next => cases hstep
  | post target =>
      cases target with
      | none => cases hstep; rfl
      | some worker =>
          simp only [step] at hstep
          split at hstep
          next => cases hstep; rfl
          next => cases hstep

/-- A run moves the owner as its steps alone do. -/
theorem exec_core (start : Core) {actions : List Action} {state final : State}
    (hgo : .go ∉ moves actions)
    (hexec : (machine allocation numThreads hardwareConcurrency).exec state actions =
      some final) :
    (ownerMachine allocation start).exec state.core (moves actions) = some final.core := by
  induction actions generalizing state with
  | nil =>
      cases hexec
      rfl
  | cons action rest ih =>
      obtain ⟨next, hnext, hrest⟩ := Option.bind_eq_some_iff.mp hexec
      change step allocation state action = some next at hnext
      cases hmove : action.move with
      | none =>
          have hmoves : moves (action :: rest) = moves rest := by simp [moves, hmove]
          rw [hmoves] at hgo ⊢
          rw [← step_core hmove hnext]
          exact ih hgo hrest
      | some move =>
          have hmoves : moves (action :: rest) = move :: moves rest := by simp [moves, hmove]
          rw [hmoves] at hgo ⊢
          obtain rfl : action = .owner move := by
            cases action <;> simp_all [Action.move]
          have hhead : move ≠ .go := fun heq => hgo (heq ▸ List.mem_cons_self)
          rw [step_owner hhead] at hnext
          obtain ⟨core, hcore, hafter⟩ := Option.map_eq_some_iff.mp hnext
          refine Option.bind_eq_some_iff.mpr ⟨core, hcore, ?_⟩
          have htail := ih (fun hmem => hgo (List.mem_cons_of_mem _ hmem)) hrest
          rwa [← hafter] at htail

/-- Whatever the owner can do alone, it can do in a run. -/
theorem exec_owner (start : Core) {steps : List Move} {state : State} {core : Core}
    (hgo : .go ∉ steps)
    (hexec : (ownerMachine allocation start).exec state.core steps = some core) :
    ∃ final, (machine allocation numThreads hardwareConcurrency).exec state
      (steps.map .owner) = some final ∧ final.core = core := by
  induction steps generalizing state with
  | nil =>
      cases hexec
      exact ⟨state, rfl, rfl⟩
  | cons move rest ih =>
      obtain ⟨next, hnext, hrest⟩ := Option.bind_eq_some_iff.mp hexec
      have hhead : move ≠ .go := fun heq => hgo (heq ▸ List.mem_cons_self)
      obtain ⟨final, hfinal, hcore⟩ := @ih
        ⟨next, state.workersAfter move, state.queuedAfter move⟩
        (fun hmem => hgo (List.mem_cons_of_mem _ hmem)) hrest
      refine ⟨final, Option.bind_eq_some_iff.mpr ⟨_, ?_, hfinal⟩, hcore⟩
      exact (step_owner hhead state).trans (Option.map_eq_some_iff.mpr ⟨next, hnext, rfl⟩)

@[simp] theorem moves_map_owner (steps : List Move) : moves (steps.map .owner) = steps := by
  simp [moves, List.filterMap_map, Function.comp_def, Action.move]

end Owner

/-! ## The loop of `init` -/

section Loop

variable {allocation : Allocation} {start core next : Core} {index offset : Nat}

/-- The owner where `init` enters its loop. -/
def Core.entered (core : Core) : Core := { core with running := true, control := .creating 0 }

/-- In the loop of `init`, with `offset` threads that were there before it. -/
structure Looping (core : Core) (index offset : Nat) : Prop where
  control : core.control = .creating index
  length : core.threads.length = offset + index
  room : core.threads.length ≤ core.capacity

/-- An iteration adds a thread, and the capacity follows when it has to. -/
theorem Looping.create (hlooping : Looping core index offset)
    (hstep : (ownerMachine allocation start).step core .create = some next) :
    Looping next (index + 1) offset ∧ index < core.capacity ∧ next.joined = core.joined ∧
      (offset = 0 → next.capacity = core.capacity) := by
  obtain ⟨hcontrol, hlength, hroom⟩ := hlooping
  simp only [ownerMachine, coreStep, hcontrol] at hstep
  split at hstep
  next hindex =>
    cases hstep
    refine ⟨⟨rfl, by simp [hlength, Nat.add_assoc], ?_⟩, hindex, rfl, fun hoffset => ?_⟩
    · have hgrows := allocation.lt_grow core.capacity
      simp only [List.length_append, List.length_singleton]
      split <;> omega
    · exact if_neg (by omega)
  next => cases hstep

/-- With threads in the vector the loop can always go on: the capacity stays
above the index. -/
theorem Looping.exists_create (hlooping : Looping core index offset)
    (hroom : 0 < offset ∨ index < core.capacity) :
    ∃ next, (ownerMachine allocation start).step core .create = some next := by
  have hindex : index < core.capacity := by
    have hlength := hlooping.length
    have hcapacity := hlooping.room
    omega
  simp only [ownerMachine, coreStep, hlooping.control, if_pos hindex]
  exact ⟨_, rfl⟩

theorem Looping.creates (hlooping : Looping core index offset) {count : Nat} {final : Core}
    (hexec : (ownerMachine allocation start).exec core (List.replicate count .create) =
      some final) :
    Looping final (index + count) offset ∧ final.joined = core.joined ∧
      (offset = 0 → final.capacity = core.capacity) := by
  induction count generalizing core index with
  | zero =>
      cases hexec
      exact ⟨hlooping, rfl, fun _ => rfl⟩
  | succ count ih =>
      obtain ⟨next, hnext, hrest⟩ := Option.bind_eq_some_iff.mp hexec
      obtain ⟨hafter, _, hjoined, hcapacity⟩ := hlooping.create hnext
      obtain ⟨hfinal, hjoins, hkeeps⟩ := ih hafter hrest
      rw [Nat.add_right_comm, Nat.add_assoc] at hfinal
      exact ⟨hfinal, hjoins.trans hjoined,
        fun hoffset => (hkeeps hoffset).trans (hcapacity hoffset)⟩

theorem Looping.exists_creates (hlooping : Looping core index offset) {count : Nat}
    (hroom : 0 < offset ∨ index + count ≤ core.capacity) :
    ∃ final, (ownerMachine allocation start).exec core (List.replicate count .create) =
      some final := by
  induction count generalizing core index with
  | zero => exact ⟨core, rfl⟩
  | succ count ih =>
      obtain ⟨next, hnext⟩ : ∃ next, (ownerMachine allocation start).step core .create =
          some next := hlooping.exists_create (by omega)
      obtain ⟨hafter, _, _, hcapacity⟩ := hlooping.create hnext
      obtain ⟨final, hfinal⟩ := ih hafter (by omega)
      exact ⟨final, Option.bind_eq_some_iff.mpr ⟨next, hnext, hfinal⟩⟩

/-- A loop over an empty vector makes no more creations than there is room for. -/
theorem Looping.count_le (hlooping : Looping core index 0) {count : Nat} {final : Core}
    (hexec : (ownerMachine allocation start).exec core (List.replicate count .create) =
      some final) :
    index + count ≤ core.capacity := by
  obtain ⟨⟨_, hlength, hroom⟩, _, hcapacity⟩ := hlooping.creates hexec
  rw [hcapacity rfl] at hroom
  omega

end Loop

/-! ## Failing and starting again -/

section Recovery

variable {allocation : Allocation} {numThreads hardwareConcurrency failure : Nat}

/-- What the exception leaves of the owner's part. -/
structure Abandoned (allocation : Allocation) (numThreads hardwareConcurrency failure : Nat)
    (core : Core) : Prop where
  control : core.control = .idle
  stopped : core.running = false
  length : core.threads.length = failure
  capacity : core.capacity = allocation.reserve (configured numThreads hardwareConcurrency)
  joined : core.joined = []

/-- `init` reaches its loop. -/
theorem exec_init (start : Core) {core : Core} (hcontrol : core.control = .idle)
    (hstopped : core.running = false) (rest : List Move) :
    (ownerMachine allocation start).exec core (.init :: rest) =
      (ownerMachine allocation start).exec core.entered rest := by
  simp [Machine.exec, ownerMachine, coreStep, hcontrol, hstopped, Core.entered]

theorem constructed_looping :
    Looping (constructed allocation numThreads hardwareConcurrency).core.entered 0 0 :=
  ⟨rfl, rfl, Nat.zero_le _⟩

theorem Failed.abandoned {failed : State}
    (hfailed : Failed allocation numThreads hardwareConcurrency failure failed) :
    Abandoned allocation numThreads hardwareConcurrency failure failed.core := by
  obtain ⟨front, hfront, hmoves⟩ := hfailed
  have hcore := exec_core (constructed allocation numThreads hardwareConcurrency).core
    (by simp [hmoves, List.mem_replicate]) hfront
  rw [hmoves, exec_init _ rfl rfl, Machine.exec_append] at hcore
  obtain ⟨middle, hmiddle, hlast⟩ := Option.bind_eq_some_iff.mp hcore
  obtain ⟨⟨hcontrol, hlength, hroom⟩, hjoined, hcapacity⟩ := constructed_looping.creates hmiddle
  obtain ⟨final, hfinal, hnil⟩ := Option.bind_eq_some_iff.mp hlast
  cases hnil
  simp only [ownerMachine, coreStep, hcontrol] at hfinal
  split at hfinal
  next =>
    rw [← Option.some.inj hfinal]
    exact ⟨rfl, rfl, by simpa using hlength, hcapacity rfl, hjoined⟩
  next => cases hfinal

/-- The creation can fail at any thread. -/
theorem exists_failed (hfailure : failure < configured numThreads hardwareConcurrency) :
    ∃ failed, Failed allocation numThreads hardwareConcurrency failure failed := by
  have hroom := Nat.lt_of_lt_of_le hfailure (allocation.le_reserve _)
  have hlooping : Looping (constructed allocation numThreads hardwareConcurrency).core.entered
      0 0 := constructed_looping
  obtain ⟨middle, hmiddle⟩ : ∃ middle, (ownerMachine allocation
      (constructed allocation numThreads hardwareConcurrency).core).exec _
        (List.replicate failure .create) = some middle :=
    hlooping.exists_creates (Or.inr (by simpa [constructed, Core.entered] using Nat.le_of_lt hroom))
  obtain ⟨⟨hcontrol, _, _⟩, _, hcapacity⟩ := hlooping.creates hmiddle
  have hindex : failure < middle.capacity := by
    rw [hcapacity rfl]
    exact hroom
  have hcore : (ownerMachine allocation
      (constructed allocation numThreads hardwareConcurrency).core).exec
        (constructed allocation numThreads hardwareConcurrency).core
          (.init :: (List.replicate failure .create ++ [.fail])) =
      some { middle with running := false, control := .idle } := by
    rw [exec_init _ rfl rfl, Machine.exec_append, hmiddle, Option.bind_some]
    simp [Machine.exec, ownerMachine, coreStep, hcontrol, hindex]
  obtain ⟨failed, hfailed, _⟩ := exec_owner _ (by simp [List.mem_replicate]) hcore
  exact ⟨failed, _, hfailed, moves_map_owner _⟩

/-- The loop of a second `init` starts behind the threads of the first. -/
theorem Abandoned.looping {core : Core}
    (habandoned : Abandoned allocation numThreads hardwareConcurrency failure core)
    (hfailure : failure ≤ configured numThreads hardwareConcurrency) :
    Looping core.entered 0 failure where
  control := rfl
  length := habandoned.length
  room := by
    change core.threads.length ≤ core.capacity
    rw [habandoned.length, habandoned.capacity]
    exact Nat.le_trans hfailure (allocation.le_reserve _)

/-- Without threads left over, a second `init` creates what there is room for. -/
theorem restarts_zero (hexact : allocation.reserve (configured numThreads hardwareConcurrency) =
    configured numThreads hardwareConcurrency) :
    Restarts allocation numThreads hardwareConcurrency 0 := by
  intro failed hfailed
  have habandoned := hfailed.abandoned
  have hlooping := habandoned.looping (Nat.zero_le _)
  have hroom : failed.core.entered.capacity = configured numThreads hardwareConcurrency :=
    habandoned.capacity.trans hexact
  refine ⟨configured numThreads hardwareConcurrency, fun later final count hlater => ⟨?_, ?_⟩⟩
  · intro hmoves
    have hcore := exec_core failed.core (by simp [hmoves, List.mem_replicate]) hlater
    rw [hmoves, exec_init _ habandoned.control habandoned.stopped] at hcore
    have hcount := hlooping.count_le hcore
    simpa [hroom] using hcount
  · intro hmoves
    have hcore := exec_core failed.core (by simp [hmoves, List.mem_replicate]) hlater
    rw [hmoves, exec_init _ habandoned.control habandoned.stopped, Machine.exec_append] at hcore
    obtain ⟨middle, hmiddle, hlast⟩ := Option.bind_eq_some_iff.mp hcore
    have hcount := hlooping.count_le hmiddle
    obtain ⟨⟨hcontrol, hlength, _⟩, _, hcapacity⟩ := hlooping.creates hmiddle
    obtain ⟨done, hdone, hnil⟩ := Option.bind_eq_some_iff.mp hlast
    cases hnil
    simp only [ownerMachine, coreStep, hcontrol] at hdone
    split at hdone
    next => cases hdone
    next hfull =>
      rw [← Option.some.inj hdone]
      rw [hcapacity rfl, hroom] at hfull
      rw [hroom] at hcount
      change middle.threads.length = configured numThreads hardwareConcurrency
      omega

/-- Without threads left over, a second `init` can return. -/
theorem Failed.exists_returned {failed : State}
    (hfailed : Failed allocation numThreads hardwareConcurrency 0 failed) :
    ∃ final actions count, (machine allocation numThreads hardwareConcurrency).exec failed
        actions = some final ∧
      moves actions = .init :: (List.replicate count .create ++ [.finish]) ∧
      final.core.threads.length =
        allocation.reserve (configured numThreads hardwareConcurrency) := by
  have habandoned := hfailed.abandoned
  have hlooping := habandoned.looping (Nat.zero_le _)
  have hroom : failed.core.entered.capacity =
      allocation.reserve (configured numThreads hardwareConcurrency) := habandoned.capacity
  obtain ⟨middle, hmiddle⟩ : ∃ middle, (ownerMachine allocation failed.core).exec _
      (List.replicate failed.core.entered.capacity .create) = some middle :=
    hlooping.exists_creates (Or.inr (Nat.le_of_eq (Nat.zero_add _)))
  obtain ⟨⟨hcontrol, hlength, _⟩, _, hcapacity⟩ := hlooping.creates hmiddle
  have hcore : (ownerMachine allocation failed.core).exec failed.core
      (.init :: (List.replicate failed.core.entered.capacity .create ++ [.finish])) =
        some { middle with control := .idle } := by
    rw [exec_init _ habandoned.control habandoned.stopped, Machine.exec_append, hmiddle,
      Option.bind_some]
    simp [Machine.exec, ownerMachine, coreStep, hcontrol, hcapacity rfl]
  obtain ⟨final, hfinal, hafter⟩ := exec_owner _ (by simp [List.mem_replicate]) hcore
  refine ⟨final, _, _, hfinal, moves_map_owner _, ?_⟩
  rw [hafter]
  simpa [hroom] using hlength

/-- The call of `stop` goes by a scheduler that is not running. -/
theorem not_cleansUp_pos (hfailure : failure < configured numThreads hardwareConcurrency)
    (hpositive : 0 < failure) : ¬ CleansUp allocation numThreads hardwareConcurrency failure := by
  intro hcleans
  obtain ⟨failed, hfailed⟩ : ∃ failed, Failed allocation numThreads hardwareConcurrency failure
      failed := exists_failed hfailure
  obtain ⟨hcontrol, hstopped, _, _, hjoined⟩ := hfailed.abandoned
  have hstops : (machine allocation numThreads hardwareConcurrency).exec failed
      [.owner .stop, .owner .go] = some failed := by
    obtain ⟨⟨running, capacity, threads, created, joined, control⟩, workers, queued⟩ := failed
    obtain rfl : control = .idle := hcontrol
    obtain rfl : running = false := hstopped
    rfl
  have hclean := hcleans failed hfailed _ _ .stop 1 (Or.inl rfl) hstops rfl
    (by simp [hcontrol, Control.ended]) 0 hpositive
  simp [hjoined] at hclean

/-- A scheduler recovers from a failed start exactly if the first creation is
the one that failed, and the vector has exactly the room it was asked for. -/
theorem recovers_iff (allocation : Allocation) (numThreads hardwareConcurrency failure : Nat)
    (hfailure : failure < configured numThreads hardwareConcurrency) :
    Recovers allocation numThreads hardwareConcurrency failure ↔
      failure = 0 ∧ allocation.reserve (configured numThreads hardwareConcurrency) =
        configured numThreads hardwareConcurrency := by
  constructor
  · rintro ⟨hcleans, hrestarts⟩
    obtain rfl : failure = 0 := by
      by_contra hne
      exact not_cleansUp_pos hfailure (Nat.pos_of_ne_zero hne) hcleans
    obtain ⟨failed, hfailed⟩ : ∃ failed, Failed allocation numThreads hardwareConcurrency 0
        failed := exists_failed hfailure
    obtain ⟨final, actions, count, hfinal, hmoves, hlength⟩ := hfailed.exists_returned
    obtain ⟨bound, hbound⟩ := hrestarts failed hfailed
    exact ⟨rfl, hlength.symm.trans ((hbound actions final count hfinal).2 hmoves)⟩
  · rintro ⟨rfl, hexact⟩
    exact ⟨fun _ _ _ _ _ _ _ _ _ _ _ hworker => absurd hworker (Nat.not_lt_zero _),
      restarts_zero hexact⟩

end Recovery

/-- A vector that allocates what it is asked for, and doubles. -/
def doubling : Allocation where
  reserve count := count
  grow capacity := 2 * capacity + 1
  le_reserve := Nat.le_refl
  lt_grow capacity := by omega

/-- The second of two threads cannot be created. `stop` returns, and the first
worker still waits; another `init` has soon created six more, and goes on. -/
theorem leaked_worker_run :
    (((machine doubling 2 0).exec (constructed doubling 2 0)
      [.owner .init, .owner .create, .worker 0, .worker 0, .owner .fail, .owner .stop,
        .owner .go]).map fun final =>
          (final.core.control, final.core.threads, final.workers 0, final.core.joined)) =
        some (.idle, [0], .blocked, []) ∧
      (((machine doubling 2 0).exec (constructed doubling 2 0)
        ([.owner .init, .owner .create, .owner .fail, .owner .init] ++
          List.replicate 6 (.owner .create))).map fun final =>
            (final.core.control, final.core.threads.length, final.core.capacity)) =
        some (.creating 6, 7, 11) ∧
      ¬ Recovers doubling 2 0 1 :=
  ⟨by decide, by decide, fun hrecovers => not_cleansUp_pos (by decide) (by decide) hrecovers.1⟩

/-- The creation of the first of two threads fails. -/
theorem recovers_first : Recovers doubling 2 0 0 :=
  (recovers_iff doubling 2 0 0 (by decide)).mpr ⟨rfl, rfl⟩

end Tang.Scheduler.Spawning
