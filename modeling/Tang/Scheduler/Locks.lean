import Mathlib.Data.Fintype.Basic
import Mathlib.Data.Prod.Lex
import Tang.Foundation.LockOrder

/-! # The mutexes of the scheduler and the channels

For each operation the mutexes it acquires and releases on each of its branches, and the
points at which it runs code of the user: the body of a coroutine, a copy, move or
destructor of a value, and in `stop` the destructors of the frames it destroys. A wait on
a condition variable releases its mutex and acquires it again on every wake-up.
-/

namespace Tang.Scheduler.Locks

open Foundation

inductive Mutex (Channel : Type)
  /-- `mutex_` of a channel. -/
  | channel (channel : Channel)
  /-- `queue_mutex_`. -/
  | queue
  /-- `completion_mutex_`. -/
  | completion
  deriving DecidableEq

variable {Channel : Type}

abbrev Jobs (Channel : Type) := List (Job (Mutex Channel))

/-- The scope of a `lock_guard`. -/
def locked (mutex : Mutex Channel) (inside : Jobs Channel) : Jobs Channel :=
  .acquire mutex :: inside ++ [.release mutex]

/-- A wait on a condition variable, with a number of wake-ups. -/
def waiting (mutex : Mutex Channel) (wakes : Nat) : Jobs Channel :=
  (List.range (wakes + 1)).flatMap fun _ => locked mutex []

/-- `scheduler::schedule`, which leaves a finished coroutine alone. -/
def schedule (done : Bool) : Jobs Channel :=
  if done then [] else locked .queue []

def taskCompleted : Jobs Channel :=
  locked .completion []

/-- What a thread does with a popped handle. -/
inductive Popped
  /-- It is at its final suspension. -/
  | skipped
  /-- It is resumed, and ends or throws. -/
  | finished
  /-- It is resumed and scheduled again, unless it has ended meanwhile. -/
  | suspended (done : Bool)

def Popped.jobs : Popped → Jobs Channel
  | .skipped => taskCompleted
  | .finished => .code :: taskCompleted
  | .suspended done => .code :: schedule done

/-- An iteration of the loop of a worker or of `run`: the wake-ups of its wait and the handle
it pops. -/
structure Iteration where
  wakes : Nat
  popped : Option Popped

def Iteration.jobs (iteration : Iteration) : Jobs Channel :=
  waiting .queue iteration.wakes ++ iteration.popped.elim [] Popped.jobs

/-- The operations, each with what decides its branches. -/
inductive Operation (Channel : Type)
  | schedule (done : Bool)
  | taskCompleted
  | waitForCompletion (wakes : Nat)
  /-- The loop of a worker thread. -/
  | work (iterations : List Iteration)
  /-- `scheduler::run`: its main loop, the rounds of the extended wait that pop, and the
  wake-ups of the last wait. -/
  | run (iterations rounds : List Iteration) (wakes : Nat)
  /-- `scheduler::stop`: `running_`, the wake-ups of its wait, and for each queued handle
  whether it is done. -/
  | stop (running : Bool) (wakes : Nat) (queued : List Bool)
  /-- `try_send`: `closed_`, the receiver that waits and whether it is done, and whether the
  buffer is full. -/
  | trySend (channel : Channel) (closed : Bool) (receiver : Option Bool) (full : Bool)
  /-- `try_recv`: `closed_`, whether the buffer has a value, and the sender that waits. -/
  | tryRecv (channel : Channel) (closed buffered : Bool) (sender : Option Bool)
  | registerSendWaiter (channel : Channel) (closed done : Bool) (receiver : Option Bool)
  | registerRecvWaiter (channel : Channel) (closed done : Bool) (sender : Option Bool)
  /-- `close`: whether it was closed before, and the waiters. -/
  | close (channel : Channel) (closed : Bool) (senders receivers : List Bool)
  /-- `is_empty`, and `is_full` of a channel with a buffer. -/
  | inspect (channel : Channel)

/-- What happens inside the critical section of `try_send`. -/
def sending (closed : Bool) (receiver : Option Bool) (full : Bool) : Jobs Channel :=
  if closed then []
  else match receiver with
    | some done => .code :: schedule done
    | none => if full then [] else [.code]

def receiving (closed buffered : Bool) (sender : Option Bool) : Jobs Channel :=
  -- the value of the sender is moved, and destroyed with its waiter
  let taking := sender.elim [] fun done => .code :: schedule done ++ [.code]
  if buffered then .code :: taking else if closed then [] else taking

def registeringSend (closed done : Bool) (receiver : Option Bool) : Jobs Channel :=
  if closed then schedule done
  else .code :: receiver.elim [] schedule

def registeringRecv (closed done : Bool) (sender : Option Bool) : Jobs Channel :=
  if closed then schedule done
  else sender.elim [] fun other => .code :: (schedule done ++ schedule other ++ [.code])

def closing (senders receivers : List Bool) : Jobs Channel :=
  senders.flatMap schedule ++ (senders.flatMap fun _ => [.code]) ++ receivers.flatMap schedule

/-- The frames that `stop` destroys. -/
def destroying (queued : List Bool) : Jobs Channel :=
  queued.flatMap fun done => if done then [] else [.code]

def Operation.jobs : Operation Channel → Jobs Channel
  | .schedule done => Locks.schedule done
  | .taskCompleted => Locks.taskCompleted
  | .waitForCompletion wakes => waiting .completion wakes
  | .work iterations => iterations.flatMap Iteration.jobs
  | .run iterations rounds wakes =>
      iterations.flatMap Iteration.jobs ++ rounds.flatMap Iteration.jobs ++
        waiting .completion wakes
  | .stop running wakes queued =>
      if running then
        locked .queue [] ++ waiting .completion wakes ++
          locked .queue (destroying queued)
      else []
  | .trySend channel closed receiver full =>
      locked (.channel channel) (sending closed receiver full)
  | .tryRecv channel closed buffered sender =>
      locked (.channel channel) (receiving closed buffered sender)
  | .registerSendWaiter channel closed done receiver =>
      locked (.channel channel) (registeringSend closed done receiver)
  | .registerRecvWaiter channel closed done sender =>
      locked (.channel channel) (registeringRecv closed done sender)
  | .close channel closed senders receivers =>
      if closed then [] else locked (.channel channel) (closing senders receivers)
  | .inspect channel => locked (.channel channel) []

/-! ## The order of the mutexes -/

/-- The channels by their level, then `queue_mutex_`, then `completion_mutex_`. -/
def Mutex.rank (level : Channel → Nat) : Mutex Channel → ℕ ×ₗ ℕ
  | .channel name => toLex (0, level name)
  | .queue => toLex (1, 0)
  | .completion => toLex (2, 0)

variable {level : Channel → Nat}

theorem climbs_locked (mutex : Mutex Channel) :
    Job.Climbs (Mutex.rank level) [] (locked mutex []) [] :=
  .critical (.nil []) nofun

theorem climbs_waiting (mutex : Mutex Channel) (wakes : Nat) :
    Job.Climbs (Mutex.rank level) [] (waiting mutex wakes) [] :=
  .flatMap _ fun _ _ => climbs_locked mutex

theorem climbs_popped (popped : Popped) :
    Job.Climbs (Mutex.rank level) [] popped.jobs [] := by
  cases popped with
  | skipped => exact climbs_locked .completion
  | finished => exact .code (climbs_locked .completion)
  | suspended done =>
      cases done with
      | true => exact .code (.nil [])
      | false => exact .code (climbs_locked .queue)

theorem climbs_iteration (iteration : Iteration) :
    Job.Climbs (Mutex.rank level) [] iteration.jobs [] := by
  apply (climbs_waiting .queue iteration.wakes).append
  cases iteration.popped with
  | none => exact .nil []
  | some popped => exact climbs_popped popped

/-- Jobs in a critical section of a channel: code, and calls of `schedule`. -/
structure Inner (level : Channel → Nat) (jobs : Jobs Channel) : Prop where
  climbs : Job.Climbs (Mutex.rank level) [] jobs []
  queue : ∀ mutex ∈ Job.acquires jobs, mutex = .queue

namespace Inner

theorem nil : Inner level [] :=
  ⟨.nil [], nofun⟩

theorem code : Inner level [.code] :=
  ⟨.code (.nil []), nofun⟩

theorem schedule (done : Bool) : Inner level (schedule done) := by
  cases done with
  | true => exact nil
  | false => exact ⟨climbs_locked .queue, fun _ hmutex => List.mem_singleton.mp hmutex⟩

theorem append {front back : Jobs Channel} (hfront : Inner level front)
    (hback : Inner level back) : Inner level (front ++ back) where
  climbs := hfront.climbs.append hback.climbs
  queue mutex hmutex := by
    rw [Job.acquires_append] at hmutex
    exact (List.mem_append.mp hmutex).elim (hfront.queue mutex) (hback.queue mutex)

theorem flatMap {jobs : Bool → Jobs Channel} (waiters : List Bool)
    (hjobs : ∀ waiter, Inner level (jobs waiter)) : Inner level (waiters.flatMap jobs) := by
  induction waiters with
  | nil => exact nil
  | cons waiter rest ih => exact (hjobs waiter).append ih

theorem optional {jobs : Bool → Jobs Channel} (waiter : Option Bool)
    (hjobs : ∀ waiter, Inner level (jobs waiter)) : Inner level (waiter.elim [] jobs) := by
  cases waiter with
  | none => exact nil
  | some waiter => exact hjobs waiter

/-- A critical section of a channel nests `queue_mutex_` in the mutex of the channel. -/
theorem locked {jobs : Jobs Channel} (hinner : Inner level jobs) (channel : Channel) :
    Job.Climbs (Mutex.rank level) [] (locked (.channel channel) jobs) [] := by
  refine .critical hinner.climbs fun mutex hmutex => ?_
  rw [hinner.queue mutex hmutex]
  exact Prod.Lex.toLex_lt_toLex.mpr (Or.inl Nat.zero_lt_one)

theorem sending (closed : Bool) (receiver : Option Bool) (full : Bool) :
    Inner level (sending closed receiver full) := by
  unfold Locks.sending
  split
  next => exact nil
  next =>
    split
    next done => exact code.append (schedule done)
    next =>
      split
      next => exact nil
      next => exact code

theorem receiving (closed buffered : Bool) (sender : Option Bool) :
    Inner level (receiving closed buffered sender) := by
  have htaking : Inner level (sender.elim [] fun done => .code :: Locks.schedule done ++ [.code]) :=
    optional sender fun done => (code.append (schedule done)).append code
  unfold Locks.receiving
  split
  next => exact code.append htaking
  next =>
    split
    next => exact nil
    next => exact htaking

theorem registeringSend (closed done : Bool) (receiver : Option Bool) :
    Inner level (registeringSend closed done receiver) := by
  unfold Locks.registeringSend
  split
  next => exact schedule done
  next => exact code.append (optional receiver schedule)

theorem registeringRecv (closed done : Bool) (sender : Option Bool) :
    Inner level (registeringRecv closed done sender) := by
  unfold Locks.registeringRecv
  split
  next => exact schedule done
  next =>
    exact optional sender fun other =>
      code.append (((schedule done).append (schedule other)).append code)

theorem closing (senders receivers : List Bool) : Inner level (closing senders receivers) :=
  ((flatMap senders schedule).append (flatMap senders fun _ => code)).append
    (flatMap receivers schedule)

theorem destroying (queued : List Bool) : Inner level (destroying queued) :=
  flatMap queued fun done => by
    cases done with
    | true => exact nil
    | false => exact code

end Inner

/-- The destruction of a frame is code of the user. -/
theorem acquires_destroying (queued : List Bool) :
    Job.acquires (destroying queued : Jobs Channel) = [] := by
  unfold destroying
  induction queued with
  | nil => rfl
  | cons done rest ih =>
      rw [List.flatMap_cons, Job.acquires_append, ih]
      cases done <;> rfl

theorem climbs_operation (operation : Operation Channel) :
    Job.Climbs (Mutex.rank level) [] operation.jobs [] := by
  cases operation with
  | schedule done => exact (Inner.schedule done).climbs
  | taskCompleted => exact climbs_locked .completion
  | waitForCompletion wakes => exact climbs_waiting .completion wakes
  | work iterations => exact .flatMap iterations fun iteration _ => climbs_iteration iteration
  | run iterations rounds wakes =>
      have hloop : ∀ list : List Iteration,
          Job.Climbs (Mutex.rank level) [] (list.flatMap Iteration.jobs) [] := fun list =>
        .flatMap list fun iteration _ => climbs_iteration iteration
      exact ((hloop iterations).append (hloop rounds)).append (climbs_waiting .completion wakes)
  | stop running wakes queued =>
      cases running with
      | false => exact .nil []
      | true =>
          refine ((climbs_locked .queue).append (climbs_waiting .completion wakes)).append
            (.critical (Inner.destroying queued).climbs ?_)
          rw [acquires_destroying]
          exact nofun
  | trySend channel closed receiver full =>
      exact (Inner.sending closed receiver full).locked channel
  | tryRecv channel closed buffered sender =>
      exact (Inner.receiving closed buffered sender).locked channel
  | registerSendWaiter channel closed done receiver =>
      exact (Inner.registeringSend closed done receiver).locked channel
  | registerRecvWaiter channel closed done sender =>
      exact (Inner.registeringRecv closed done sender).locked channel
  | close channel closed senders receivers =>
      cases closed with
      | true => exact .nil []
      | false => exact (Inner.closing senders receivers).locked channel
  | inspect channel => exact climbs_locked (.channel channel)

variable {Party : Type} [DecidableEq Party] [Fintype Party] [DecidableEq Channel]

/-- Threads that run code of the user, which calls the operations. -/
abbrev machine (Party Channel : Type) [DecidableEq Party] [Fintype Party]
    [DecidableEq Channel] :=
  LockOrder.machine (Operation.jobs : Operation Channel → Jobs Channel) Party

/-- The lock discipline holds as long as code that runs under mutexes calls only
operations whose mutexes come later. -/
theorem disciplined_of_levels (level : Channel → Nat)
    (actions : List (Party × LockOrder.Move (Operation Channel)))
    (hmeets : (machine Party Channel).Meets
      (LockOrder.Ascending (Mutex.rank level) Operation.jobs) (machine Party Channel).start
      actions) :
    (machine Party Channel).Along LockOrder.Disciplined (machine Party Channel).start actions :=
  LockOrder.disciplined_of_ascending climbs_operation hmeets

/-- A channel is closed with a receiver parked, and a stop destroys a frame with a local
that does not block. -/
theorem disciplined_of_levels_close :
    (machine Bool Unit).Along LockOrder.Disciplined (machine Bool Unit).start
      [(true, .call (.close () false [] [false])), (true, .go), (true, .go),
        (false, .call (.stop true 0 [true, false])), (true, .go), (true, .go), (false, .go),
        (false, .go), (false, .go), (false, .go), (false, .go), (false, .call (.schedule true)),
        (false, .finish), (false, .go)] :=
  disciplined_of_levels (fun _ => 0) _ (by decide)

/-- A frame that `stop` destroys holds a `defer` that calls `schedule`: the thread then
requests `queue_mutex_` while it holds it. Another frame closes a channel while a sender
holds the mutex of the channel and waits for `queue_mutex_`. -/
theorem not_disciplined_destructors :
    (∃ final, (machine Unit Unit).exec (machine Unit Unit).start
        [((), .call (.stop true 0 [false])), ((), .go), ((), .go), ((), .go), ((), .go),
          ((), .go), ((), .call (.schedule false))] = some final ∧
      LockOrder.Requests final.1 () .queue ∧ .queue ∈ final.1.held () ∧
        ¬ LockOrder.Disciplined final) ∧
    ∃ final, (machine Bool Unit).exec (machine Bool Unit).start
        [(true, .call (.trySend () false (some false) false)), (true, .go), (true, .finish),
          (false, .call (.stop true 0 [false])), (false, .go), (false, .go), (false, .go),
          (false, .go), (false, .go), (false, .call (.close () false [] []))] = some final ∧
      LockOrder.Deadlocked final.1 := by
  constructor
  · have hrequests : ∀ final : LockOrder.State Unit (Mutex Unit) × List (Mutex Unit × Mutex Unit),
        LockOrder.Requests final.1 () .queue → .queue ∈ final.1.held () →
          ¬ LockOrder.Disciplined final := fun final hrequests hheld hdisciplined =>
      hdisciplined.once () .queue hrequests hheld
    refine ⟨_, rfl, ⟨_, rfl⟩, List.mem_singleton.mpr rfl, ?_⟩
    exact hrequests _ ⟨_, rfl⟩ (List.mem_singleton.mpr rfl)
  · refine ⟨_, rfl, Finset.univ, ⟨true, Finset.mem_univ _⟩, fun party _ => ?_⟩
    cases party with
    | true => exact ⟨.queue, ⟨_, rfl⟩, false, Finset.mem_univ _, List.mem_singleton.mpr rfl⟩
    | false =>
        exact ⟨.channel (), ⟨_, rfl⟩, true, Finset.mem_univ _, List.mem_singleton.mpr rfl⟩

end Tang.Scheduler.Locks
