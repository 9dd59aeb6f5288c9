import Tang.Foundation.Machine
import Tang.Channel.Interleaving

/-! # Coroutines, tasks and the scheduler

Every thread has a call stack of activities: the coroutine body it runs, the
resume loop below it, and the calls of the runtime it is in the middle of. One
step executes the top activity, or one operation of the code on top. Which
thread moves, and what the code on top does next, is the choice of the action,
so the runs cover every program and every schedule. Worker loop, main loop and
extended wait are one loop here: all three pop, test `done()`, resume, and
schedule a coroutine that is not done again.
-/

namespace Tang.Runtime

open Foundation Effect

/-- `std::coroutine_handle<>`: the identity of a coroutine frame. -/
abbrev Handle := Nat

/-- One `co_await` on a channel: the coroutine and the number of the await. -/
structure Ticket where
  handle : Handle
  serial : Nat
  deriving DecidableEq

/-- The object held by `promise.result`. -/
inductive Content (V : Type)
  | data (value : V)
  /-- A `task<U>`, with the handle it owns. -/
  | task (handle : Option Handle)
  | movedFrom
  deriving DecidableEq

/-- How the body of a coroutine ended. -/
inductive Ending (V : Type)
  | returnedVoid
  | returned (content : Content V)
  | raised (error : V)
  deriving DecidableEq

/-- What a parent gets out of `await_resume` of a task. -/
inductive Received (V : Type)
  | ending (ending : Ending V)
  /-- The exception thrown for a null handle. -/
  | nullHandle
  /-- The dereference of an empty `promise.result`. -/
  | undefined
  deriving DecidableEq

/-- The await a coroutine is suspended in. `taken` records that the value of a
send was accepted; `value` and `answer` are what was written through the
pointers of a receive. -/
inductive Point (V Chan : Type)
  | yield
  | sleep
  | send (channel : Chan) (taken : Bool)
  | recv (channel : Chan) (value : Option V) (answer : Option Bool)
  | task (awaited : Nat)
  deriving DecidableEq

inductive Status (V Chan : Type)
  | unborn
  | running
  | suspended (point : Point V Chan)
  /-- At the final suspension: `done()` holds. -/
  | finished
  deriving DecidableEq

/-- A coroutine frame with the promise of its task. The last three fields record
history: how the body ended, the number of channel awaits begun, and the calls
of `resume()` since the latest suspension. -/
structure Frame (V Chan : Type) where
  status : Status V Chan
  live : Bool
  void : Bool
  result : Option (Content V)
  exception : Option V
  continuation : Option Handle
  ended : Option (Ending V)
  serial : Nat
  resumes : Nat
  deriving DecidableEq

/-- A completed `co_await` of a task. -/
structure Receipt (V : Type) where
  parent : Handle
  child : Option Handle
  received : Received V
  deriving DecidableEq

/-- What a thread is in the middle of. -/
inductive Activity (V Chan : Type)
  /-- The body of a coroutine. -/
  | body (handle : Handle)
  /-- The resume loop, waiting for `handle.resume()` to return. -/
  | afterResume (handle : Handle)
  /-- The resume loop with a handle it took from the queue. -/
  | popped (handle : Handle)
  | resuming (handle : Handle)
  /-- `runtime::schedule` before its test of `done()`. -/
  | scheduling (handle : Handle)
  /-- `scheduler::schedule` before `task_started`, and before the push. -/
  | starting (handle : Handle)
  | enqueuing (handle : Handle)
  /-- `task_completed` before its test of `active_tasks_`, and after it. -/
  | completing
  | decrementing
  /-- `await_suspend` of a channel awaiter. -/
  | registeringSend (handle : Handle) (channel : Chan) (value : V)
  | registeringRecv (handle : Handle) (channel : Chan)
  /-- `close` after the exchange. -/
  | flushing (channel : Chan)
  | destroying (handle : Handle)
  deriving DecidableEq

/-- A channel whose values carry the await that sends them. -/
abbrev Conduit (V : Type) := Channel Handle (Option Ticket) (Item (Option Ticket) V)

/-- An effect of such a channel. -/
abbrev Signal (V : Type) := Effect Handle (Option Ticket) (Item (Option Ticket) V)

/-- The outcome of an operation on such a channel. -/
abbrev Answered (V R : Type) := Outcome Handle (Option Ticket) (Item (Option Ticket) V) R

/-- `tasks` are the task objects of the program by creation, each with the
handle it owns; `sleepers` are the coroutines a detached thread will schedule. -/
structure State (Thread V Chan : Type) where
  frames : Handle → Frame V Chan
  tasks : List (Option Handle)
  channels : Chan → Conduit V
  taskQueue : List Handle
  activeTasks : Int
  sleepers : List Handle
  callStacks : Thread → List (Activity V Chan)
  receipts : List (Receipt V)

/-- Operations of any code, inside or outside a coroutine. -/
inductive CodeOp (V Chan : Type)
  /-- A call of a coroutine function, which runs the body to its first
  suspension. -/
  | create (handle : Handle) (void : Bool)
  | moveTask (source : Nat)
  | assignTask (target source : Nat)
  | dropTask (source : Nat)
  | runTask (source : Nat)
  | trySend (channel : Chan) (value : V)
  | trySendMove (channel : Chan) (value : V)
  | tryRecv (channel : Chan)
  | close (channel : Chan)
  deriving DecidableEq

/-- Operations of a coroutine body that may suspend or end it. -/
inductive BodyOp (V Chan : Type)
  | yield
  | sleep
  | send (channel : Chan) (value : V)
  | recv (channel : Chan)
  | awaitTask (source : Nat)
  | returnVoid
  | returnValue (value : V)
  | returnTask (source : Nat)
  | raise (error : V)
  deriving DecidableEq

inductive Action (Thread V Chan : Type)
  /-- A resume loop takes the front of the queue. -/
  | pop (thread : Thread)
  /-- The top activity of a thread. -/
  | proceed (thread : Thread)
  | code (thread : Thread) (op : CodeOp V Chan)
  | body (thread : Thread) (op : BodyOp V Chan)
  /-- A detached sleeping thread wakes up. -/
  | wake (thread : Thread) (handle : Handle)
  /-- A worker finds the scheduler stopped after the pop, and drops the handle. -/
  | quit (thread : Thread)
  /-- The part of `scheduler::stop` that clears the queue. -/
  | stop (thread : Thread)
  deriving DecidableEq

variable {Thread V Chan : Type}

namespace Frame

/-- A frame nobody has allocated. -/
def unborn : Frame V Chan where
  status := .unborn
  live := false
  void := false
  result := none
  exception := none
  continuation := none
  ended := none
  serial := 0
  resumes := 0

/-- A new frame; `initial_suspend` does not suspend. -/
def created (void : Bool) : Frame V Chan :=
  { (unborn : Frame V Chan) with status := .running, live := true, void := void }

/-- `handle.done()`. -/
def done (frame : Frame V Chan) : Bool :=
  match frame.status with
  | .finished => true
  | .unborn | .running | .suspended _ => false

/-- The coroutine suspends. -/
def suspend (frame : Frame V Chan) (point : Point V Chan) : Frame V Chan :=
  { frame with status := .suspended point, resumes := 0 }

/-- The body ends: the promise is filled and the final suspension reached. -/
def finish (frame : Frame V Chan) : Ending V → Frame V Chan
  | .returnedVoid => { frame with status := .finished, ended := some .returnedVoid }
  | .returned content =>
      { frame with status := .finished, result := some content, ended := some (.returned content) }
  | .raised error =>
      { frame with status := .finished, exception := some error, ended := some (.raised error) }

/-- `await_resume` of the task that owns this frame: what the parent gets, and
the frame afterwards. -/
def awaitResume (frame : Frame V Chan) : Received V × Frame V Chan :=
  match frame.exception with
  | some error => (.ending (.raised error), frame)
  | none =>
      if frame.void then (.ending .returnedVoid, frame)
      else
        match frame.result with
        | some (.task handle) =>
            (.ending (.returned (.task handle)), { frame with result := some (.task none) })
        | some content =>
            (.ending (.returned content), { frame with result := some .movedFrom })
        | none => (.undefined, frame)

end Frame

/-- The last of the writes to a key, or the old content. -/
def latest {A B : Type} [DecidableEq A] (key : A) (writes : List (A × B)) (old : Option B) :
    Option B :=
  writes.foldl (fun current write => if write.1 = key then some write.2 else current) old

/-- What channel effects write into the awaiter of one await. -/
def Status.absorb (status : Status V Chan) (ticket : Option Ticket) (effects : List (Signal V)) :
    Status V Chan :=
  match status with
  | .suspended (.send channel taken) =>
      .suspended (.send channel (taken || (accepts effects).any fun item => item.op = ticket))
  | .suspended (.recv channel value answer) =>
      .suspended (.recv channel
        (latest ticket ((delivers effects).map fun write => (write.1, write.2.value)) value)
        (latest ticket (results effects) answer))
  | other => other

/-- What channel effects write into a frame. -/
def Frame.absorb (frame : Frame V Chan) (handle : Handle) (effects : List (Signal V)) :
    Frame V Chan :=
  { frame with status := frame.status.absorb (some ⟨handle, frame.serial⟩) effects }

/-- Code is on top of the stack: the body of a coroutine, or none at all. -/
def atCode : List (Activity V Chan) → Bool
  | [] => true
  | .body _ :: _ => true
  | _ => false

def initial (capacity : Chan → Nat) : State Thread V Chan where
  frames _ := .unborn
  tasks := []
  channels channel := .new (capacity channel)
  taskQueue := []
  activeTasks := 0
  sleepers := []
  callStacks _ := []
  receipts := []

namespace State

variable (state : State Thread V Chan)

def withFrame (handle : Handle) (frame : Frame V Chan) : State Thread V Chan :=
  { state with frames := Function.update state.frames handle frame }

variable [DecidableEq Thread]

def withStack (thread : Thread) (stack : List (Activity V Chan)) : State Thread V Chan :=
  { state with callStacks := Function.update state.callStacks thread stack }

/-- `await_resume` of the task object `source` in the coroutine `parent`. A task
that is received becomes a new task object. -/
def awaitResume (parent : Handle) (source : Nat) : State Thread V Chan :=
  match state.tasks[source]? with
  | some (some child) =>
      let (received, frame) := (state.frames child).awaitResume
      let arrived := match received with
        | .ending (.returned (.task handle)) => [handle]
        | _ => []
      { state.withFrame child frame with
        tasks := state.tasks ++ arrived
        receipts := state.receipts ++ [⟨parent, some child, received⟩] }
  | _ => { state with receipts := state.receipts ++ [⟨parent, none, .nullHandle⟩] }

/-- `handle.resume()` called by a resume loop. On a coroutine that is not
suspended its behaviour is undefined; the call is counted. -/
def resume (thread : Thread) (handle : Handle) (rest : List (Activity V Chan)) :
    State Thread V Chan :=
  let frame := state.frames handle
  match frame.status with
  | .suspended point =>
      let resumed := state.withFrame handle
        { frame with status := .running, resumes := frame.resumes + 1 }
      let continued := match point with
        | .task source => resumed.awaitResume handle source
        | .yield | .sleep | .send _ _ | .recv _ _ _ => resumed
      continued.withStack thread (.body handle :: .afterResume handle :: rest)
  | .unborn | .running | .finished =>
      (state.withFrame handle { frame with resumes := frame.resumes + 1 }).withStack thread
        (.afterResume handle :: rest)

/-- `handle.destroy()`. The promise destroys the task in its result. -/
def destroy (thread : Thread) (handle : Handle) (rest : List (Activity V Chan)) :
    State Thread V Chan :=
  let frame := state.frames handle
  let nested := match frame.result with
    | some (.task (some inner)) => [.destroying inner]
    | _ => []
  (state.withFrame handle { frame with live := false }).withStack thread (nested ++ rest)

variable [DecidableEq Chan]

/-- A critical section of a channel. The handles it schedules are on the stack
of the calling thread, the awaiters it writes to are in their frames. -/
def calls {R : Type} (thread : Thread) (channel : Chan) (out : Answered V R)
    (rest : List (Activity V Chan)) : State Thread V Chan :=
  { state with
    channels := Function.update state.channels channel out.channel
    frames := fun handle => (state.frames handle).absorb handle out.effects
    callStacks := Function.update state.callStacks thread
      ((schedules out.effects).map .scheduling ++ rest) }

/-- The top activity of a thread, above `rest`. -/
def activity (thread : Thread) (rest : List (Activity V Chan)) :
    Activity V Chan → Option (State Thread V Chan)
  | .body _ => none
  | .popped handle =>
      if (state.frames handle).done then some (state.withStack thread (.completing :: rest))
      else some (state.withStack thread (.resuming handle :: rest))
  | .resuming handle => some (state.resume thread handle rest)
  | .afterResume handle =>
      if (state.frames handle).done then some (state.withStack thread (.completing :: rest))
      else some (state.withStack thread (.scheduling handle :: rest))
  | .scheduling handle =>
      if (state.frames handle).done then some (state.withStack thread rest)
      else some (state.withStack thread (.starting handle :: rest))
  | .starting handle =>
      some ({ state with activeTasks := state.activeTasks + 1 }.withStack thread
        (.enqueuing handle :: rest))
  | .enqueuing handle =>
      some ({ state with taskQueue := state.taskQueue ++ [handle] }.withStack thread rest)
  | .completing =>
      if 0 < state.activeTasks then some (state.withStack thread (.decrementing :: rest))
      else some (state.withStack thread rest)
  | .decrementing =>
      some ({ state with activeTasks := state.activeTasks - 1 }.withStack thread rest)
  | .registeringSend handle channel value =>
      let ticket := some ⟨handle, (state.frames handle).serial⟩
      some (state.calls thread channel
        ((state.channels channel).registerSendWaiter handle ⟨ticket, value⟩) rest)
  | .registeringRecv handle channel =>
      let ticket := some ⟨handle, (state.frames handle).serial⟩
      some (state.calls thread channel
        ((state.channels channel).registerRecvWaiter handle ticket) rest)
  | .flushing channel =>
      some (state.calls thread channel (state.channels channel).closeFlush rest)
  | .destroying handle => some (state.destroy thread handle rest)

/-- An operation of the code on top of a stack, inside a coroutine or not. -/
def code (thread : Thread) : CodeOp V Chan → Option (State Thread V Chan)
  | .create handle void =>
      match (state.frames handle).status with
      | .unborn =>
          some ({ state.withFrame handle (.created void) with
            tasks := state.tasks ++ [some handle] }.withStack thread
              (.body handle :: state.callStacks thread))
      | _ => none
  | .moveTask source =>
      state.tasks[source]?.map fun owned =>
        { state with tasks := state.tasks.set source none ++ [owned] }
  | .assignTask target source =>
      if target = source then some state
      else
        match state.tasks[target]?, state.tasks[source]? with
        | some old, some owned =>
            some ({ state with tasks := (state.tasks.set target owned).set source none }.withStack
              thread (old.toList.map Activity.destroying ++ state.callStacks thread))
        | _, _ => none
  | .dropTask source =>
      state.tasks[source]?.map fun owned =>
        { state with tasks := state.tasks.set source none }.withStack thread
          (owned.toList.map Activity.destroying ++ state.callStacks thread)
  | .runTask source =>
      match state.tasks[source]? with
      | none => none
      | some none => some state
      | some (some handle) =>
          if (state.frames handle).done then
            some ({ state with tasks := state.tasks.set source none }.withStack thread
              (.completing :: .destroying handle :: state.callStacks thread))
          else
            let started := if (state.frames handle).void then 0 else 1
            some ({ state with activeTasks := state.activeTasks + started }.withStack thread
              (.scheduling handle :: state.callStacks thread))
  | .trySend channel value =>
      some (state.calls thread channel ((state.channels channel).trySend ⟨none, value⟩)
        (state.callStacks thread))
  | .trySendMove channel value =>
      some (state.calls thread channel ((state.channels channel).trySendMove ⟨none, value⟩)
        (state.callStacks thread))
  | .tryRecv channel =>
      some (state.calls thread channel ((state.channels channel).tryRecv none none)
        (state.callStacks thread))
  | .close channel =>
      let exchanged := (state.channels channel).closeExchange
      some (state.calls thread channel exchanged
        (if exchanged.result then state.callStacks thread
          else .flushing channel :: state.callStacks thread))

/-- An operation of the body of `handle`, which is on top of `rest`. -/
def bodyOp (thread : Thread) (handle : Handle) (rest : List (Activity V Chan)) :
    BodyOp V Chan → Option (State Thread V Chan)
  | .yield =>
      some ((state.withFrame handle ((state.frames handle).suspend .yield)).withStack thread
        (.scheduling handle :: rest))
  | .sleep =>
      some ({ state.withFrame handle ((state.frames handle).suspend .sleep) with
        sleepers := state.sleepers ++ [handle] }.withStack thread rest)
  | .send channel value =>
      let frame := { state.frames handle with serial := (state.frames handle).serial + 1 }
      let ready := (state.channels channel).trySend ⟨some ⟨handle, frame.serial⟩, value⟩
      if ready.result.1 then
        some ((state.withFrame handle frame).calls thread channel ready (.body handle :: rest))
      else
        some ((state.withFrame handle (frame.suspend (.send channel false))).calls thread channel
          ready (.registeringSend handle channel value :: rest))
  | .recv channel =>
      let frame := { state.frames handle with serial := (state.frames handle).serial + 1 }
      let ready := (state.channels channel).tryRecv (some ⟨handle, frame.serial⟩) none
      if ready.result.1 then
        some ((state.withFrame handle frame).calls thread channel ready (.body handle :: rest))
      else
        some ((state.withFrame handle (frame.suspend (.recv channel none none))).calls thread
          channel ready (.registeringRecv handle channel :: rest))
  | .awaitTask source =>
      match state.tasks[source]? with
      | none => none
      | some none => some (state.awaitResume handle source)
      | some (some child) =>
          if (state.frames child).done then some (state.awaitResume handle source)
          else
            let parked := state.withFrame handle ((state.frames handle).suspend (.task source))
            let stored := parked.withFrame child
              { parked.frames child with continuation := some handle }
            some (stored.withStack thread (.scheduling child :: rest))
  | .returnVoid =>
      if (state.frames handle).void then
        some ((state.withFrame handle ((state.frames handle).finish .returnedVoid)).withStack
          thread rest)
      else none
  | .returnValue value =>
      if (state.frames handle).void then none
      else
        some ((state.withFrame handle
          ((state.frames handle).finish (.returned (.data value)))).withStack thread rest)
  | .returnTask source =>
      if (state.frames handle).void then none
      else
        state.tasks[source]?.map fun owned =>
          { state.withFrame handle ((state.frames handle).finish (.returned (.task owned))) with
            tasks := state.tasks.set source none }.withStack thread rest
  | .raise error =>
      some ((state.withFrame handle ((state.frames handle).finish (.raised error))).withStack
        thread rest)

/-- `scheduler::stop`: the queued coroutines that are not done are destroyed. -/
def clearQueue : State Thread V Chan :=
  { state with
    frames := fun handle =>
      if handle ∈ state.taskQueue ∧ (state.frames handle).done = false then
        { state.frames handle with live := false }
      else state.frames handle
    taskQueue := []
    activeTasks := 0 }

end State

variable [DecidableEq Thread] [DecidableEq Chan]

/-- One step of one thread. -/
def step (state : State Thread V Chan) : Action Thread V Chan → Option (State Thread V Chan)
  | .pop thread =>
      match state.callStacks thread, state.taskQueue with
      | [], handle :: queue =>
          some ({ state with taskQueue := queue }.withStack thread [.popped handle])
      | _, _ => none
  | .proceed thread =>
      match state.callStacks thread with
      | activity :: rest => state.activity thread rest activity
      | [] => none
  | .code thread op => if atCode (state.callStacks thread) then state.code thread op else none
  | .body thread op =>
      match state.callStacks thread with
      | .body handle :: rest => state.bodyOp thread handle rest op
      | _ => none
  | .wake thread handle =>
      match state.callStacks thread with
      | [] =>
          if handle ∈ state.sleepers then
            some ({ state with sleepers := state.sleepers.erase handle }.withStack thread
              [.scheduling handle])
          else none
      | _ :: _ => none
  | .quit thread =>
      match state.callStacks thread with
      | [.popped _] => some (state.withStack thread [])
      | _ => none
  | .stop thread => if atCode (state.callStacks thread) then some state.clearQueue else none

/-- All programs and schedules over channels of the given capacities. -/
def machine (Thread V Chan : Type) [DecidableEq Thread] [DecidableEq Chan]
    (capacity : Chan → Nat) : Machine (State Thread V Chan) (Action Thread V Chan) where
  start := initial capacity
  step := step

end Tang.Runtime
