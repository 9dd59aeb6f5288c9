import Tang.Runtime.Resumption
import Tang.Runtime.Cooperative

/-! # Where a suspended coroutine waits

While the scheduler is not stopped, and no sender finds a parked receiver when
it registers, no wake-up is dropped: a suspended coroutine is in the queue, in a
waiter list, with a sleeping thread, on the stack of a thread, or it awaits a
task. A program that comes to rest therefore waits for its channels, and with
one thread every channel it waits for is full or empty.
-/

namespace Tang.Runtime

open Foundation Effect

variable {Thread V Chan : Type}

/-! ## Suspensions that a wake-up ends -/

/-- The coroutine is suspended, and not in an await of a task. -/
def Frame.pending (frame : Frame V Chan) : Bool :=
  match frame.status with
  | .suspended .yield | .suspended .sleep => true
  | .suspended (.send _ _) | .suspended (.recv _ _ _) => true
  | .suspended (.task _) => false
  | .unborn | .running | .finished => false

namespace Frame

variable {frame : Frame V Chan}

/-- Suspended coroutines are pending, or await a task. -/
theorem pending_or_awaits (hsuspended : frame.suspended = true) :
    frame.pending = true ∨ ∃ source, frame.status = .suspended (.task source) := by
  unfold suspended at hsuspended
  unfold pending
  split at hsuspended
  next point hstatus =>
    cases point with
    | task source => exact Or.inr ⟨source, hstatus⟩
    | yield | sleep | send | recv => simp [hstatus]
  all_goals cases hsuspended

theorem not_pending_of_done (hdone : frame.done = true) : frame.pending = false := by
  unfold done at hdone
  unfold pending
  split at hdone <;> simp_all

@[simp] theorem pending_absorb (handle : Handle) (effects : List (Signal V)) :
    (frame.absorb handle effects).pending = frame.pending := by
  cases hstatus : frame.status with
  | suspended point =>
      cases point <;> simp [Frame.absorb, pending, Status.absorb, hstatus]
  | _ => simp [Frame.absorb, pending, Status.absorb, hstatus]

end Frame

theorem State.pending_awaitResume (state : State Thread V Chan) (parent : Handle) (source : Nat)
    (handle : Handle) :
    ((state.awaitResume parent source).frames handle).pending =
      (state.frames handle).pending := by
  obtain ⟨result, hframe⟩ := state.awaitResume_frame parent source handle
  rw [hframe]
  rfl

theorem State.pending_withFrame {state : State Thread V Chan} {focus : Handle}
    {frame : Frame V Chan} (hframe : frame.pending = (state.frames focus).pending)
    (handle : Handle) :
    ((state.withFrame focus frame).frames handle).pending = (state.frames handle).pending := by
  by_cases heq : handle = focus
  · subst heq
    simpa [State.withFrame] using hframe
  · simp [State.withFrame, heq]

/-! ## Nobody is forgotten -/

variable [Fintype Thread] [Fintype Chan]

/-- A suspension that a wake-up has to end has one. -/
def AttendedAt (state : State Thread V Chan) (handle : Handle) : Prop :=
  (state.frames handle).pending = true → 0 < wakeups state handle

section Accounts

variable {state next : State Thread V Chan} {handle : Handle}

theorem AttendedAt.of_le (hold : AttendedAt state handle)
    (hframe : (next.frames handle).pending = true → (state.frames handle).pending = true)
    (hle : wakeups state handle ≤ wakeups next handle) : AttendedAt next handle :=
  fun hpending => Nat.lt_of_lt_of_le (hold (hframe hpending)) hle

theorem attendedAt_of_not_pending (hframe : (state.frames handle).pending = false) :
    AttendedAt state handle := fun hpending => by
  rw [hframe] at hpending
  cases hpending

variable [DecidableEq Thread] {thread : Thread} {focus : Handle}

/-- A thread passes on the wake-ups it holds. -/
theorem AttendedAt.swap {base : State Thread V Chan} {stack : List (Activity V Chan)}
    (hold : AttendedAt state handle)
    (hframe : (base.frames handle).pending = true → (state.frames handle).pending = true)
    (hchannels : base.channels = state.channels) (hstacks : base.callStacks = state.callStacks)
    (hwakeups : state.taskQueue.count handle + state.sleepers.count handle +
        held handle (state.callStacks thread) ≤
      base.taskQueue.count handle + base.sleepers.count handle + held handle stack) :
    AttendedAt (base.withStack thread stack) handle := by
  have hswap := wakeups_swap handle thread stack hchannels hstacks
  exact hold.of_le hframe (by omega)

/-- The coroutine `focus` needs no wake-up any more. -/
theorem AttendedAt.settles {base : State Thread V Chan} {stack : List (Activity V Chan)}
    (hold : AttendedAt state handle) (focus : Handle)
    (hfocus : (base.frames focus).pending = false)
    (hothers : handle ≠ focus → (base.frames handle).pending = (state.frames handle).pending)
    (hchannels : base.channels = state.channels) (hstacks : base.callStacks = state.callStacks)
    (hwakeups : handle ≠ focus → state.taskQueue.count handle + state.sleepers.count handle +
        held handle (state.callStacks thread) ≤
      base.taskQueue.count handle + base.sleepers.count handle + held handle stack) :
    AttendedAt (base.withStack thread stack) handle := by
  by_cases heq : handle = focus
  · subst heq
    exact attendedAt_of_not_pending hfocus
  · exact hold.swap (fun hpending => hothers heq ▸ hpending) hchannels hstacks (hwakeups heq)

/-- The body of `focus` suspends, and leaves a wake-up behind. -/
theorem AttendedAt.suspends {base : State Thread V Chan} {stack rest : List (Activity V Chan)}
    (hold : AttendedAt state handle) (hstack : state.callStacks thread = .body focus :: rest)
    (hothers : handle ≠ focus → base.frames handle = state.frames handle)
    (hchannels : base.channels = state.channels) (hstacks : base.callStacks = state.callStacks)
    (hwakeups : base.taskQueue.count handle + base.sleepers.count handle + held handle stack =
      state.taskQueue.count handle + state.sleepers.count handle + held handle rest +
        [focus].count handle) :
    AttendedAt (base.withStack thread stack) handle := by
  have hswap := wakeups_swap handle thread stack hchannels hstacks
  rw [hstack, held_cons] at hswap
  simp only [Activity.wakes?, Option.toList_none, List.count_nil, Nat.zero_add] at hswap
  by_cases heq : handle = focus
  · subst handle
    rw [List.count_singleton_self] at hwakeups
    intro _
    omega
  · refine hold.of_le (fun hpending => ?_) (by omega)
    rwa [← hothers heq]

variable [DecidableEq Chan] {R : Type} {channel : Chan} {out : Answered V R}
  {rest : List (Activity V Chan)}

/-- A critical section schedules whom it no longer stores. -/
theorem AttendedAt.calls {registered : List Handle} (hold : AttendedAt state handle)
    (hkeeps : out.KeepsHandles (state.channels channel) registered)
    (hheld : held handle (state.callStacks thread) ≤
      registered.count handle + held handle rest) :
    AttendedAt (state.calls thread channel out rest) handle := by
  have hwakeups := wakeups_calls handle thread rest hkeeps
  refine hold.of_le (fun hpending => ?_) (by omega)
  simpa [State.calls] using hpending

end Accounts

section Step

variable [DecidableEq Thread] [DecidableEq Chan] {state next : State Thread V Chan}
  {action : Action Thread V Chan} {thread : Thread} {focus handle : Handle}
  {rest : List (Activity V Chan)}

/-- The scheduler is not stopped, and a sender that registers finds no parked
receiver, or the channel closed. -/
def Attends (state : State Thread V Chan) : Action Thread V Chan → Prop
  | .quit _ | .stop _ => False
  | .proceed thread =>
      match state.callStacks thread with
      | .registeringSend _ channel _ :: _ =>
          (state.channels channel).closed = true ∨ (state.channels channel).recvWaiters = []
      | _ => True
  | .pop _ | .code _ _ | .body _ _ | .wake _ _ => True

instance : Decidable (Attends state action) := by
  unfold Attends
  split
  · infer_instance
  · infer_instance
  · split <;> infer_instance
  all_goals infer_instance

omit [Fintype Thread] [Fintype Chan] in
/-- A thread drops the wake-ups of finished coroutines only. -/
theorem done_of_dropped {activity : Activity V Chan} {after : List (Activity V Chan)}
    {active : Int} (hstack : state.callStacks thread = activity :: rest)
    (hafter : Follows activity after)
    (hstep : step state (.proceed thread) =
      some ({ state with activeTasks := active }.withStack thread (after ++ rest)))
    (hdrop : held handle after < held handle [activity]) :
    (state.frames handle).done = true := by
  simp only [step, hstack] at hstep
  cases hafter with
  | poppedDone other | scheduledDone other =>
      obtain rfl : other = handle := by
        by_contra hne
        simp [hne] at hdrop
      by_contra hdone
      rw [State.activity, if_neg hdone] at hstep
      have hstacks := congrFun (congrArg State.callStacks (Option.some.inj hstep)) thread
      simp [State.withStack] at hstacks
  | popped | ranDone | scheduled | started | completes | completesNone | decremented =>
      simp at hdrop

omit [DecidableEq Chan] in
/-- A coroutine that was resumed runs, and the others wait as before. -/
theorem AttendedAt.resume (hold : AttendedAt state handle)
    (hstack : state.callStacks thread = .resuming focus :: rest) :
    AttendedAt (state.resume thread focus rest) handle := by
  have hheld : handle ≠ focus → held handle (state.callStacks thread) = held handle rest := by
    intro hne
    simp [hstack, Ne.symm hne]
  rcases state.resume_cases thread focus rest with
    ⟨point, _, _, hnext⟩ | ⟨source, _, hnext⟩ | ⟨hnever, hnext⟩
  · rw [hnext]
    refine hold.settles focus ?_ (fun hne => ?_) rfl rfl fun hne => ?_
    · simp [State.withFrame, Frame.wake, Frame.pending]
    · simp [State.withFrame, hne]
    · simp [hheld hne, State.withFrame]
  · rw [hnext]
    obtain ⟨hstacks, hchannels, hqueue, hsleepers⟩ :=
      (state.withFrame focus (state.frames focus).wake).awaitResume_eq focus source
    refine hold.settles focus ?_ (fun hne => ?_) hchannels hstacks fun hne => ?_
    · rw [State.pending_awaitResume]
      simp [State.withFrame, Frame.wake, Frame.pending]
    · rw [State.pending_awaitResume]
      simp [State.withFrame, hne]
    · rw [hqueue, hsleepers]
      simp [hheld hne, State.withFrame]
  · rw [hnext]
    refine hold.settles focus ?_ (fun hne => ?_) rfl rfl fun hne => ?_
    · cases hstatus : (state.frames focus).status with
      | suspended point => exact absurd hstatus (hnever point)
      | unborn | running | finished => simp [State.withFrame, Frame.pending, hstatus]
    · simp [State.withFrame, hne]
    · simp [hheld hne, State.withFrame]

theorem Moves.attendedAt (hmoves : Moves state action next) (hattends : Attends state action)
    (hstep : step state action = some next) (hold : AttendedAt state handle) :
    AttendedAt next handle := by
  cases hmoves with
  | follows thread activity rest after active hstack hafter =>
      by_cases hdrop : held handle after < held handle [activity]
      · have hdone := done_of_dropped hstack hafter hstep hdrop
        exact attendedAt_of_not_pending (Frame.not_pending_of_done hdone)
      · refine hold.swap id rfl rfl ?_
        simp only [hstack, held_cons, held_append, held_nil] at hdrop ⊢
        omega
  | reschedules thread focus rest hstack _ =>
      exact hold.swap id rfl rfl (by simp [hstack])
  | resumes thread focus rest hstack => exact hold.resume hstack
  | enqueues thread focus rest hstack =>
      refine hold.swap id rfl rfl ?_
      simp only [hstack, held_cons, List.count_append, Activity.wakes?, Option.toList_some]
      omega
  | destroys thread focus rest hstack =>
      refine hold.swap (fun hpending => ?_) rfl rfl ?_
      · rwa [State.pending_withFrame] at hpending
        rfl
      · simp only [hstack]
        split <;> simp [State.withFrame]
  | registersSend thread focus channel value rest hstack =>
      have hreceivers : (state.channels channel).closed = false →
          (state.channels channel).recvWaiters = [] := by
        intro hopen
        simpa [Attends, hstack, hopen] using hattends
      exact hold.calls ((state.channels channel).registerSendWaiter_keepsHandles focus _ hreceivers)
        (by simp [hstack])
  | registersRecv thread focus channel rest hstack =>
      exact hold.calls ((state.channels channel).registerRecvWaiter_keepsHandles focus _)
        (by simp [hstack])
  | flushes thread channel rest hstack =>
      exact hold.calls (state.channels channel).closeFlush_keepsHandles (by simp [hstack])
  | pops thread focus queue hstack hqueue =>
      refine hold.swap id rfl rfl ?_
      simp [hstack, hqueue, List.count_cons]
      omega
  | wakes thread focus hstack hsleeping =>
      have hcount := (List.perm_cons_erase hsleeping).count_eq handle
      refine hold.swap id rfl rfl ?_
      simp only [hstack, held_cons, held_nil, Activity.wakes?, Option.toList_some,
        List.count_cons, List.count_nil] at hcount ⊢
      omega
  | quits | stops => exact hattends.elim
  | creates thread focus void hcode hunborn =>
      refine hold.settles focus ?_ (fun hne => ?_) rfl rfl fun hne => ?_
      · simp [State.withFrame, Frame.created, Frame.pending]
      · simp [State.withFrame, hne]
      · simp [State.withFrame]
  | handles thread op tasks above hcode habove hready =>
      exact hold.swap id rfl rfl (by simp)
  | runs thread source focus active hcode htask hdone =>
      exact hold.swap id rfl rfl (by simp)
  | trySend thread op channel value used hcode hop =>
      exact hold.calls ((state.channels channel).trySendWith_keepsHandles _ used) (by simp)
  | tryRecv thread channel hcode =>
      exact hold.calls ((state.channels channel).tryRecv_keepsHandles none none) (by simp)
  | exchanges thread channel hcode above habove =>
      exact hold.calls (state.channels channel).closeExchange_keepsHandles (by simp)
  | yields _ _ _ hstack | sleeps _ _ _ hstack | parksSender _ _ _ _ _ _ hstack
  | parksReceiver _ _ _ _ _ hstack =>
      refine hold.suspends hstack (fun hne => by simp [State.withFrame, hne]) rfl rfl ?_
      simp [State.withFrame]
      omega
  | sends thread focus channel value frame rest hstack hframe =>
      have hbase : AttendedAt (state.withFrame focus frame) handle := by
        refine hold.of_le (fun hpending => ?_) le_rfl
        rwa [State.pending_withFrame] at hpending
        rw [hframe]
        rfl
      have hsame : (state.withFrame focus frame).callStacks thread = .body focus :: rest := hstack
      exact hbase.calls ((state.channels channel).trySendWith_keepsHandles _ _) (by simp [hsame])
  | receives thread focus channel frame rest hstack hframe =>
      have hbase : AttendedAt (state.withFrame focus frame) handle := by
        refine hold.of_le (fun hpending => ?_) le_rfl
        rwa [State.pending_withFrame] at hpending
        rw [hframe]
        rfl
      have hsame : (state.withFrame focus frame).callStacks thread = .body focus :: rest := hstack
      exact hbase.calls ((state.channels channel).tryRecv_keepsHandles _ none) (by simp [hsame])
  | awaits thread focus child source rest hstack htask hdone parked hparked =>
      subst hparked
      -- the parent waits for no wake-up: the promise of the child stores its handle
      let waiting := state.withFrame focus ((state.frames focus).suspend (.task source))
      have hchild : ∀ handle, ((waiting.withFrame child { waiting.frames child with
          continuation := some focus }).frames handle).pending =
            (waiting.frames handle).pending := State.pending_withFrame rfl
      refine hold.settles focus ?_ (fun hne => ?_) rfl rfl fun hne => ?_
      · rw [hchild]
        simp [waiting, State.withFrame, Frame.suspend, Frame.pending]
      · rw [hchild]
        simp [waiting, State.withFrame, hne]
      · simp [hstack, State.withFrame]
  | continues thread focus source rest hstack hready =>
      obtain ⟨hstacks, hchannels, hqueue, hsleepers⟩ := state.awaitResume_eq focus source
      refine hold.of_le (fun hpending => ?_) ?_
      · rwa [State.pending_awaitResume] at hpending
      · simp only [wakeups, hstacks, hchannels, hqueue, hsleepers]
        exact le_rfl
  | finishes thread focus op rest ending tasks hstack hop hvoid hvalue =>
      refine hold.settles focus ?_ (fun hne => ?_) rfl rfl fun hne => ?_
      · cases ending <;> simp [State.withFrame, Frame.finish, Frame.pending]
      · simp [State.withFrame, hne]
      · simp [hstack, State.withFrame]

omit [DecidableEq Thread] [DecidableEq Chan] in
theorem attendedAt_initial (capacity : Chan → Nat) (handle : Handle) :
    AttendedAt (initial capacity : State Thread V Chan) handle :=
  attendedAt_of_not_pending rfl

omit [DecidableEq Thread] [DecidableEq Chan] in
/-- Where the wake-ups of a coroutine can be. -/
theorem exists_of_wakeups_pos (hpos : 0 < wakeups state handle) :
    handle ∈ state.taskQueue ∨ handle ∈ state.sleepers ∨
      (∃ channel, 0 < (state.channels channel).stored handle) ∨
        ∃ thread, ∃ activity ∈ state.callStacks thread, activity.wakes? = some handle := by
  by_contra hnowhere
  push Not at hnowhere
  obtain ⟨hqueue, hsleepers, hwaiters, hthreads⟩ := hnowhere
  have hstacks : ∀ thread, held handle (state.callStacks thread) = 0 := by
    intro thread
    refine List.count_eq_zero.mpr fun hmem => ?_
    obtain ⟨activity, hactivity, hwakes⟩ := List.mem_filterMap.mp hmem
    exact hthreads thread activity hactivity hwakes
  have hchannels : total (fun channel => channel.stored handle) state.channels = 0 :=
    total_eq_zero fun channel => Nat.le_zero.mp (hwaiters channel)
  simp only [wakeups, List.count_eq_zero.mpr hqueue, List.count_eq_zero.mpr hsleepers, hchannels,
    total_eq_zero hstacks] at hpos
  exact absurd hpos (by decide)

end Step

/-- A suspended coroutine is in the queue, with a sleeping thread, in a waiter
list, or on the stack of a thread that will schedule, register or resume it, or
it awaits a task. -/
def NobodyForgotten (state : State Thread V Chan) : Prop :=
  ∀ handle, (state.frames handle).suspended = true →
    (handle ∈ state.taskQueue ∨ handle ∈ state.sleepers ∨
      (∃ channel, 0 < (state.channels channel).stored handle) ∨
        ∃ thread, ∃ activity ∈ state.callStacks thread, activity.wakes? = some handle) ∨
      ∃ source, (state.frames handle).status = .suspended (.task source)

theorem NobodyForgotten.of_attendedAt {state : State Thread V Chan}
    (hattended : ∀ handle, AttendedAt state handle) : NobodyForgotten state := by
  intro handle hsuspended
  rcases Frame.pending_or_awaits hsuspended with hpending | hawaits
  · exact Or.inl (exists_of_wakeups_pos (hattended handle hpending))
  · exact Or.inr hawaits

variable [DecidableEq Thread] [DecidableEq Chan]

/-- Nothing is left to run: no coroutine is queued or asleep, and no thread is in
the middle of anything. -/
structure AtRest (state : State Thread V Chan) : Prop where
  queue : state.taskQueue = []
  sleepers : state.sleepers = []
  threads : ∀ thread, state.callStacks thread = []

/-- Whoever is parked at the channel waits for something that is not there. -/
structure Blocked (conduit : Conduit V) : Prop where
  senders : conduit.sendWaiters ≠ [] →
    conduit.closed = false ∧ conduit.capacity ≤ conduit.buffer.length ∧ conduit.recvWaiters = []
  receivers : conduit.recvWaiters ≠ [] →
    conduit.closed = false ∧ conduit.buffer = [] ∧ conduit.sendWaiters = []

omit [Fintype Thread] [Fintype Chan] [DecidableEq Thread] [DecidableEq Chan] in
/-- A channel that is one queue keeps nobody waiting without need. -/
theorem blocked_toChannel (fifo : Fifo Handle (Option Ticket) (Item (Option Ticket) V)) :
    Blocked fifo.toChannel := by
  constructor
  · intro hsenders
    have hparked : fifo.queue.drop fifo.capacity ≠ [] := by
      intro hnone
      exact hsenders (by simp [Fifo.toChannel, hnone])
    have hlong : fifo.capacity < fifo.queue.length := by simpa using hparked
    refine ⟨?_, fifo.toChannel_full.mpr hlong.le, ?_⟩
    · by_contra hclosed
      exact absurd (fifo.shut (by simpa using hclosed)).1 (by omega)
    · by_contra hreceivers
      have hempty : fifo.queue = [] := fifo.starved hreceivers
      simp [hempty] at hlong
  · intro hreceivers
    have hempty : fifo.queue = [] := fifo.starved hreceivers
    refine ⟨?_, by simp [Fifo.toChannel, hempty], by simp [Fifo.toChannel, hempty]⟩
    by_contra hclosed
    exact hreceivers (fifo.shut (by simpa using hclosed)).2

section OneThread

variable {capacity : Chan → Nat} {main thread : Thread} {state next : State Thread V Chan}
  {action : Action Thread V Chan}

/-- The state of a program whose steps one thread takes. -/
structure Sole (capacity : Chan → Nat) (main : Thread) (state : State Thread V Chan) : Prop where
  alone : ∀ channel, Alone channel main state
  queues : ∀ channel, ∃ talk fifo, Queues (capacity channel) channel (state, talk) fifo
  attended : ∀ handle, AttendedAt state handle

omit [Fintype Thread] [Fintype Chan] in
/-- A sender registers right after its attempt has failed, so it finds no
receiver. -/
theorem Queues.attends {room : Nat} {channel : Chan} {handle : Handle} {value : V} {talk : Talk V}
    {rest : List (Activity V Chan)}
    {fifo : Fifo Handle (Option Ticket) (Item (Option Ticket) V)}
    (hqueues : Queues room channel (state, talk) fifo)
    (hstack : state.callStacks thread = .registeringSend handle channel value :: rest)
    (hstep : (machine Thread V Chan capacity).step state (.proceed thread) = some next) :
    (state.channels channel).closed = true ∨ (state.channels channel).recvWaiters = [] := by
  have hsteps : Steps channel state next (Action.access channel state (.proceed thread)) :=
    steps_of_step hstep
  have htouches := hsteps.touches
  have haccess : Action.access channel state (.proceed thread) =
      some (.registerSend handle ⟨some ⟨handle, (state.frames handle).serial⟩, value⟩) := by
    simp [Action.access, Activity.access, hstack]
  rw [haccess] at htouches
  cases htouches with
  | attempts _ hattempts => exact hattempts.elim
  | registersSend _ _ _ place hloses =>
      obtain ⟨⟨_, hblocked⟩, _⟩ := hqueues.pending hloses
      exact hblocked.imp_right And.left

theorem Sole.attends (hsole : Sole capacity main state)
    (hrunning : ∀ thread, action ≠ .quit thread ∧ action ≠ .stop thread)
    (hstep : (machine Thread V Chan capacity).step state action = some next) :
    Attends state action := by
  cases action with
  | quit thread => exact (hrunning thread).1 rfl
  | stop thread => exact (hrunning thread).2 rfl
  | pop | code | body | wake => trivial
  | proceed thread =>
      simp only [Attends]
      split
      next handle room value rest hstack =>
        obtain ⟨talk, fifo, hqueues⟩ := hsole.queues room
        exact hqueues.attends hstack hstep
      next => trivial

theorem Sole.step (hsole : Sole capacity main state) (hmain : action.thread = main)
    (hrunning : ∀ thread, action ≠ .quit thread ∧ action ≠ .stop thread)
    (hstep : (machine Thread V Chan capacity).step state action = some next) :
    Sole capacity main next := by
  have hmoves : Moves state action next := moves_of_step hstep
  have hattends : Attends state action := hsole.attends hrunning hstep
  refine ⟨fun channel => hmoves.alone hmain (hsole.alone channel), fun channel => ?_,
    fun handle => hmoves.attendedAt hattends hstep (hsole.attended handle)⟩
  obtain ⟨talk, fifo, hqueues⟩ := hsole.queues channel
  have hundivided : Undivided channel (state, talk) action :=
    (hsole.alone channel).undivided hmain hstep
  have hrecorded : (conversing Thread V Chan capacity channel).step (state, talk) action =
      some (next, talk.hear (state.channels channel) (action.access channel state)) := by
    change ((machine Thread V Chan capacity).step state action).map _ = _
    rw [hstep]
    rfl
  obtain ⟨fifo', hafter⟩ := hqueues.step hundivided hrecorded
  exact ⟨_, fifo', hafter⟩

omit [Fintype Thread] [Fintype Chan] in
/-- At rest nothing is pending on a channel, so it is its queue. -/
theorem AtRest.blocked (hrest : AtRest state) {channel : Chan} {talk : Talk V}
    {fifo : Fifo Handle (Option Ticket) (Item (Option Ticket) V)} {room : Nat}
    (hqueues : Queues room channel (state, talk) fifo) : Blocked (state.channels channel) := by
  have hsettled : ∀ thread, Settled channel (state.callStacks thread) := by
    intro thread
    rw [hrest.threads thread]
    exact settled_nil
  rw [(hqueues.idle hsettled).1]
  exact blocked_toChannel fifo

omit [Fintype Thread] [Fintype Chan] [DecidableEq Thread] [DecidableEq Chan] in
/-- At rest the only wake-ups are with the channels. -/
theorem AtRest.parked_or_awaits (hrest : AtRest state) (hattended : NobodyForgotten state)
    {handle : Handle} (hsuspended : (state.frames handle).suspended = true) :
    (∃ channel, 0 < (state.channels channel).stored handle) ∨
      ∃ source, (state.frames handle).status = .suspended (.task source) := by
  rcases hattended handle hsuspended with (hqueue | hsleeper | hparked | hthread) | hawaits
  · simp [hrest.queue] at hqueue
  · simp [hrest.sleepers] at hsleeper
  · exact Or.inl hparked
  · obtain ⟨thread, activity, hactivity, _⟩ := hthread
    simp [hrest.threads thread] at hactivity
  · exact Or.inr hawaits

/-- At rest every suspended coroutine is parked at a channel or awaits a task,
and whoever is parked at a channel finds it open, and full or empty, with nobody
waiting on the other side. -/
def RestsBlocked (state : State Thread V Chan) : Prop :=
  AtRest state →
    (∀ handle, (state.frames handle).suspended = true →
      (∃ channel, 0 < (state.channels channel).stored handle) ∨
        ∃ source, (state.frames handle).status = .suspended (.task source)) ∧
    ∀ channel, Blocked (state.channels channel)

end OneThread

end Tang.Runtime
