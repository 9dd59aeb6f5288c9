import Tang.Channel.Conservation
import Tang.Runtime.Execution

/-! # One wake-up for one suspension

A suspended coroutine is woken by whoever holds its handle: the queue, a waiter
list, a sleeping thread, or a thread that is scheduling or resuming it. Yields,
channels and sleeping threads pass one such wake-up on and never copy it. The
resume loop, `co_await` of a task and `task::run` schedule a coroutine without
holding its wake-up, so everything depends on the coroutine being idle there.
-/

namespace Tang.Runtime

open Foundation Effect

variable {Thread V Chan : Type}

/-! ## Wake-ups -/

/-- The coroutine whose wake-up the activity holds. -/
@[simp] def Activity.wakes? : Activity V Chan → Option Handle
  | .popped handle | .resuming handle => some handle
  | .scheduling handle | .starting handle | .enqueuing handle => some handle
  | .registeringSend handle _ _ | .registeringRecv handle _ => some handle
  | .body _ | .afterResume _ | .completing | .decrementing | .flushing _ | .destroying _ => none

/-- The wake-ups of a coroutine on one stack. -/
def held (handle : Handle) (stack : List (Activity V Chan)) : Nat :=
  (stack.filterMap Activity.wakes?).count handle

@[simp] theorem held_nil (handle : Handle) : held handle ([] : List (Activity V Chan)) = 0 := rfl

@[simp] theorem held_cons (handle : Handle) (activity : Activity V Chan)
    (stack : List (Activity V Chan)) :
    held handle (activity :: stack) = activity.wakes?.toList.count handle + held handle stack := by
  simp only [held, List.filterMap_eq_flatMap_toList, List.flatMap_cons, List.count_append]

@[simp] theorem held_append (handle : Handle) (above below : List (Activity V Chan)) :
    held handle (above ++ below) = held handle above + held handle below := by
  simp [held]

@[simp] theorem held_map_scheduling (handle : Handle) (handles : List Handle) :
    held handle (handles.map (Activity.scheduling : Handle → Activity V Chan)) =
      handles.count handle := by
  simp [held, List.filterMap_map, Function.comp_def]

theorem held_of_destroysOnly {activities : List (Activity V Chan)}
    (hdestroys : DestroysOnly activities) (handle : Handle) : held handle activities = 0 := by
  refine List.count_eq_zero.mpr fun hmem => ?_
  obtain ⟨activity, hactivity, hwakes⟩ := List.mem_filterMap.mp hmem
  rcases hdestroys activity hactivity with rfl | ⟨_, rfl⟩ <;> cases hwakes

/-- An activity is replaced by one with the same wake-up, or drops it. -/
theorem Follows.held_le {activity : Activity V Chan} {after : List (Activity V Chan)}
    (hfollows : Follows activity after) (handle : Handle) :
    held handle after ≤ held handle [activity] := by
  cases hfollows <;> simp

theorem Frame.finish_eq (frame : Frame V Chan) (ending : Ending V) :
    (frame.finish ending).suspended = false ∧ (frame.finish ending).resumes = frame.resumes := by
  cases ending <;> exact ⟨rfl, rfl⟩

variable [Fintype Thread] [Fintype Chan]

/-- All wake-ups of a coroutine. -/
def wakeups (state : State Thread V Chan) (handle : Handle) : Nat :=
  state.taskQueue.count handle + state.sleepers.count handle +
    total (fun channel => channel.stored handle) state.channels +
    total (held handle) state.callStacks

/-- A coroutine has at most one wake-up, and only while it is suspended; and it
was resumed once at most since it was last suspended. -/
structure SingleAt (state : State Thread V Chan) (handle : Handle) : Prop where
  woken : wakeups state handle ≤ if (state.frames handle).suspended then 1 else 0
  resumed : (state.frames handle).resumes ≤ if (state.frames handle).suspended then 0 else 1

theorem SingleAt.of_alike {state next : State Thread V Chan} {handle : Handle}
    (hsingle : SingleAt state handle)
    (hframe : (state.frames handle).Alike (next.frames handle))
    (hwakeups : wakeups next handle ≤ wakeups state handle) :
    SingleAt next handle := by
  obtain ⟨hsuspended, _, hresumes⟩ := hframe
  refine ⟨?_, ?_⟩
  · rw [hsuspended]
    exact hwakeups.trans hsingle.woken
  · rw [hsuspended, hresumes]
    exact hsingle.resumed

/-! ## Accounting for wake-ups -/

section Accounts

variable {state : State Thread V Chan} (handle : Handle) (thread : Thread)

theorem held_le_wakeups : held handle (state.callStacks thread) ≤ wakeups state handle :=
  (le_total (held handle) state.callStacks thread).trans (Nat.le_add_left _ _)

variable [DecidableEq Thread]

/-- Replacing one stack, the queue and the sleepers trades their wake-ups. -/
theorem wakeups_swap {base : State Thread V Chan} (stack : List (Activity V Chan))
    (hchannels : base.channels = state.channels) (hstacks : base.callStacks = state.callStacks) :
    wakeups (base.withStack thread stack) handle + (state.taskQueue.count handle +
        state.sleepers.count handle + held handle (state.callStacks thread)) =
      wakeups state handle + (base.taskQueue.count handle + base.sleepers.count handle +
        held handle stack) := by
  have htotal := total_update (held handle) state.callStacks thread stack
  simp only [wakeups, State.withStack, hchannels, hstacks]
  omega

variable {handle thread} in
/-- A thread that passes on the wake-ups it holds keeps a coroutine single. -/
theorem SingleAt.swap {base : State Thread V Chan} {stack : List (Activity V Chan)}
    (hsingle : SingleAt state handle)
    (hframe : (state.frames handle).Alike (base.frames handle))
    (hchannels : base.channels = state.channels) (hstacks : base.callStacks = state.callStacks)
    (hwakeups : base.taskQueue.count handle + base.sleepers.count handle + held handle stack ≤
      state.taskQueue.count handle + state.sleepers.count handle +
        held handle (state.callStacks thread)) :
    SingleAt (base.withStack thread stack) handle := by
  have hswap := wakeups_swap handle thread stack hchannels hstacks
  exact hsingle.of_alike hframe (by omega)

omit [DecidableEq Thread] in
variable {handle} in
/-- A running coroutine has no wake-up. -/
theorem SingleAt.of_running (hsingle : SingleAt state handle)
    (hrunning : (state.frames handle).running = true) : wakeups state handle = 0 := by
  have hwoken := hsingle.woken
  rw [(state.frames handle).suspended_of_running hrunning] at hwoken
  exact Nat.le_zero.mp hwoken

variable {thread} in
/-- The body of a coroutine leaves a stack. -/
theorem SingleAt.leaves {base : State Thread V Chan} {focus : Handle}
    {stack rest : List (Activity V Chan)} (hfree : wakeups state focus = 0)
    (hstack : state.callStacks thread = .body focus :: rest)
    (hresumed : (base.frames focus).resumes ≤ if (base.frames focus).suspended then 0 else 1)
    (hchannels : base.channels = state.channels) (hstacks : base.callStacks = state.callStacks)
    (hwakeups : base.taskQueue.count focus + base.sleepers.count focus + held focus stack ≤
      state.taskQueue.count focus + state.sleepers.count focus + held focus rest +
        if (base.frames focus).suspended then 1 else 0) :
    SingleAt (base.withStack thread stack) focus := by
  have hswap := wakeups_swap focus thread stack hchannels hstacks
  simp only [hstack, held_cons, Activity.wakes?, Option.toList_none, List.count_nil] at hswap
  refine ⟨?_, hresumed⟩
  change _ ≤ if (base.frames focus).suspended then 1 else 0
  omega

variable {thread} in
/-- The body of `focus` leaves a stack, and its coroutine suspends with one
wake-up. -/
theorem SingleAt.suspends {base : State Thread V Chan} {focus : Handle}
    {stack rest : List (Activity V Chan)} (hsingle : ∀ other, SingleAt state other)
    (hruns : RunsOnce state focus) (hstack : state.callStacks thread = .body focus :: rest)
    (hfocus : (base.frames focus).suspended = true ∧ (base.frames focus).resumes = 0)
    (hothers : ∀ other, other ≠ focus → (state.frames other).Alike (base.frames other))
    (hchannels : base.channels = state.channels) (hstacks : base.callStacks = state.callStacks)
    (hwakeups : ∀ other, base.taskQueue.count other + base.sleepers.count other +
        held other stack = state.taskQueue.count other + state.sleepers.count other +
      held other rest + [focus].count other) :
    SingleAt (base.withStack thread stack) handle := by
  have hcount := hwakeups handle
  by_cases heq : handle = focus
  · subst handle
    have hfree := (hsingle focus).of_running (hruns.of_body hstack).1
    obtain ⟨hsuspended, hresumes⟩ := hfocus
    rw [List.count_singleton_self] at hcount
    refine SingleAt.leaves hfree hstack ?_ hchannels hstacks ?_
    · rw [hresumes]
      exact Nat.zero_le _
    · rw [if_pos hsuspended]
      exact hcount.le
  · have hzero : [focus].count handle = 0 := by simp [Ne.symm heq]
    apply SingleAt.swap (hsingle handle) (hothers handle heq) hchannels hstacks
    rw [hstack, held_cons]
    omega

variable [DecidableEq Chan] {R : Type} {channel : Chan} {out : Answered V R}
  (rest : List (Activity V Chan))

/-- A critical section turns stored handles into handles to schedule. -/
theorem wakeups_calls {registered : List Handle}
    (hkeeps : out.KeepsHandles (state.channels channel) registered) :
    wakeups (state.calls thread channel out rest) handle + held handle (state.callStacks thread) =
      wakeups state handle + registered.count handle + held handle rest := by
  have hstacks := total_update (held handle) state.callStacks thread
    ((schedules out.effects).map .scheduling ++ rest)
  have hchannels := total_update (fun channel => channel.stored handle) state.channels channel
    out.channel
  have hbalance := hkeeps handle
  simp only [held_append, held_map_scheduling] at hstacks
  simp only [wakeups, State.calls]
  omega

variable {handle thread rest}

/-- A critical section that keeps the wake-ups keeps a coroutine single. -/
theorem SingleAt.calls {registered : List Handle} (hsingle : SingleAt state handle)
    (hkeeps : out.KeepsHandles (state.channels channel) registered)
    (hheld : registered.count handle + held handle rest ≤ held handle (state.callStacks thread)) :
    SingleAt (state.calls thread channel out rest) handle := by
  have hwakeups := wakeups_calls handle thread rest hkeeps
  exact hsingle.of_alike (Frame.alike_absorb _ handle out.effects) (by omega)

end Accounts

/-! ## One step -/

section Step

variable [DecidableEq Thread] [DecidableEq Chan] {state next : State Thread V Chan}
  {action : Action Thread V Chan}

/-- The coroutine is suspended and nobody will wake it: it is in no queue, no
waiter list and no sleeping thread, and no thread is about to schedule, register
or resume it. -/
structure Idle (state : State Thread V Chan) (handle : Handle) : Prop where
  suspended : (state.frames handle).suspended = true
  queue : handle ∉ state.taskQueue
  sleepers : handle ∉ state.sleepers
  waiters : ∀ channel, (state.channels channel).stored handle = 0
  threads : ∀ thread, ∀ activity ∈ state.callStacks thread, activity.wakes? ≠ some handle

/-- The coroutine that a step schedules, unless it is done, without holding its
wake-up: the resume loop after `resume()` returned, `task::run`, and `co_await`
of a task. -/
def State.reschedules? (state : State Thread V Chan) : Action Thread V Chan → Option Handle
  | .proceed thread =>
      match state.callStacks thread with
      | .afterResume handle :: _ => some handle
      | _ => none
  | .code _ (.runTask source) | .body _ (.awaitTask source) => state.tasks[source]?.join
  | _ => none

/-- Whoever schedules a coroutine without holding its wake-up finds it done or
idle. -/
def SchedulesIdle (state : State Thread V Chan) (action : Action Thread V Chan) : Prop :=
  ∀ handle ∈ state.reschedules? action, (state.frames handle).done = false → Idle state handle

instance (handle : Handle) : Decidable (Idle state handle) :=
  decidable_of_iff ((state.frames handle).suspended = true ∧ handle ∉ state.taskQueue ∧
      handle ∉ state.sleepers ∧ (∀ channel, (state.channels channel).stored handle = 0) ∧
      ∀ thread, ∀ activity ∈ state.callStacks thread, activity.wakes? ≠ some handle)
    ⟨fun h => ⟨h.1, h.2.1, h.2.2.1, h.2.2.2.1, h.2.2.2.2⟩,
      fun h => ⟨h.suspended, h.queue, h.sleepers, h.waiters, h.threads⟩⟩

instance : Decidable (SchedulesIdle state action) :=
  inferInstanceAs (Decidable (∀ handle ∈ state.reschedules? action,
    (state.frames handle).done = false → Idle state handle))

omit [DecidableEq Thread] [DecidableEq Chan] in
theorem Idle.wakeups_eq_zero {handle : Handle} (hidle : Idle state handle) :
    wakeups state handle = 0 := by
  have hstacks : ∀ thread, held handle (state.callStacks thread) = 0 := by
    intro thread
    refine List.count_eq_zero.mpr fun hmem => ?_
    obtain ⟨activity, hactivity, hwakes⟩ := List.mem_filterMap.mp hmem
    exact hidle.threads thread activity hactivity hwakes
  have hchannels : total (fun channel => channel.stored handle) state.channels = 0 :=
    total_eq_zero hidle.waiters
  simp only [wakeups, List.count_eq_zero.mpr hidle.queue,
    List.count_eq_zero.mpr hidle.sleepers, hchannels, total_eq_zero hstacks]

omit [DecidableEq Chan] in
/-- An idle coroutine is scheduled by a thread that did not hold its wake-up. -/
theorem SingleAt.schedules {base : State Thread V Chan} {thread : Thread} {focus handle : Handle}
    {stack : List (Activity V Chan)} (hsingle : SingleAt state handle) (hidle : Idle state focus)
    (hframe : (state.frames handle).Alike (base.frames handle))
    (hchannels : base.channels = state.channels) (hstacks : base.callStacks = state.callStacks)
    (hqueue : base.taskQueue = state.taskQueue) (hsleepers : base.sleepers = state.sleepers)
    (hheld : held handle stack =
      held handle (state.callStacks thread) + [focus].count handle) :
    SingleAt (base.withStack thread stack) handle := by
  have hswap := wakeups_swap handle thread stack hchannels hstacks
  rw [hqueue, hsleepers] at hswap
  by_cases heq : handle = focus
  · subst handle
    have hzero := hidle.wakeups_eq_zero
    have hresumed := hsingle.resumed
    have hsuspended := hidle.suspended
    rw [← hframe.suspended] at hsuspended
    rw [← hframe.suspended, ← hframe.resumes] at hresumed
    simp only [List.count_singleton_self] at hheld
    refine ⟨?_, hresumed⟩
    change wakeups _ focus ≤ if (base.frames focus).suspended then 1 else 0
    rw [if_pos hsuspended]
    omega
  · have hzero : [focus].count handle = 0 := by simp [Ne.symm heq]
    exact hsingle.of_alike hframe (by omega)

omit [DecidableEq Chan] in
/-- A coroutine starts to run on the stack that held all its wake-ups. -/
theorem SingleAt.begins {base : State Thread V Chan} {thread : Thread} {focus : Handle}
    {stack : List (Activity V Chan)}
    (hwoken : wakeups state focus + held focus stack ≤ held focus (state.callStacks thread))
    (hrunning : (base.frames focus).running = true) (hresumes : (base.frames focus).resumes ≤ 1)
    (hchannels : base.channels = state.channels) (hstacks : base.callStacks = state.callStacks)
    (hqueue : base.taskQueue = state.taskQueue) (hsleepers : base.sleepers = state.sleepers) :
    SingleAt (base.withStack thread stack) focus := by
  have hswap := wakeups_swap focus thread stack hchannels hstacks
  have hsuspended := (base.frames focus).suspended_of_running hrunning
  rw [hqueue, hsleepers] at hswap
  refine ⟨?_, ?_⟩
  · change wakeups _ focus ≤ if (base.frames focus).suspended then 1 else 0
    rw [hsuspended]
    exact (by omega : wakeups _ focus = 0).le
  · change (base.frames focus).resumes ≤ if (base.frames focus).suspended then 0 else 1
    rwa [hsuspended]

omit [Fintype Thread] [Fintype Chan] [DecidableEq Chan] in
/-- What a call of `resume()` on a suspended coroutine does to wake-ups. -/
theorem State.resume_eq (thread : Thread) (focus : Handle) (rest : List (Activity V Chan))
    (hsuspended : (state.frames focus).suspended = true) :
    ∃ base : State Thread V Chan,
      state.resume thread focus rest =
        base.withStack thread (.body focus :: .afterResume focus :: rest) ∧
      base.callStacks = state.callStacks ∧ base.channels = state.channels ∧
      base.taskQueue = state.taskQueue ∧ base.sleepers = state.sleepers ∧
      ∀ handle, ((state.withFrame focus (state.frames focus).wake).frames handle).Alike
        (base.frames handle) := by
  rcases state.resume_cases thread focus rest with
    ⟨point, _, _, hnext⟩ | ⟨source, _, hnext⟩ | ⟨hnever, _⟩
  · exact ⟨_, hnext, rfl, rfl, rfl, rfl, fun handle => .refl _⟩
  · obtain ⟨hstacks, hchannels, hqueue, hsleepers⟩ :=
      (state.withFrame focus (state.frames focus).wake).awaitResume_eq focus source
    exact ⟨_, hnext, hstacks, hchannels, hqueue, hsleepers, State.alike_awaitResume focus source⟩
  · unfold Frame.suspended at hsuspended
    split at hsuspended
    next point hstatus => exact absurd hstatus (hnever point)
    next => cases hsuspended
    next => cases hsuspended
    next => cases hsuspended

omit [DecidableEq Chan] in
/-- Resuming a coroutine uses up its wake-up. -/
theorem SingleAt.resume {thread : Thread} {focus : Handle} {rest : List (Activity V Chan)}
    (hsingle : ∀ other, SingleAt state other)
    (hstack : state.callStacks thread = .resuming focus :: rest) (handle : Handle) :
    SingleAt (state.resume thread focus rest) handle := by
  have hheld : held focus (state.callStacks thread) ≤ wakeups state focus :=
    held_le_wakeups focus thread
  have hwoken := (hsingle focus).woken
  rw [hstack] at hheld
  simp only [held_cons, Activity.wakes?, Option.toList_some, List.count_singleton_self] at hheld
  -- The thread holds a wake-up, and only a suspended coroutine has one.
  have hsuspended : (state.frames focus).suspended = true := by
    by_contra hnot
    rw [if_neg hnot] at hwoken
    omega
  obtain ⟨base, hnext, hstacks, hchannels, hqueue, hsleepers, halike⟩ :=
    state.resume_eq thread focus rest hsuspended
  rw [hnext]
  by_cases heq : handle = focus
  · subst handle
    have hresumed := (hsingle focus).resumed
    have hframe := halike focus
    rw [hsuspended] at hwoken hresumed
    simp only [State.withFrame, Function.update_self] at hframe
    refine SingleAt.begins ?_ ?_ ?_ hchannels hstacks hqueue hsleepers
    · simp only [hstack, held_cons, Activity.wakes?, Option.toList_some, Option.toList_none,
        List.count_nil, List.count_singleton_self]
      simp only [if_true] at hwoken
      omega
    · rw [hframe.running]
      rfl
    · rw [hframe.resumes]
      exact Nat.succ_le_succ hresumed
  · have hframe := halike handle
    simp only [State.withFrame, Function.update_of_ne heq] at hframe
    apply (hsingle handle).swap hframe hchannels hstacks
    simp [hstack, hqueue, hsleepers]

omit [DecidableEq Chan] in
/-- A coroutine that does not exist yet has no wake-up when its body begins. -/
theorem SingleAt.creates {thread : Thread} {focus handle : Handle} (hold : SingleAt state handle)
    (hunborn : (state.frames focus).status = .unborn) (void : Bool)
    (tasks : List (Option Handle)) :
    SingleAt ({ state.withFrame focus (.created void) with tasks := tasks }.withStack thread
      (.body focus :: state.callStacks thread)) handle := by
  by_cases heq : handle = focus
  · subst handle
    have hwoken := hold.woken
    have hsuspended : (state.frames focus).suspended = false := by
      simp [Frame.suspended, hunborn]
    rw [hsuspended] at hwoken
    have hheld : wakeups state focus + held focus (.body focus :: state.callStacks thread) ≤
        held focus (state.callStacks thread) := by
      rw [Nat.le_zero.mp hwoken]
      simp
    refine SingleAt.begins hheld ?_ ?_ rfl rfl rfl rfl
    · simp [State.withFrame, Frame.created, Frame.running]
    · simp [State.withFrame, Frame.created, Frame.unborn]
  · exact hold.swap (Frame.alike_of_ne heq) rfl rfl (by simp [State.withFrame])

omit [DecidableEq Chan] in
/-- The parent suspends without a wake-up: only the child is scheduled. -/
theorem SingleAt.awaits {thread : Thread} {focus child handle : Handle}
    {rest : List (Activity V Chan)} {source : Nat} {parked : State Thread V Chan}
    (hold : SingleAt state handle) (hruns : RunsOnce state focus)
    (hstack : state.callStacks thread = .body focus :: rest) (hidle : Idle state child)
    (hparked : parked = state.withFrame focus ((state.frames focus).suspend (.task source))) :
    SingleAt ((parked.withFrame child { parked.frames child with
      continuation := some focus }).withStack thread (.scheduling child :: rest)) handle := by
  have hrunning := (hruns.of_body hstack).1
  -- The parent runs and the child is idle, so no coroutine awaits itself here.
  have hne : child ≠ focus := by
    rintro rfl
    have hsuspended := hidle.suspended
    rw [(state.frames child).suspended_of_running hrunning] at hsuspended
    cases hsuspended
  subst hparked
  by_cases heq : handle = focus
  · subst handle
    refine SingleAt.leaves (hold.of_running hrunning) hstack ?_ rfl rfl ?_
    · simp [State.withFrame, Frame.suspend, Ne.symm hne]
    · simp [State.withFrame, hne]
  · refine hold.schedules hidle ?_ rfl rfl rfl rfl (by simp [hstack, Nat.add_comm])
    by_cases hchild : handle = child
    · have hframe : (state.frames child).Alike
          { state.frames child with continuation := some focus } := ⟨rfl, rfl, rfl⟩
      subst handle
      simpa [State.withFrame, heq] using hframe
    · simpa [State.withFrame, heq, hchild] using Frame.Alike.refl _

omit [DecidableEq Chan] in
/-- A body that ends leaves no wake-up behind. -/
theorem SingleAt.finishes {thread : Thread} {focus handle : Handle}
    {rest : List (Activity V Chan)} (hold : SingleAt state handle) (hruns : RunsOnce state focus)
    (hstack : state.callStacks thread = .body focus :: rest) (ending : Ending V)
    (tasks : List (Option Handle)) :
    SingleAt ({ state.withFrame focus ((state.frames focus).finish ending) with
      tasks := tasks }.withStack thread rest) handle := by
  by_cases heq : handle = focus
  · subst handle
    have hrunning := (hruns.of_body hstack).1
    have hresumed := hold.resumed
    rw [(state.frames focus).suspended_of_running hrunning] at hresumed
    obtain ⟨hended, hresumes⟩ := (state.frames focus).finish_eq ending
    refine SingleAt.leaves (hold.of_running hrunning) hstack ?_ rfl rfl ?_
    · simpa [State.withFrame, hended, hresumes] using hresumed
    · simp [State.withFrame, hended]
  · exact hold.swap (Frame.alike_of_ne heq) rfl rfl (by simp [hstack, State.withFrame])

theorem Moves.singleAt (hmoves : Moves state action next)
    (hcondition : SchedulesIdle state action) (hruns : ∀ handle, RunsOnce state handle)
    (hsingle : ∀ handle, SingleAt state handle) (handle : Handle) : SingleAt next handle := by
  have hold := hsingle handle
  cases hmoves with
  | follows thread activity rest after active hstack hafter =>
      have hheld := hafter.held_le handle
      refine hold.swap (.refl _) rfl rfl ?_
      simp only [hstack, held_cons, held_append, held_nil] at hheld ⊢
      omega
  | reschedules thread focus rest hstack hdone =>
      have hidle := hcondition focus (by simp [State.reschedules?, hstack]) hdone
      exact hold.schedules hidle (.refl _) rfl rfl rfl rfl (by simp [hstack, Nat.add_comm])
  | resumes thread focus rest hstack => exact SingleAt.resume hsingle hstack handle
  | enqueues thread focus rest hstack =>
      refine hold.swap (.refl _) rfl rfl ?_
      simp only [hstack, held_cons, List.count_append, Activity.wakes?, Option.toList_some]
      omega
  | destroys thread focus rest hstack =>
      have hframe : (state.frames focus).Alike { state.frames focus with live := false } :=
        ⟨rfl, rfl, rfl⟩
      apply hold.swap (State.alike_withFrame hframe handle) rfl rfl
      simp only [hstack]
      split <;> simp [State.withFrame]
  | registersSend thread focus channel value rest hstack =>
      by_cases hreceivers : (state.channels channel).closed = false →
          (state.channels channel).recvWaiters = []
      · refine hold.calls ((state.channels channel).registerSendWaiter_keepsHandles focus _
          hreceivers) ?_
        simp [hstack]
      · -- The value goes to a parked receiver, and the handle of the sender is forgotten.
        obtain ⟨hclosed, hparked⟩ := Classical.not_imp.mp hreceivers
        refine hold.calls ((state.channels channel).registerSendWaiter_drops focus _
          hclosed hparked) ?_
        simp [hstack]
  | registersRecv thread focus channel rest hstack =>
      exact hold.calls ((state.channels channel).registerRecvWaiter_keepsHandles focus _)
        (by simp [hstack])
  | flushes thread channel rest hstack =>
      exact hold.calls (state.channels channel).closeFlush_keepsHandles (by simp [hstack])
  | pops thread focus queue hstack hqueue =>
      refine hold.swap (.refl _) rfl rfl ?_
      simp [hstack, hqueue, List.count_cons]
      omega
  | wakes thread focus hstack hsleeping =>
      have hcount := (List.perm_cons_erase hsleeping).count_eq handle
      refine hold.swap (.refl _) rfl rfl ?_
      simp only [hstack, held_cons, held_nil, Activity.wakes?, Option.toList_some,
        List.count_cons, List.count_nil] at hcount ⊢
      omega
  | quits thread focus hstack => exact hold.swap (.refl _) rfl rfl (by simp [hstack])
  | stops thread hcode =>
      -- Wake-ups disappear with the queue, none is added.
      apply hold.of_alike
      · simp only [State.clearQueue]
        split <;> exact ⟨rfl, rfl, rfl⟩
      · simp only [wakeups, State.clearQueue, List.count_nil]
        omega
  | creates thread focus void hcode hunborn => exact hold.creates hunborn void _
  | handles thread op tasks above hcode habove hready =>
      exact hold.swap (.refl _) rfl rfl (by simp [held_of_destroysOnly habove])
  | runs thread source focus active hcode htask hdone =>
      have hidle := hcondition focus (by simp [State.reschedules?, htask]) hdone
      exact hold.schedules hidle (.refl _) rfl rfl rfl rfl (by simp [Nat.add_comm])
  | trySend thread op channel value used hcode hop =>
      exact hold.calls ((state.channels channel).trySendWith_keepsHandles _ used) (by simp)
  | tryRecv thread channel hcode =>
      exact hold.calls ((state.channels channel).tryRecv_keepsHandles none none) (by simp)
  | exchanges thread channel hcode above habove =>
      apply hold.calls (state.channels channel).closeExchange_keepsHandles
      rcases habove with rfl | rfl <;> simp
  | yields _ _ _ hstack | sleeps _ _ _ hstack | parksSender _ _ _ _ _ _ hstack
  | parksReceiver _ _ _ _ _ hstack =>
      refine SingleAt.suspends handle hsingle (hruns _) hstack ?_
        (fun other hne => Frame.alike_of_ne hne) rfl rfl fun other => ?_
      · simp [State.withFrame, Frame.suspend, Frame.suspended]
      · -- The one wake-up is on the stack or with the sleepers now.
        simp [State.withFrame]
        omega
  | sends thread focus channel value frame rest hstack hframe =>
      have hbase : SingleAt (state.withFrame focus frame) handle :=
        hold.of_alike (State.alike_withFrame (Frame.alike_begin hframe) handle) le_rfl
      have hsame : (state.withFrame focus frame).callStacks thread = .body focus :: rest := hstack
      apply hbase.calls ((state.channels channel).trySendWith_keepsHandles _ _)
      rw [hsame]
      simp
  | receives thread focus channel frame rest hstack hframe =>
      have hbase : SingleAt (state.withFrame focus frame) handle :=
        hold.of_alike (State.alike_withFrame (Frame.alike_begin hframe) handle) le_rfl
      have hsame : (state.withFrame focus frame).callStacks thread = .body focus :: rest := hstack
      apply hbase.calls ((state.channels channel).tryRecv_keepsHandles _ none)
      rw [hsame]
      simp
  | awaits thread focus child source rest hstack htask hdone parked hparked =>
      have hidle := hcondition child (by simp [State.reschedules?, htask]) hdone
      exact hold.awaits (hruns focus) hstack hidle hparked
  | continues thread focus source rest hstack hready =>
      obtain ⟨hstacks, hchannels, hqueue, hsleepers⟩ := state.awaitResume_eq focus source
      apply hold.of_alike (state.alike_awaitResume focus source handle)
      simp only [wakeups, hstacks, hchannels, hqueue, hsleepers]
      exact le_rfl
  | finishes thread focus op rest ending tasks hstack hop hvoid hvalue =>
      exact hold.finishes (hruns focus) hstack ending tasks

omit [DecidableEq Thread] [DecidableEq Chan] in
theorem singleAt_initial (capacity : Chan → Nat) (handle : Handle) :
    SingleAt (initial capacity : State Thread V Chan) handle := by
  have hchannels : total (fun channel : Conduit V => channel.stored handle)
      (fun channel : Chan => Channel.new (capacity channel)) = 0 := total_eq_zero fun _ => rfl
  have hstacks : total (held handle) (fun _ : Thread => ([] : List (Activity V Chan))) = 0 :=
    total_eq_zero fun _ => rfl
  refine ⟨?_, Nat.zero_le _⟩
  simp [wakeups, initial, hchannels, hstacks]

/-- What the runs maintain in which coroutines are scheduled idle. -/
structure Single (state : State Thread V Chan) : Prop where
  runs : ∀ handle, RunsOnce state handle
  single : ∀ handle, SingleAt state handle

theorem Moves.single (hmoves : Moves state action next) (hcondition : SchedulesIdle state action)
    (hsingle : Single state) : Single next :=
  ⟨hmoves.runsOnce hsingle.runs, hmoves.singleAt hcondition hsingle.runs hsingle.single⟩

omit [DecidableEq Thread] [DecidableEq Chan] in
theorem single_initial (capacity : Chan → Nat) :
    Single (initial capacity : State Thread V Chan) :=
  ⟨runsOnce_initial capacity, singleAt_initial capacity⟩

/-- `task_queue_` holds every handle once at most, and every suspension is
resumed once at most. -/
def SingleResumption (state : State Thread V Chan) : Prop :=
  state.taskQueue.Nodup ∧ ∀ handle, (state.frames handle).resumes ≤ 1

omit [DecidableEq Thread] [DecidableEq Chan] in
theorem SingleResumption.of_singleAt (hsingle : ∀ handle, SingleAt state handle) :
    SingleResumption state := by
  refine ⟨List.nodup_iff_count_le_one.mpr fun handle => ?_, fun handle => ?_⟩
  · have hwoken := (hsingle handle).woken
    have hcount : state.taskQueue.count handle ≤ wakeups state handle := by
      simp only [wakeups]
      omega
    split at hwoken <;> omega
  · have hresumed := (hsingle handle).resumed
    split at hresumed <;> omega

/-- In every run in which whoever schedules a coroutine without holding its
wake-up finds it idle, no coroutine has two pending resumptions. -/
theorem singleResumption_along (capacity : Chan → Nat) (actions : List (Action Thread V Chan))
    (hmeets : (machine Thread V Chan capacity).Meets SchedulesIdle (initial capacity) actions) :
    (machine Thread V Chan capacity).Along SingleResumption (initial capacity) actions :=
  Machine.along_of_meets Single (fun _ _ _ hsingle hcondition hstep =>
    (moves_of_step hstep).single hcondition hsingle) (fun _ hsingle => .of_singleAt hsingle.single)
    (single_initial capacity) hmeets

/-- A receiver is parked, woken by a send, and runs to its end. -/
theorem singleResumption_recv_run :
    (machine Unit Nat Unit fun _ => 1).Along SingleResumption (initial fun _ => 1)
      [.code () (.create 0 true), .body () (.recv ()), .proceed (), .code () (.trySend () 42),
        .proceed (), .proceed (), .proceed (), .pop (), .proceed (), .proceed (),
        .body () .returnVoid, .proceed (), .proceed (), .proceed ()] :=
  singleResumption_along (fun _ => 1) _ (by decide)

/-- A coroutine that yields under the resume loop is queued by the awaiter of
`yield` and by the loop. -/
theorem doubled_wakeup_run :
    ¬ (machine Unit Nat Unit fun _ => 1).Along SingleResumption (initial fun _ => 1)
      [.code () (.create 0 true), .body () .yield, .proceed (), .proceed (), .proceed (), .pop (),
        .proceed (), .proceed (), .body () .yield, .proceed (), .proceed (), .proceed (),
        .proceed (), .proceed (), .proceed (), .proceed ()] := by
  intro halong
  have hlast := halong.last rfl
  exact absurd hlast.1 (by decide)

end Step

end Tang.Runtime
