import Tang.Runtime.Resumption

/-! # Who refers to a frame that is destroyed

Task objects own the frames and destroy them without asking who refers to them:
the queue, the waiter lists, the sleeping threads and the threads in the runtime
only borrow a handle. All other steps pass references on.
-/

namespace Tang.Runtime

open Foundation Effect

variable {Thread V Chan : Type}

/-! ## References -/

/-- The coroutine that the activity refers to; to destroy is not to refer. -/
@[simp] def Activity.holds? : Activity V Chan → Option Handle
  | .body handle | .afterResume handle | .popped handle | .resuming handle => some handle
  | .scheduling handle | .starting handle | .enqueuing handle => some handle
  | .registeringSend handle _ _ | .registeringRecv handle _ => some handle
  | .completing | .decrementing | .flushing _ | .destroying _ => none

/-- The coroutines that the activities of one stack refer to. -/
def holding (stack : List (Activity V Chan)) : List Handle :=
  stack.filterMap Activity.holds?

@[simp] theorem holding_nil : holding ([] : List (Activity V Chan)) = [] := rfl

@[simp] theorem holding_cons (activity : Activity V Chan) (stack : List (Activity V Chan)) :
    holding (activity :: stack) = activity.holds?.toList ++ holding stack := by
  simp only [holding, List.filterMap_eq_flatMap_toList, List.flatMap_cons]

@[simp] theorem holding_append (above below : List (Activity V Chan)) :
    holding (above ++ below) = holding above ++ holding below :=
  List.filterMap_append

@[simp] theorem holding_map_scheduling (handles : List Handle) :
    holding (handles.map (Activity.scheduling : Handle → Activity V Chan)) = handles := by
  simp [holding, List.filterMap_map, Function.comp_def]

theorem holding_of_destroysOnly {activities : List (Activity V Chan)}
    (hdestroys : DestroysOnly activities) : holding activities = [] := by
  refine List.filterMap_eq_nil_iff.mpr fun activity hactivity => ?_
  rcases hdestroys activity hactivity with rfl | ⟨_, rfl⟩ <;> rfl

theorem Follows.holding {activity : Activity V Chan} {after : List (Activity V Chan)}
    (hfollows : Follows activity after) : holding after ⊆ holding [activity] := by
  cases hfollows <;> simp

/-- A waiter list, a sleeping thread or a thread in the runtime refers to the
coroutine. -/
def ReferencedOutside (state : State Thread V Chan) (handle : Handle) : Prop :=
  handle ∈ state.sleepers ∨ (∃ channel, 0 < (state.channels channel).stored handle) ∨
    ∃ thread, handle ∈ holding (state.callStacks thread)

/-- The queue or anybody else refers to the coroutine. -/
def Referenced (state : State Thread V Chan) (handle : Handle) : Prop :=
  handle ∈ state.taskQueue ∨ ReferencedOutside state handle

/-- Every referenced coroutine has a frame that was not destroyed. -/
def OnlyLive (state : State Thread V Chan) : Prop :=
  ∀ handle, Referenced state handle → (state.frames handle).live = true

section References

variable {state : State Thread V Chan} {handle : Handle}

theorem Referenced.queued (hmem : handle ∈ state.taskQueue) : Referenced state handle :=
  Or.inl hmem

theorem Referenced.sleeping (hmem : handle ∈ state.sleepers) : Referenced state handle :=
  Or.inr (Or.inl hmem)

theorem Referenced.waiting {channel : Chan} (hstored : 0 < (state.channels channel).stored handle) :
    Referenced state handle :=
  Or.inr (Or.inr (Or.inl ⟨channel, hstored⟩))

theorem Referenced.held (thread : Thread) (hmem : handle ∈ holding (state.callStacks thread)) :
    Referenced state handle :=
  Or.inr (Or.inr (Or.inr ⟨thread, hmem⟩))

/-- What the top activity of a stack refers to is referenced. -/
theorem Referenced.top {thread : Thread} {activity : Activity V Chan}
    {rest : List (Activity V Chan)} (hstack : state.callStacks thread = activity :: rest)
    (hholds : activity.holds? = some handle) : Referenced state handle :=
  .held thread (by rw [hstack, holding_cons, hholds]; exact List.mem_cons_self)

/-- A stack that refers to no more than before refers to what is referenced. -/
theorem Referenced.of_subset (thread : Thread) {stack : List (Activity V Chan)}
    (hsubset : holding stack ⊆ holding (state.callStacks thread)) :
    ∀ handle ∈ holding stack, Referenced state handle :=
  fun _ hmem => .held thread (hsubset hmem)

theorem referenced_congr {next : State Thread V Chan} (hqueue : next.taskQueue = state.taskQueue)
    (hsleepers : next.sleepers = state.sleepers) (hchannels : next.channels = state.channels)
    (hholding : ∀ thread, holding (next.callStacks thread) = holding (state.callStacks thread))
    (handle : Handle) : Referenced next handle ↔ Referenced state handle := by
  simp only [Referenced, ReferencedOutside, hqueue, hsleepers, hchannels, hholding]

end References

/-! ## Steps that pass references on -/

/-- Replacing a frame by one that is as live destroys nothing. -/
theorem live_update {frames : Handle → Frame V Chan} {frame : Frame V Chan} {focus : Handle}
    (hframe : (frames focus).live = true → frame.live = true) (handle : Handle)
    (hlive : (frames handle).live = true) :
    (Function.update frames focus frame handle).live = true :=
  (Function.forall_update_iff frames fun other after => (frames other).live = true →
    after.live = true).mpr ⟨hframe, fun _ _ => id⟩ handle hlive

theorem State.live_withFrame (state : State Thread V Chan) (focus : Handle) {frame : Frame V Chan}
    (hframe : frame.live = (state.frames focus).live) (handle : Handle) :
    ((state.withFrame focus frame).frames handle).live = (state.frames handle).live :=
  (Function.forall_update_iff state.frames fun other after =>
    after.live = (state.frames other).live).mpr ⟨hframe, fun _ _ => rfl⟩ handle

section Passing

variable [DecidableEq Thread] {state next : State Thread V Chan} {thread : Thread}
  {stack : List (Activity V Chan)}

/-- A step that destroys nothing and refers only to what was referenced, or to a
live frame, leads to live references only. -/
theorem OnlyLive.passes (hlive : OnlyLive state)
    (hframes : ∀ handle, (state.frames handle).live = true → (next.frames handle).live = true)
    (hstacks : next.callStacks = Function.update state.callStacks thread stack)
    (hqueue : ∀ handle ∈ next.taskQueue, Referenced state handle)
    (hsleepers : ∀ handle ∈ next.sleepers, Referenced state handle)
    (hchannels : ∀ channel handle, 0 < (next.channels channel).stored handle →
      Referenced state handle)
    (hstack : ∀ handle ∈ holding stack,
      Referenced state handle ∨ (next.frames handle).live = true) : OnlyLive next := by
  have hold : ∀ handle, Referenced state handle → (next.frames handle).live = true :=
    fun handle href => hframes handle (hlive handle href)
  rintro handle (hqueued | hsleeping | ⟨channel, hwaiting⟩ | ⟨other, hheld⟩)
  · exact hold handle (hqueue handle hqueued)
  · exact hold handle (hsleepers handle hsleeping)
  · exact hold handle (hchannels channel handle hwaiting)
  · rw [hstacks] at hheld
    by_cases heq : other = thread
    · subst other
      rw [Function.update_self] at hheld
      exact (hstack handle hheld).elim (hold handle) id
    · rw [Function.update_of_ne heq] at hheld
      exact hold handle (.held other hheld)

/-- The special case in which only one stack changes. -/
theorem OnlyLive.steps (hlive : OnlyLive state)
    (hframes : ∀ handle, (state.frames handle).live = true → (next.frames handle).live = true)
    (hstacks : next.callStacks = Function.update state.callStacks thread stack)
    (hqueue : next.taskQueue = state.taskQueue) (hsleepers : next.sleepers = state.sleepers)
    (hchannels : next.channels = state.channels)
    (hstack : ∀ handle ∈ holding stack,
      Referenced state handle ∨ (next.frames handle).live = true) : OnlyLive next :=
  hlive.passes hframes hstacks (fun _ hmem => .queued (hqueue ▸ hmem))
    (fun _ hmem => .sleeping (hsleepers ▸ hmem))
    (fun _ _ hstored => .waiting (hchannels ▸ hstored)) hstack

variable [DecidableEq Chan] {R : Type} {channel : Chan} {out : Answered V R}
  {rest : List (Activity V Chan)}

/-- A critical section turns waiters into handles to schedule, and back. -/
theorem OnlyLive.calls {registered : List Handle} (hlive : OnlyLive state)
    (hkeeps : out.KeepsHandles (state.channels channel) registered)
    (hregistered : ∀ handle ∈ registered, Referenced state handle)
    (hrest : ∀ handle ∈ holding rest, Referenced state handle) :
    OnlyLive (state.calls thread channel out rest) := by
  have hstored : ∀ handle, 0 < out.channel.stored handle + (schedules out.effects).count handle →
      Referenced state handle := by
    intro handle hpos
    rw [hkeeps handle] at hpos
    by_cases hwaiting : 0 < (state.channels channel).stored handle
    · exact .waiting hwaiting
    · exact hregistered handle (List.count_pos_iff.mp (by omega))
  refine hlive.passes (fun _ h => h) rfl (fun _ hmem => .queued hmem)
    (fun _ hmem => .sleeping hmem) (fun other handle hwaiting => ?_) fun handle hmem => ?_
  · by_cases heq : other = channel
    · subst other
      have hnow : 0 < out.channel.stored handle := by simpa [State.calls] using hwaiting
      exact hstored handle (by omega)
    · exact .waiting (by simpa [State.calls, heq] using hwaiting)
  · rw [holding_append, holding_map_scheduling] at hmem
    rcases List.mem_append.mp hmem with hscheduled | hkept
    · have hpos := List.count_pos_iff.mpr hscheduled
      exact Or.inl (hstored handle (by omega))
    · exact Or.inl (hrest handle hkept)

end Passing

/-! ## Where references break -/

section Runs

variable [DecidableEq Thread] [DecidableEq Chan] {state next : State Thread V Chan}
  {action : Action Thread V Chan}

/-- The coroutine whose frame a step destroys. -/
def State.destroys? (state : State Thread V Chan) : Action Thread V Chan → Option Handle
  | .proceed thread =>
      match state.callStacks thread with
      | .destroying handle :: _ => some handle
      | _ => none
  | _ => none

/-- The step is the clean-up of `scheduler::stop`. -/
def Action.stops : Action Thread V Chan → Bool
  | .stop _ => true
  | _ => false

/-- A frame is destroyed when nobody refers to it, and in `stop` when nobody but
the queue does; and a task is scheduled only while its frame exists. -/
structure RespectsReferences (state : State Thread V Chan) (action : Action Thread V Chan) :
    Prop where
  destroys : ∀ handle ∈ state.destroys? action, ¬ Referenced state handle
  clears : action.stops = true → ∀ handle ∈ state.taskQueue,
    (state.frames handle).done = false → ¬ ReferencedOutside state handle
  schedules : ∀ handle ∈ state.reschedules? action,
    (state.frames handle).done = false → (state.frames handle).live = true

omit [DecidableEq Thread] [DecidableEq Chan] in
/-- A step that destroys nothing, and schedules nothing but live coroutines, has
nothing to respect. -/
theorem RespectsReferences.of_none (hdestroys : state.destroys? action = none)
    (hstops : action.stops = false)
    (hschedules : ∀ handle ∈ state.reschedules? action, (state.frames handle).live = true) :
    RespectsReferences state action := by
  refine ⟨?_, ?_, fun handle hmem _ => hschedules handle hmem⟩
  · simp [hdestroys]
  · simp [hstops]

omit [DecidableEq Thread] [DecidableEq Chan] in
theorem RespectsReferences.of_idle (hdestroys : state.destroys? action = none)
    (hstops : action.stops = false) (hschedules : state.reschedules? action = none) :
    RespectsReferences state action :=
  .of_none hdestroys hstops (by simp [hschedules])

omit [DecidableEq Thread] [DecidableEq Chan] in
/-- The resume loop schedules a coroutine that it refers to. -/
theorem OnlyLive.proceeds (hlive : OnlyLive state) {thread : Thread} {activity : Activity V Chan}
    {rest : List (Activity V Chan)} (hstack : state.callStacks thread = activity :: rest)
    (hactivity : ∀ handle, activity ≠ .destroying handle) :
    RespectsReferences state (.proceed thread) := by
  refine .of_none ?_ rfl fun handle hmem => ?_
  · simp only [State.destroys?, hstack]
    split
    next heq => exact absurd (List.cons.inj heq).1 (hactivity _)
    next => rfl
  · simp only [State.reschedules?, hstack] at hmem
    split at hmem
    next other _ heq =>
      cases hmem
      exact hlive handle (.top hstack (by rw [(List.cons.inj heq).1]; rfl))
    next => cases hmem

omit [DecidableEq Chan] in
/-- The resumed body and the loop below it are the activity that was there. -/
theorem OnlyLive.resume (hlive : OnlyLive state) {thread : Thread} {focus : Handle}
    {rest : List (Activity V Chan)}
    (hstack : state.callStacks thread = .resuming focus :: rest) :
    OnlyLive (state.resume thread focus rest) := by
  rcases state.resume_cases thread focus rest with
    ⟨point, _, _, hnext⟩ | ⟨source, _, hnext⟩ | ⟨_, hnext⟩
  · rw [hnext]
    exact hlive.steps (live_update id) rfl rfl rfl rfl
      (fun handle hmem => Or.inl (.of_subset thread (by simp [hstack]) handle hmem))
  · rw [hnext]
    let woken := state.withFrame focus (state.frames focus).wake
    obtain ⟨hstacks, hchannels, hqueue, hsleepers⟩ := woken.awaitResume_eq focus source
    refine hlive.steps (fun handle hold => ?_) (congrArg (Function.update · thread _) hstacks)
      hqueue hsleepers hchannels
      (fun handle hmem => Or.inl (.of_subset thread (by simp [hstack]) handle hmem))
    obtain ⟨result, hframe⟩ := woken.awaitResume_frame focus source handle
    have hwoken : (woken.frames handle).live = true :=
      (state.live_withFrame focus (by rfl) handle).trans hold
    simpa [State.withStack, woken, hframe] using hwoken
  · rw [hnext]
    exact hlive.steps (live_update id) rfl rfl rfl rfl
      (fun handle hmem => Or.inl (.of_subset thread (by simp [hstack]) handle hmem))

omit [DecidableEq Chan] in
/-- Neither the frame nor the task in its result is a reference, so `destroy`
leaves those who refer as they are. -/
theorem State.referenced_destroy {thread : Thread} {focus : Handle}
    {rest : List (Activity V Chan)} (hstack : state.callStacks thread = .destroying focus :: rest)
    (handle : Handle) :
    Referenced (state.destroy thread focus rest) handle ↔ Referenced state handle := by
  apply referenced_congr
  · rfl
  · rfl
  · rfl
  · intro other
    by_cases heq : other = thread
    · subst other
      simp only [State.destroy, State.withStack, Function.update_self, hstack]
      split <;> simp
    · simp [State.destroy, State.withStack, State.withFrame, heq]

omit [DecidableEq Chan] in
theorem OnlyLive.destroy_iff (hlive : OnlyLive state) {thread : Thread} {focus : Handle}
    {rest : List (Activity V Chan)}
    (hstack : state.callStacks thread = .destroying focus :: rest) :
    OnlyLive (state.destroy thread focus rest) ↔
      RespectsReferences state (.proceed thread) := by
  have hrefs := State.referenced_destroy hstack
  have hdestroys : state.destroys? (.proceed thread) = some focus := by
    simp [State.destroys?, hstack]
  constructor
  · intro hnext
    refine ⟨fun handle hmem href => ?_, nofun, by simp [State.reschedules?, hstack]⟩
    obtain rfl : focus = handle := by simpa [hdestroys] using hmem
    have hkept := hnext focus ((hrefs focus).mpr href)
    simp [State.destroy, State.withStack, State.withFrame] at hkept
  · intro hrespects handle href
    have hbefore := (hrefs handle).mp href
    have hne : handle ≠ focus := by
      rintro rfl
      exact hrespects.destroys handle hdestroys hbefore
    simpa [State.destroy, State.withStack, State.withFrame, hne] using hlive handle hbefore

omit [DecidableEq Thread] [DecidableEq Chan] in
/-- The clean-up of `stop` leaves the queue empty, and may only hit a frame that
was in the queue and nowhere else. -/
theorem OnlyLive.clearQueue_iff (hlive : OnlyLive state) (thread : Thread) :
    OnlyLive state.clearQueue ↔ RespectsReferences state (.stop thread) := by
  constructor
  · intro hnext
    refine ⟨nofun, fun _ handle hqueued hdone houtside => ?_, nofun⟩
    have hkept := hnext handle (Or.inr houtside)
    simp [State.clearQueue, hqueued, hdone] at hkept
  · rintro hrespects handle (hnone | houtside)
    · cases hnone
    · have hbefore := hlive handle (Or.inr houtside)
      simp only [State.clearQueue]
      split
      next hcleared =>
        exact absurd houtside (hrespects.clears rfl handle hcleared.1 hcleared.2)
      next => exact hbefore

omit [DecidableEq Chan] in
/-- A task object is no reference, so its frame may have been destroyed by `stop`
when a step schedules its coroutine. -/
theorem OnlyLive.schedules_iff (hlive : OnlyLive state) {thread : Thread} {focus : Handle}
    {rest : List (Activity V Chan)}
    (hframes : ∀ handle, (next.frames handle).live = (state.frames handle).live)
    (hstacks : next.callStacks =
      Function.update state.callStacks thread (.scheduling focus :: rest))
    (hqueue : next.taskQueue = state.taskQueue) (hsleepers : next.sleepers = state.sleepers)
    (hchannels : next.channels = state.channels)
    (hrest : holding rest ⊆ holding (state.callStacks thread))
    (hdone : (state.frames focus).done = false) (hdestroys : state.destroys? action = none)
    (hstops : action.stops = false) (hschedules : state.reschedules? action = some focus) :
    OnlyLive next ↔ RespectsReferences state action := by
  constructor
  · intro hnext
    refine .of_none hdestroys hstops fun handle hmem => ?_
    obtain rfl : focus = handle := by simpa [hschedules] using hmem
    exact (hframes focus).symm.trans (hnext focus (.held thread (by simp [hstacks])))
  · intro hrespects
    have hfocus := hrespects.schedules focus (by simp [hschedules]) hdone
    refine hlive.steps (fun handle hold => (hframes handle).trans hold) hstacks hqueue hsleepers
      hchannels fun handle hmem => ?_
    rcases List.mem_cons.mp hmem with rfl | hold
    · exact Or.inr ((hframes handle).trans hfocus)
    · exact Or.inl (.of_subset thread hrest handle hold)

theorem Moves.onlyLive_iff (hmoves : Moves state action next) (hlive : OnlyLive state) :
    OnlyLive next ↔ RespectsReferences state action := by
  have hsame : ∀ handle, (state.frames handle).live = true → (state.frames handle).live = true :=
    fun _ => id
  have hpassed : ∀ thread {stack}, holding stack ⊆ holding (state.callStacks thread) →
      ∀ handle ∈ holding stack, Referenced state handle ∨ (next.frames handle).live = true :=
    fun thread _ hsubset handle hmem => Or.inl (Referenced.of_subset thread hsubset handle hmem)
  have hstarts : ∀ focus frame, frame.live = (state.frames focus).live →
      OnlyLive (state.withFrame focus frame) := by
    intro focus frame hframe handle href
    exact live_update (fun hold => hframe.trans hold) handle (hlive handle href)
  cases hmoves with
  | follows thread activity rest after active hstack hafter =>
      have hsubset : holding (after ++ rest) ⊆ holding (state.callStacks thread) := by
        intro handle hmem
        rw [holding_append] at hmem
        rw [hstack, ← List.singleton_append, holding_append]
        exact List.mem_append.mpr ((List.mem_append.mp hmem).imp_left fun h => hafter.holding h)
      refine iff_of_true (hlive.steps hsame rfl rfl rfl rfl (hpassed thread hsubset))
        (hlive.proceeds hstack ?_)
      rintro handle rfl
      cases hafter
  | reschedules thread focus rest hstack hdone =>
      exact iff_of_true (hlive.steps hsame rfl rfl rfl rfl (hpassed thread (by simp [hstack])))
        (hlive.proceeds hstack (by simp))
  | resumes thread focus rest hstack =>
      exact iff_of_true (hlive.resume hstack) (hlive.proceeds hstack (by simp))
  | enqueues thread focus rest hstack =>
      refine iff_of_true ?_ (hlive.proceeds hstack (by simp))
      refine hlive.passes hsame rfl (fun handle hmem => ?_) (fun _ hmem => .sleeping hmem)
        (fun _ _ hstored => .waiting hstored) (hpassed thread (by simp [hstack]))
      rcases List.mem_append.mp hmem with hqueued | htop
      · exact .queued hqueued
      · obtain rfl := List.mem_singleton.mp htop
        exact .top hstack rfl
  | destroys thread focus rest hstack => exact hlive.destroy_iff hstack
  | registersSend thread focus channel value rest hstack =>
      refine iff_of_true ?_ (hlive.proceeds hstack (by simp))
      have hrest : ∀ handle ∈ holding rest, Referenced state handle :=
        .of_subset thread (by simp [hstack])
      by_cases hreceivers : (state.channels channel).closed = false →
          (state.channels channel).recvWaiters = []
      · exact hlive.calls ((state.channels channel).registerSendWaiter_keepsHandles focus _
          hreceivers) (by simpa using Referenced.top hstack rfl) hrest
      · -- The sender is forgotten here, which leaves one reference less.
        obtain ⟨hclosed, hparked⟩ := Classical.not_imp.mp hreceivers
        exact hlive.calls ((state.channels channel).registerSendWaiter_drops focus _ hclosed
          hparked) (List.forall_mem_nil _) hrest
  | registersRecv thread focus channel rest hstack =>
      refine iff_of_true ?_ (hlive.proceeds hstack (by simp))
      exact hlive.calls ((state.channels channel).registerRecvWaiter_keepsHandles focus _)
        (by simpa using Referenced.top hstack rfl) (.of_subset thread (by simp [hstack]))
  | flushes thread channel rest hstack =>
      refine iff_of_true ?_ (hlive.proceeds hstack (by simp))
      exact hlive.calls (state.channels channel).closeFlush_keepsHandles (List.forall_mem_nil _)
        (.of_subset thread (by simp [hstack]))
  | pops thread focus queue hstack hqueue =>
      refine iff_of_true ?_ (.of_idle rfl rfl rfl)
      refine hlive.passes hsame rfl (fun handle hmem => ?_) (fun _ hmem => .sleeping hmem)
        (fun _ _ hstored => .waiting hstored) fun handle hmem => Or.inl (.queued ?_)
      · exact .queued (by rw [hqueue]; exact List.mem_cons_of_mem _ hmem)
      · obtain rfl : handle = focus := by simpa using hmem
        rw [hqueue]
        exact List.mem_cons_self
  | wakes thread focus hstack hsleeping =>
      refine iff_of_true ?_ (.of_idle rfl rfl rfl)
      refine hlive.passes hsame rfl (fun _ hmem => .queued hmem)
        (fun _ hmem => .sleeping (List.mem_of_mem_erase hmem))
        (fun _ _ hstored => .waiting hstored) fun handle hmem => Or.inl (.sleeping ?_)
      obtain rfl : handle = focus := by simpa using hmem
      exact hsleeping
  | quits thread focus hstack =>
      refine iff_of_true ?_ (.of_idle rfl rfl rfl)
      exact hlive.steps hsame rfl rfl rfl rfl (hpassed thread (by simp))
  | stops thread hcode => exact hlive.clearQueue_iff thread
  | creates thread focus void hcode hunborn =>
      refine iff_of_true ?_ (.of_idle rfl rfl rfl)
      refine hlive.steps (live_update fun _ => rfl) rfl rfl rfl rfl fun handle hmem => ?_
      rw [holding_cons] at hmem
      rcases List.mem_append.mp hmem with hnew | hold
      · obtain rfl : handle = focus := by simpa using hnew
        exact Or.inr (by simp [State.withStack, State.withFrame, Frame.created])
      · exact Or.inl (.held thread hold)
  | handles thread op tasks above hcode habove hready =>
      refine iff_of_true (hlive.steps hsame rfl rfl rfl rfl (hpassed thread ?_)) ?_
      · rw [holding_append, holding_of_destroysOnly habove]
        exact List.Subset.refl _
      -- A task that is run here is finished already, so it is not scheduled.
      · refine ⟨by simp [State.destroys?], by simp [Action.stops], fun handle hmem hdone => ?_⟩
        cases op with
        | runTask source =>
            rw [hready source handle rfl (Option.join_eq_some_iff.mp hmem)] at hdone
            cases hdone
        | _ => cases hmem
  | runs thread source focus active hcode htask hdone =>
      exact hlive.schedules_iff (fun _ => rfl) rfl rfl rfl rfl (List.Subset.refl _) hdone rfl rfl
        (by simp [State.reschedules?, htask])
  | trySend thread op channel value used hcode hop =>
      apply iff_of_true
      · exact hlive.calls ((state.channels channel).trySendWith_keepsHandles _ used)
          (List.forall_mem_nil _) (.of_subset thread (List.Subset.refl _))
      · rcases hop with rfl | rfl <;> exact .of_idle rfl rfl rfl
  | tryRecv thread channel hcode =>
      refine iff_of_true ?_ (.of_idle rfl rfl rfl)
      exact hlive.calls ((state.channels channel).tryRecv_keepsHandles none none)
        (List.forall_mem_nil _) (.of_subset thread (List.Subset.refl _))
  | exchanges thread channel hcode above habove =>
      refine iff_of_true ?_ (.of_idle rfl rfl rfl)
      apply hlive.calls (state.channels channel).closeExchange_keepsHandles (List.forall_mem_nil _)
      apply Referenced.of_subset thread
      rcases habove with rfl | rfl <;> simp
  | yields thread focus rest hstack =>
      refine iff_of_true ?_ (.of_idle rfl rfl rfl)
      exact hlive.steps (live_update id) rfl rfl rfl rfl (hpassed thread (by simp [hstack]))
  | sleeps thread focus rest hstack =>
      refine iff_of_true ?_ (.of_idle rfl rfl rfl)
      refine hlive.passes (live_update id) rfl (fun _ hmem => .queued hmem) (fun handle hmem => ?_)
        (fun _ _ hstored => .waiting hstored) (hpassed thread (by simp [hstack]))
      rcases List.mem_append.mp hmem with hold | htop
      · exact .sleeping hold
      · obtain rfl := List.mem_singleton.mp htop
        exact .top hstack rfl
  | sends thread focus channel value frame rest hstack hframe =>
      refine iff_of_true ?_ (.of_idle rfl rfl rfl)
      exact (hstarts focus frame (by rw [hframe])).calls
        ((state.channels channel).trySendWith_keepsHandles _ _) (List.forall_mem_nil _)
        (.of_subset thread (by simp [State.withFrame, hstack]))
  | parksSender thread focus channel value frame rest hstack hframe =>
      refine iff_of_true ?_ (.of_idle rfl rfl rfl)
      refine hlive.steps (live_update ?_) rfl rfl rfl rfl (hpassed thread (by simp [hstack]))
      rw [hframe]
      exact id
  | receives thread focus channel frame rest hstack hframe =>
      refine iff_of_true ?_ (.of_idle rfl rfl rfl)
      exact (hstarts focus frame (by rw [hframe])).calls
        ((state.channels channel).tryRecv_keepsHandles _ none) (List.forall_mem_nil _)
        (.of_subset thread (by simp [State.withFrame, hstack]))
  | parksReceiver thread focus channel frame rest hstack hframe =>
      refine iff_of_true ?_ (.of_idle rfl rfl rfl)
      refine hlive.steps (live_update ?_) rfl rfl rfl rfl (hpassed thread (by simp [hstack]))
      rw [hframe]
      exact id
  | awaits thread focus child source rest hstack htask hdone parked hparked =>
      subst parked
      refine hlive.schedules_iff (fun handle => ?_) rfl rfl rfl rfl (by simp [hstack]) hdone rfl rfl
        (by simp [State.reschedules?, htask])
      exact (State.live_withFrame _ child (by rfl) handle).trans
        (state.live_withFrame focus (by rfl) handle)
  | continues thread focus source rest hstack hready =>
      obtain ⟨hstacks, hchannels, hqueue, hsleepers⟩ := state.awaitResume_eq focus source
      refine iff_of_true ?_ ⟨by simp [State.destroys?], by simp [Action.stops],
        fun handle hmem hdone => ?_⟩
      · refine hlive.steps (fun handle hold => ?_)
          (hstacks.trans (Function.update_eq_self thread state.callStacks).symm) hqueue hsleepers
          hchannels (hpassed thread (List.Subset.refl _))
        obtain ⟨result, hframe⟩ := state.awaitResume_frame focus source handle
        rw [hframe]
        exact hold
      · rw [hready handle (Option.join_eq_some_iff.mp hmem)] at hdone
        cases hdone
  | finishes thread focus op rest ending tasks hstack hop hvoid hvalue =>
      apply iff_of_true
      · refine hlive.steps (live_update ?_) rfl rfl rfl rfl (hpassed thread (by simp [hstack]))
        cases ending <;> exact id
      · refine .of_none rfl rfl fun handle hmem => ?_
        cases op with
        | awaitTask source => exact absurd rfl (hop source)
        | _ => cases hmem

omit [DecidableEq Thread] [DecidableEq Chan] in
theorem onlyLive_initial (capacity : Chan → Nat) :
    OnlyLive (initial capacity : State Thread V Chan) := by
  rintro handle (hqueued | hsleeping | ⟨channel, hwaiting⟩ | ⟨thread, hheld⟩)
  · cases hqueued
  · cases hsleeping
  · cases hwaiting
  · cases hheld

/-- A run refers to live frames only, if and only if every step of it respects
the references. -/
theorem onlyLive_along_iff (capacity : Chan → Nat) (actions : List (Action Thread V Chan)) :
    (machine Thread V Chan capacity).Along OnlyLive (initial capacity) actions ↔
      (machine Thread V Chan capacity).Meets RespectsReferences (initial capacity) actions := by
  apply Machine.along_iff_meets fun _ => True
  · intro _ _ _ _ _ _ _
    trivial
  · intro state action next _ hlive hstep
    exact (moves_of_step hstep).onlyLive_iff hlive
  · trivial
  · exact onlyLive_initial capacity

/-- A coroutine created by `go` returns a task whose body yields. `run` finds the
outer coroutine done and destroys it, and the task in its result with it, while
the inner coroutine is in the queue. -/
theorem queued_frame_destroyed_run :
    ¬ (machine Unit Nat Unit fun _ => 1).Along OnlyLive (initial fun _ => 1)
      [.code () (.create 0 false), .code () (.create 1 true), .body () .yield, .proceed (),
        .proceed (), .proceed (), .body () (.returnTask 1), .code () (.runTask 0), .proceed (),
        .proceed (), .proceed (), .proceed ()] := by
  intro halong
  have hlast := halong.last rfl
  exact absurd (hlast 1 (.queued (by decide))) (by decide)

end Runs

end Tang.Runtime
