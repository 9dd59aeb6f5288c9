import Tang.Foundation.Family
import Tang.Runtime.Moves

/-! # One body for one coroutine

Whatever the scheduler does, the body of a coroutine is on one stack at most,
and only while the coroutine is running: `resume()` puts it there when the
coroutine is suspended, and it leaves when the coroutine suspends or ends.
-/

namespace Tang.Runtime

open Foundation Effect

variable {Thread V Chan : Type}

/-! ## Suspended and running frames -/

namespace Frame

/-- The coroutine is suspended before its final suspension. -/
def suspended (frame : Frame V Chan) : Bool :=
  match frame.status with
  | .suspended _ => true
  | .unborn | .running | .finished => false

def running (frame : Frame V Chan) : Bool :=
  match frame.status with
  | .running => true
  | .unborn | .suspended _ | .finished => false

theorem suspended_of_running (frame : Frame V Chan) (hrunning : frame.running = true) :
    frame.suspended = false := by
  unfold running at hrunning
  unfold suspended
  split at hrunning
  next hstatus => rw [hstatus]
  next => cases hrunning
  next => cases hrunning
  next => cases hrunning

theorem suspended_of_status {frame : Frame V Chan} {point : Point V Chan}
    (hstatus : frame.status = .suspended point) : frame.suspended = true := by
  simp [suspended, hstatus]

theorem running_of_status {frame : Frame V Chan} {point : Point V Chan}
    (hstatus : frame.status = .suspended point) : frame.running = false := by
  simp [running, hstatus]

/-- Nothing happened to the frame that matters for its resumption. -/
structure Alike (before after : Frame V Chan) : Prop where
  suspended : after.suspended = before.suspended
  running : after.running = before.running
  resumes : after.resumes = before.resumes

theorem Alike.refl (frame : Frame V Chan) : Alike frame frame := ⟨rfl, rfl, rfl⟩

theorem alike_of_ne {frames : Handle → Frame V Chan} {frame : Frame V Chan}
    {focus other : Handle} (hne : other ≠ focus) :
    (frames other).Alike (Function.update frames focus frame other) := by
  rw [Function.update_of_ne hne]
  exact .refl _

theorem alike_begin {frame begun : Frame V Chan}
    (hbegun : begun = { frame with serial := frame.serial + 1 }) : Alike frame begun := by
  rw [hbegun]
  exact ⟨rfl, rfl, rfl⟩

theorem alike_absorb (frame : Frame V Chan) (handle : Handle) (effects : List (Signal V)) :
    Alike frame (frame.absorb handle effects) := by
  cases hstatus : frame.status with
  | suspended point =>
      cases point <;> constructor <;>
        simp [Frame.absorb, Frame.suspended, Frame.running, Status.absorb, hstatus]
  | _ => constructor <;> simp [Frame.absorb, Frame.suspended, Frame.running, Status.absorb, hstatus]

end Frame

section Frames

variable {state : State Thread V Chan}

theorem State.alike_withFrame {focus : Handle} {frame : Frame V Chan}
    (hframe : (state.frames focus).Alike frame) (handle : Handle) :
    (state.frames handle).Alike ((state.withFrame focus frame).frames handle) :=
  (Function.forall_update_iff state.frames fun other after => (state.frames other).Alike after).mpr
    ⟨hframe, fun _ _ => .refl _⟩ handle

theorem State.alike_awaitResume (parent : Handle) (source : Nat) (handle : Handle) :
    (state.frames handle).Alike ((state.awaitResume parent source).frames handle) := by
  obtain ⟨result, hframe⟩ := state.awaitResume_frame parent source handle
  rw [hframe]
  exact ⟨rfl, rfl, rfl⟩

/-- Resuming a suspended coroutine puts its body on the stack and sets it running;
resuming any other one starts no body. -/
theorem State.resume_running [DecidableEq Thread] (state : State Thread V Chan) (thread : Thread)
    (focus : Handle) (rest : List (Activity V Chan)) :
    ((state.frames focus).running = false ∧
        ((state.resume thread focus rest).frames focus).running = true ∧
        (∀ other, other ≠ focus → ((state.resume thread focus rest).frames other).running =
          (state.frames other).running) ∧
        (state.resume thread focus rest).callStacks =
          Function.update state.callStacks thread (.body focus :: .afterResume focus :: rest)) ∨
      ((∀ other, ((state.resume thread focus rest).frames other).running =
          (state.frames other).running) ∧
        (state.resume thread focus rest).callStacks =
          Function.update state.callStacks thread (.afterResume focus :: rest)) := by
  rcases state.resume_cases thread focus rest with
    ⟨point, hstatus, _, hnext⟩ | ⟨source, hstatus, hnext⟩ | ⟨_, hnext⟩
  · rw [hnext]
    refine Or.inl ⟨Frame.running_of_status hstatus, ?_,
      fun other hne => (Frame.alike_of_ne hne).running, rfl⟩
    simp [State.withStack, State.withFrame, Frame.wake, Frame.running]
  · rw [hnext]
    -- Picking up the result changes neither who runs nor any stack.
    have hpicked := (state.withFrame focus (state.frames focus).wake).alike_awaitResume focus source
    have hstacks :=
      ((state.withFrame focus (state.frames focus).wake).awaitResume_eq focus source).1
    refine Or.inl ⟨Frame.running_of_status hstatus, (hpicked focus).running.trans ?_,
      fun other hne => (hpicked other).running.trans (Frame.alike_of_ne hne).running,
      congrArg (Function.update · thread _) hstacks⟩
    simp [State.withFrame, Frame.wake, Frame.running]
  · rw [hnext]
    refine Or.inr ⟨fun other => ?_, rfl⟩
    by_cases heq : other = focus
    · subst other
      simp [State.withStack, State.withFrame, Frame.running]
    · exact (Frame.alike_of_ne heq).running

end Frames

/-! ## Bodies on the stacks -/

/-- The coroutine whose body the activity is. -/
@[simp] def Activity.runs? : Activity V Chan → Option Handle
  | .body handle => some handle
  | .afterResume _ | .popped _ | .resuming _ | .scheduling _ | .starting _ | .enqueuing _ => none
  | .completing | .decrementing | .registeringSend _ _ _ | .registeringRecv _ _ => none
  | .flushing _ | .destroying _ => none

/-- The occurrences of the body of a coroutine on one stack. -/
def executing (handle : Handle) (stack : List (Activity V Chan)) : Nat :=
  (stack.filterMap Activity.runs?).count handle

@[simp] theorem executing_nil (handle : Handle) :
    executing handle ([] : List (Activity V Chan)) = 0 := rfl

@[simp] theorem executing_cons (handle : Handle) (activity : Activity V Chan)
    (stack : List (Activity V Chan)) :
    executing handle (activity :: stack) =
      activity.runs?.toList.count handle + executing handle stack := by
  simp only [executing, List.filterMap_eq_flatMap_toList, List.flatMap_cons, List.count_append]

@[simp] theorem executing_append (handle : Handle) (above below : List (Activity V Chan)) :
    executing handle (above ++ below) = executing handle above + executing handle below := by
  simp [executing]

@[simp] theorem executing_map_scheduling (handle : Handle) (handles : List Handle) :
    executing handle (handles.map (Activity.scheduling : Handle → Activity V Chan)) = 0 := by
  simp [executing, List.filterMap_map, Function.comp_def]

theorem executing_of_destroysOnly {activities : List (Activity V Chan)}
    (hdestroys : DestroysOnly activities) (handle : Handle) :
    executing handle activities = 0 := by
  refine List.count_eq_zero.mpr fun hmem => ?_
  obtain ⟨activity, hactivity, hruns⟩ := List.mem_filterMap.mp hmem
  rcases hdestroys activity hactivity with rfl | ⟨_, rfl⟩ <;> cases hruns

theorem Follows.executing {activity : Activity V Chan} {after : List (Activity V Chan)}
    (hfollows : Follows activity after) (handle : Handle) :
    executing handle after = 0 := by
  cases hfollows <;> simp

section Bodies

variable [Fintype Thread]

/-- The stacks on which the body of a coroutine is. -/
def bodies (state : State Thread V Chan) (handle : Handle) : Nat :=
  total (executing handle) state.callStacks

/-- The body of the coroutine runs once at most, and only while the coroutine is
running. -/
def RunsOnce (state : State Thread V Chan) (handle : Handle) : Prop :=
  bodies state handle ≤ if (state.frames handle).running then 1 else 0

variable {state next : State Thread V Chan} {handle focus : Handle} {thread : Thread}
  {stack rest : List (Activity V Chan)}

namespace RunsOnce

/-- A coroutine whose body is on top of a stack is running, there only. -/
theorem of_body (hruns : RunsOnce state focus)
    (hstack : state.callStacks thread = .body focus :: rest) :
    (state.frames focus).running = true ∧ bodies state focus = 1 := by
  have hexecuting : executing focus (state.callStacks thread) ≤ bodies state focus :=
    le_total (executing focus) state.callStacks thread
  simp only [hstack, executing_cons, Activity.runs?, Option.toList_some,
    List.count_singleton_self] at hexecuting
  unfold RunsOnce at hruns
  have hrunning : (state.frames focus).running = true := by
    by_contra hnot
    rw [if_neg hnot] at hruns
    omega
  rw [if_pos hrunning] at hruns
  exact ⟨hrunning, by omega⟩

variable [DecidableEq Thread]

theorem keeps (hruns : RunsOnce state handle)
    (hframe : (next.frames handle).running = (state.frames handle).running)
    (hstacks : next.callStacks = Function.update state.callStacks thread stack)
    (hexecuting : executing handle stack ≤ executing handle (state.callStacks thread)) :
    RunsOnce next handle := by
  have htotal := total_update (executing handle) state.callStacks thread stack
  unfold RunsOnce bodies at *
  rw [hframe, hstacks]
  omega

theorem leaves (hruns : RunsOnce state focus)
    (hstack : state.callStacks thread = .body focus :: rest)
    (hstacks : next.callStacks = Function.update state.callStacks thread stack)
    (hexecuting : executing focus stack ≤ executing focus rest) : RunsOnce next focus := by
  have htotal := total_update (executing focus) state.callStacks thread stack
  have honce := (hruns.of_body hstack).2
  simp only [hstack, executing_cons, Activity.runs?, Option.toList_some,
    List.count_singleton_self] at htotal
  unfold RunsOnce bodies at *
  rw [hstacks]
  exact (by omega : total (executing focus) _ = 0).trans_le (Nat.zero_le _)

theorem begins (hruns : RunsOnce state focus) (hstopped : (state.frames focus).running = false)
    (hrunning : (next.frames focus).running = true)
    (hstacks : next.callStacks = Function.update state.callStacks thread stack)
    (hexecuting : executing focus stack ≤ executing focus (state.callStacks thread) + 1) :
    RunsOnce next focus := by
  have htotal := total_update (executing focus) state.callStacks thread stack
  unfold RunsOnce bodies at *
  rw [hstopped] at hruns
  rw [hrunning, hstacks]
  simp only [Bool.false_eq_true, if_false, if_true] at hruns ⊢
  omega

/-- The body of `focus` leaves a stack, and other frames keep running or not. -/
theorem leaves_only (hruns : ∀ other, RunsOnce state other)
    (hstack : state.callStacks thread = .body focus :: rest)
    (hothers : ∀ other, other ≠ focus →
      (next.frames other).running = (state.frames other).running)
    (hstacks : next.callStacks = Function.update state.callStacks thread stack)
    (hexecuting : ∀ other, executing other stack = executing other rest) (handle : Handle) :
    RunsOnce next handle := by
  have hrest := hexecuting handle
  by_cases heq : handle = focus
  · subst handle
    exact (hruns focus).leaves hstack hstacks hrest.le
  · apply (hruns handle).keeps (hothers handle heq) hstacks
    rw [hstack, executing_cons]
    omega

end RunsOnce

variable [DecidableEq Thread] [DecidableEq Chan] {action : Action Thread V Chan}

theorem Moves.runsOnce (hmoves : Moves state action next)
    (hruns : ∀ handle, RunsOnce state handle) (handle : Handle) : RunsOnce next handle := by
  have hold := hruns handle
  cases hmoves with
  | follows thread activity rest after active hstack hafter =>
      have hexecuting := hafter.executing handle
      refine hold.keeps rfl rfl ?_
      simp only [hstack, executing_cons, executing_append]
      omega
  | reschedules thread focus rest hstack hdone => exact hold.keeps rfl rfl (by simp [hstack])
  | resumes thread focus rest hstack =>
      rcases state.resume_running thread focus rest with
        ⟨hidle, hbegins, hothers, hstacks⟩ | ⟨hsame, hstacks⟩
      · by_cases heq : handle = focus
        · subst handle
          exact hold.begins hidle hbegins hstacks (by simp [hstack, Nat.add_comm])
        · exact hold.keeps (hothers handle heq) hstacks (by simp [hstack, Ne.symm heq])
      · exact hold.keeps (hsame handle) hstacks (by simp [hstack])
  | enqueues thread focus rest hstack => exact hold.keeps rfl rfl (by simp [hstack])
  | destroys thread focus rest hstack =>
      have hframe : (state.frames focus).Alike { state.frames focus with live := false } :=
        ⟨rfl, rfl, rfl⟩
      refine hold.keeps (State.alike_withFrame hframe handle).running rfl ?_
      simp only [hstack]
      split <;> simp
  | registersSend thread focus channel value rest hstack =>
      exact hold.keeps (Frame.alike_absorb _ handle _).running rfl (by simp [hstack])
  | registersRecv thread focus channel rest hstack =>
      exact hold.keeps (Frame.alike_absorb _ handle _).running rfl (by simp [hstack])
  | flushes thread channel rest hstack =>
      apply hold.keeps (Frame.alike_absorb _ handle _).running rfl
      simp only [hstack, executing_append, executing_map_scheduling, executing_cons]
      omega
  | pops thread focus queue hstack hqueue => exact hold.keeps rfl rfl (by simp [hstack])
  | wakes thread focus hstack hsleeping => exact hold.keeps rfl rfl (by simp [hstack])
  | quits thread focus hstack => exact hold.keeps rfl rfl (by simp [hstack])
  | stops thread hcode =>
      refine hold.keeps ?_ (Function.update_eq_self thread state.callStacks).symm le_rfl
      simp only [State.clearQueue]
      split <;> rfl
  | creates thread focus void hcode hunborn =>
      by_cases heq : handle = focus
      · subst handle
        refine hold.begins (by simp [Frame.running, hunborn]) ?_ rfl (by simp [Nat.add_comm])
        simp [State.withStack, State.withFrame, Frame.created, Frame.running]
      · exact hold.keeps (Frame.alike_of_ne heq).running rfl (by simp [Ne.symm heq])
  | handles thread op tasks above hcode habove hready =>
      exact hold.keeps rfl rfl (by simp [executing_of_destroysOnly habove])
  | runs thread source focus active hcode htask hdone => exact hold.keeps rfl rfl (by simp)
  | trySend thread op channel value used hcode hop =>
      exact hold.keeps (Frame.alike_absorb _ handle _).running rfl (by simp)
  | tryRecv thread channel hcode =>
      exact hold.keeps (Frame.alike_absorb _ handle _).running rfl (by simp)
  | exchanges thread channel hcode above habove =>
      apply hold.keeps (Frame.alike_absorb _ handle _).running rfl
      rcases habove with rfl | rfl <;> simp
  | yields _ _ _ hstack | sleeps _ _ _ hstack | parksSender _ _ _ _ _ _ hstack
  | parksReceiver _ _ _ _ _ hstack | finishes _ _ _ _ _ _ hstack =>
      -- The body is gone from its stack, whatever the coroutine stopped at.
      exact RunsOnce.leaves_only hruns hstack (fun other hne => (Frame.alike_of_ne hne).running) rfl
        (by simp) handle
  | sends _ _ _ _ _ _ hstack hframe | receives _ _ _ _ _ hstack hframe =>
      exact hold.keeps ((Frame.alike_absorb _ handle _).running.trans
        (State.alike_withFrame (Frame.alike_begin hframe) handle).running) rfl (by simp [hstack])
  | awaits thread focus child source rest hstack htask hdone parked hparked =>
      -- Storing the continuation changes the frame of the child, which may be the parent's own.
      subst hparked
      refine RunsOnce.leaves_only hruns hstack (fun other heq => ?_) rfl (by simp) handle
      by_cases hchild : other = child
      · subst other
        simp [State.withStack, State.withFrame, heq, Frame.running]
      · simp [State.withStack, State.withFrame, heq, hchild]
  | continues thread focus source rest hstack hready =>
      have hstacks := (state.awaitResume_eq focus source).1
      refine hold.keeps (state.alike_awaitResume focus source handle).running
        (hstacks.trans (Function.update_eq_self thread state.callStacks).symm) le_rfl

omit [DecidableEq Thread] [DecidableEq Chan] in
theorem runsOnce_initial (capacity : Chan → Nat) (handle : Handle) :
    RunsOnce (initial capacity : State Thread V Chan) handle := by
  have hbodies : total (executing handle) (fun _ : Thread => ([] : List (Activity V Chan))) = 0 :=
    total_eq_zero fun _ => rfl
  exact hbodies.trans_le (Nat.zero_le _)

end Bodies

end Tang.Runtime
