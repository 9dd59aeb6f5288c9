import Tang.Runtime.Moves

/-! # Traffic between stacks, queue and counter

The steps of the runtime once more, now by what they do to the queue, to the
counter of active tasks, to the resume loops at the bottoms of the stacks and to
the calls of `schedule` on top. All steps that leave these alone share a case.
-/

namespace Tang.Runtime

open Foundation Effect

variable {Thread V Chan : Type}

/-- The thread whose step it is. -/
def Action.thread : Action Thread V Chan → Thread
  | .pop thread => thread
  | .proceed thread => thread
  | .code thread _ => thread
  | .body thread _ => thread
  | .wake thread _ => thread
  | .quit thread => thread
  | .stop thread => thread

/-! ## Resume loops and schedule calls on a stack -/

/-- At the bottom of a stack: the iteration of a resume loop. -/
def Activity.loops : Activity V Chan → Bool
  | .popped _ | .resuming _ | .afterResume _ | .completing | .decrementing => true
  | .body _ | .scheduling _ | .starting _ | .enqueuing _ | .registeringSend _ _ _
  | .registeringRecv _ _ | .flushing _ | .destroying _ => false

/-- `schedule` has counted the coroutine and not pushed it yet. -/
def Activity.pushes : Activity V Chan → Bool
  | .enqueuing _ => true
  | .body _ | .afterResume _ | .popped _ | .resuming _ | .scheduling _ | .starting _ | .completing
  | .decrementing | .registeringSend _ _ _ | .registeringRecv _ _ | .flushing _
  | .destroying _ => false

/-- A resume loop is at the bottom of the stack. -/
def looping (stack : List (Activity V Chan)) : Bool :=
  stack.getLast?.any Activity.loops

/-- The calls of `schedule` between `task_started` and the push. -/
def pushing (stack : List (Activity V Chan)) : Nat :=
  stack.countP Activity.pushes

@[simp] theorem looping_nil : looping ([] : List (Activity V Chan)) = false := rfl

@[simp] theorem looping_singleton (activity : Activity V Chan) :
    looping [activity] = activity.loops := rfl

@[simp] theorem pushing_nil : pushing ([] : List (Activity V Chan)) = 0 := rfl

@[simp] theorem pushing_cons (activity : Activity V Chan) (rest : List (Activity V Chan)) :
    pushing (activity :: rest) = pushing rest + activity.pushes.toNat := by
  cases hpushes : activity.pushes <;> simp [pushing, hpushes]

@[simp] theorem pushing_append (above rest : List (Activity V Chan)) :
    pushing (above ++ rest) = pushing above + pushing rest :=
  List.countP_append

/-- Only the bottom counts, so what is on top can be replaced by anything that
is no different at its own bottom. -/
theorem looping_append {before after : List (Activity V Chan)} (rest : List (Activity V Chan))
    (hsame : looping after = looping before) :
    looping (after ++ rest) = looping (before ++ rest) := by
  unfold looping at hsame ⊢
  rw [List.getLast?_append, List.getLast?_append]
  cases rest.getLast? with
  | none => exact hsame
  | some bottom => rfl

theorem looping_cons (top : Activity V Chan) (rest : List (Activity V Chan)) :
    looping (top :: rest) = (looping rest || (rest.isEmpty && top.loops)) := by
  cases rest with
  | nil => rfl
  | cons below bottom => simp [looping]

/-- What is on top of a resume loop does not hide it. -/
theorem looping_of_rest (top : Activity V Chan) {rest : List (Activity V Chan)}
    (hrest : looping rest = true) : looping (top :: rest) = true := by
  rw [looping_cons, hrest]
  rfl

/-- Activities that are no part of an iteration and hold no counted coroutine. -/
structure Quiet (activities : List (Activity V Chan)) : Prop where
  loops : looping activities = false
  pushes : pushing activities = 0

theorem Quiet.nil : Quiet ([] : List (Activity V Chan)) := ⟨rfl, rfl⟩

theorem Quiet.cons {activity : Activity V Chan} {rest : List (Activity V Chan)}
    (hrest : Quiet rest) (hloops : activity.loops = false) (hpushes : activity.pushes = false) :
    Quiet (activity :: rest) := by
  constructor
  · cases rest with
    | nil => exact hloops
    | cons below bottom => exact hrest.loops
  · rw [pushing_cons, hrest.pushes, hpushes]
    rfl

theorem Quiet.append {above below : List (Activity V Chan)} (habove : Quiet above)
    (hbelow : Quiet below) : Quiet (above ++ below) := by
  constructor
  · unfold looping
    rw [List.getLast?_append]
    cases hbottom : below.getLast? with
    | none => exact habove.loops
    | some bottom => simpa [looping, hbottom] using hbelow.loops
  · rw [pushing_append, habove.pushes, hbelow.pushes]

theorem quiet_map {A : Type} {build : A → Activity V Chan} (hloops : ∀ a, (build a).loops = false)
    (hpushes : ∀ a, (build a).pushes = false) (items : List A) : Quiet (items.map build) := by
  induction items with
  | nil => exact Quiet.nil
  | cons item rest ih => exact ih.cons (hloops item) (hpushes item)

theorem quiet_scheduling (handles : List Handle) :
    Quiet (handles.map (Activity.scheduling : Handle → Activity V Chan)) :=
  quiet_map (fun _ => rfl) (fun _ => rfl) handles

theorem quiet_destroying (handles : List Handle) :
    Quiet (handles.map (Activity.destroying : Handle → Activity V Chan)) :=
  quiet_map (fun _ => rfl) (fun _ => rfl) handles

/-! ## What a step does to the handles in flight -/

section Steps

variable [DecidableEq Thread]

/-- What a step of one thread leaves of its stack, the queue and the counter. -/
structure Leaves (state next : State Thread V Chan) (thread : Thread)
    (stack : List (Activity V Chan)) (queue : List Handle) (active : Int) : Prop where
  stack_eq : next.callStacks = Function.update state.callStacks thread stack
  queue_eq : next.taskQueue = queue
  active_eq : next.activeTasks = active

/-- What a step can do to the stacks, the queue and the counter. -/
inductive Traffic (state next : State Thread V Chan) : Action Thread V Chan → Prop
  | pops (thread : Thread) (handle : Handle) (queue : List Handle)
      (hstack : state.callStacks thread = []) (hqueue : state.taskQueue = handle :: queue)
      (hleaves : Leaves state next thread [.popped handle] queue state.activeTasks) :
      Traffic state next (.pop thread)
  | starts (thread : Thread) (handle : Handle) (rest : List (Activity V Chan))
      (hstack : state.callStacks thread = .starting handle :: rest)
      (hleaves : Leaves state next thread (.enqueuing handle :: rest) state.taskQueue
        (state.activeTasks + 1)) :
      Traffic state next (.proceed thread)
  | pushes (thread : Thread) (handle : Handle) (rest : List (Activity V Chan))
      (hstack : state.callStacks thread = .enqueuing handle :: rest)
      (hleaves : Leaves state next thread rest (state.taskQueue ++ [handle]) state.activeTasks) :
      Traffic state next (.proceed thread)
  | decrements (thread : Thread) (rest : List (Activity V Chan))
      (hstack : state.callStacks thread = .decrementing :: rest)
      (hleaves : Leaves state next thread rest state.taskQueue (state.activeTasks - 1)) :
      Traffic state next (.proceed thread)
  /-- `task_completed` finds the counter at zero. -/
  | clamps (thread : Thread) (rest : List (Activity V Chan))
      (hstack : state.callStacks thread = .completing :: rest) (hactive : state.activeTasks ≤ 0)
      (hleaves : Leaves state next thread rest state.taskQueue state.activeTasks) :
      Traffic state next (.proceed thread)
  /-- The resume loop schedules the coroutine again. -/
  | reschedules (thread : Thread) (handle : Handle) (rest : List (Activity V Chan))
      (hstack : state.callStacks thread = .afterResume handle :: rest)
      (hdone : (state.frames handle).done = false)
      (hleaves : Leaves state next thread (.scheduling handle :: rest) state.taskQueue
        state.activeTasks) :
      Traffic state next (.proceed thread)
  | quits (thread : Thread) (handle : Handle)
      (hstack : state.callStacks thread = [.popped handle])
      (hleaves : Leaves state next thread [] state.taskQueue state.activeTasks) :
      Traffic state next (.quit thread)
  | stops (thread : Thread)
      (hleaves : Leaves state next thread (state.callStacks thread) [] 0) :
      Traffic state next (.stop thread)
  /-- `run` on a task whose coroutine is not done. -/
  | runs (thread : Thread) (source : Nat) (handle : Handle) (started : Nat)
      (htask : state.tasks[source]? = some (some handle))
      (hdone : (state.frames handle).done = false)
      (hstarted : started = if (state.frames handle).void then 0 else 1)
      (hleaves : Leaves state next thread (.scheduling handle :: state.callStacks thread)
        state.taskQueue (state.activeTasks + started)) :
      Traffic state next (.code thread (.runTask source))
  /-- Queue and counter are not involved. -/
  | turns (action : Action Thread V Chan) (before after rest : List (Activity V Chan))
      (hstack : state.callStacks action.thread = before ++ rest)
      (hloops : looping after = looping before) (hpushes : pushing after = pushing before)
      (hpops : ∀ thread, action ≠ .pop thread)
      (hleaves : Leaves state next action.thread (after ++ rest) state.taskQueue
        state.activeTasks) :
      Traffic state next action

variable {state next : State Thread V Chan} {thread : Thread}

/-- A step that replaces an activity on top by quiet ones is not involved. -/
theorem Traffic.proceeds {activity : Activity V Chan} {rest after : List (Activity V Chan)}
    (hstack : state.callStacks thread = activity :: rest) (hpushes : activity.pushes = false)
    (hafter : Quiet after) (hloops : activity.loops = false)
    (hleaves : Leaves state next thread (after ++ rest) state.taskQueue state.activeTasks) :
    Traffic state next (.proceed thread) := by
  refine .turns _ [activity] after rest hstack ?_ ?_ nofun hleaves
  · rw [hafter.loops, looping_singleton, hloops]
  · rw [hafter.pushes, pushing_cons, hpushes]
    rfl

/-- A step of a resume loop within its iteration is not involved either. -/
theorem Traffic.iterates {activity successor : Activity V Chan}
    {above rest : List (Activity V Chan)}
    (hstack : state.callStacks thread = activity :: rest) (hpushes : activity.pushes = false)
    (hloops : activity.loops = true) (hsuccessor : successor.loops = true)
    (hquiet : successor.pushes = false) (habove : Quiet above)
    (hleaves : Leaves state next thread (above ++ successor :: rest) state.taskQueue
      state.activeTasks) :
    Traffic state next (.proceed thread) := by
  rw [List.append_cons] at hleaves
  refine .turns _ [activity] (above ++ [successor]) rest hstack ?_ ?_ nofun hleaves
  · simpa [looping, hloops] using hsuccessor
  · simp [habove.pushes, hpushes, hquiet]

/-- Code puts quiet activities on top of its stack, except for `run` on a task
whose coroutine is not done. -/
theorem Traffic.code {op : CodeOp V Chan} {above : List (Activity V Chan)} (habove : Quiet above)
    (hleaves : Leaves state next thread (above ++ state.callStacks thread) state.taskQueue
      state.activeTasks) :
    Traffic state next (.code thread op) :=
  .turns _ [] above (state.callStacks thread) rfl habove.loops habove.pushes nofun hleaves

/-- A body is replaced by quiet activities. -/
theorem Traffic.body {handle : Handle} {rest above : List (Activity V Chan)} {op : BodyOp V Chan}
    (hstack : state.callStacks thread = .body handle :: rest) (habove : Quiet above)
    (hleaves : Leaves state next thread (above ++ rest) state.taskQueue state.activeTasks) :
    Traffic state next (.body thread op) :=
  .turns _ [.body handle] above rest hstack habove.loops habove.pushes nofun hleaves

omit [DecidableEq Thread] in
theorem State.awaitResume_activeTasks (state : State Thread V Chan) (parent : Handle)
    (source : Nat) : (state.awaitResume parent source).activeTasks = state.activeTasks := by
  unfold State.awaitResume
  split <;> rfl

/-- A resumed body is on top of the resume loop; otherwise the loop is there. -/
theorem State.resume_leaves (state : State Thread V Chan) (thread : Thread) (handle : Handle)
    (rest : List (Activity V Chan)) :
    ∃ above, Quiet above ∧ Leaves state (state.resume thread handle rest) thread
      (above ++ .afterResume handle :: rest) state.taskQueue state.activeTasks := by
  have hbody : Quiet [(.body handle : Activity V Chan)] := ⟨rfl, rfl⟩
  rcases state.resume_cases thread handle rest with
    ⟨_, _, _, hresume⟩ | ⟨source, _, hresume⟩ | ⟨_, hresume⟩
  · exact ⟨_, hbody, by rw [hresume]; exact ⟨rfl, rfl, rfl⟩⟩
  · refine ⟨_, hbody, ?_⟩
    obtain ⟨hstacks, _, hqueue, _⟩ :=
      (state.withFrame handle (state.frames handle).wake).awaitResume_eq handle source
    rw [hresume]
    refine ⟨?_, hqueue, State.awaitResume_activeTasks _ handle source⟩
    simp only [State.withStack, hstacks]
    rfl
  · exact ⟨[], Quiet.nil, by rw [hresume]; exact ⟨rfl, rfl, rfl⟩⟩

theorem State.destroy_leaves (state : State Thread V Chan) (thread : Thread) (handle : Handle)
    (rest : List (Activity V Chan)) :
    ∃ nested, Quiet nested ∧ Leaves state (state.destroy thread handle rest) thread
      (nested ++ rest) state.taskQueue state.activeTasks := by
  unfold State.destroy
  dsimp only
  split
  next inner _ => exact ⟨[.destroying inner], quiet_destroying [inner], rfl, rfl, rfl⟩
  next => exact ⟨[], Quiet.nil, rfl, rfl, rfl⟩

variable [DecidableEq Chan]

/-- A section of a channel puts schedule calls on top of the stack. -/
theorem State.calls_leaves {R : Type} (base : State Thread V Chan) (thread : Thread)
    (channel : Chan) (out : Answered V R) (rest : List (Activity V Chan)) :
    Leaves base (base.calls thread channel out rest) thread
      ((schedules out.effects).map .scheduling ++ rest) base.taskQueue base.activeTasks :=
  ⟨rfl, rfl, rfl⟩

theorem traffic_of_activity {activity : Activity V Chan} {rest : List (Activity V Chan)}
    (hstack : state.callStacks thread = activity :: rest)
    (hstep : state.activity thread rest activity = some next) :
    Traffic state next (.proceed thread) := by
  cases activity with
  | body handle => cases hstep
  | popped handle =>
      simp only [State.activity] at hstep
      split at hstep
      next =>
        cases hstep
        exact .iterates hstack rfl rfl rfl rfl Quiet.nil ⟨rfl, rfl, rfl⟩
      next =>
        cases hstep
        exact .iterates hstack rfl rfl rfl rfl Quiet.nil ⟨rfl, rfl, rfl⟩
  | resuming handle =>
      cases hstep
      obtain ⟨above, hquiet, hleaves⟩ := state.resume_leaves thread handle rest
      exact .iterates hstack rfl rfl rfl rfl hquiet hleaves
  | afterResume handle =>
      simp only [State.activity] at hstep
      split at hstep
      next =>
        cases hstep
        exact .iterates hstack rfl rfl rfl rfl Quiet.nil ⟨rfl, rfl, rfl⟩
      next hdone =>
        cases hstep
        exact .reschedules thread handle rest hstack (by simpa using hdone) ⟨rfl, rfl, rfl⟩
  | scheduling handle =>
      simp only [State.activity] at hstep
      split at hstep
      next =>
        cases hstep
        exact .proceeds hstack rfl Quiet.nil rfl ⟨rfl, rfl, rfl⟩
      next =>
        cases hstep
        have hstarting : Quiet [(.starting handle : Activity V Chan)] := ⟨rfl, rfl⟩
        exact .proceeds hstack rfl hstarting rfl ⟨rfl, rfl, rfl⟩
  | starting handle =>
      cases hstep
      exact .starts thread handle rest hstack ⟨rfl, rfl, rfl⟩
  | enqueuing handle =>
      cases hstep
      exact .pushes thread handle rest hstack ⟨rfl, rfl, rfl⟩
  | completing =>
      simp only [State.activity] at hstep
      split at hstep
      next =>
        cases hstep
        exact .iterates hstack rfl rfl rfl rfl Quiet.nil ⟨rfl, rfl, rfl⟩
      next hactive =>
        cases hstep
        exact .clamps thread rest hstack (Int.not_lt.mp hactive) ⟨rfl, rfl, rfl⟩
  | decrementing =>
      cases hstep
      exact .decrements thread rest hstack ⟨rfl, rfl, rfl⟩
  | registeringSend handle channel value =>
      cases hstep
      exact .proceeds hstack rfl (quiet_scheduling _) rfl (state.calls_leaves thread channel _ rest)
  | registeringRecv handle channel =>
      cases hstep
      exact .proceeds hstack rfl (quiet_scheduling _) rfl (state.calls_leaves thread channel _ rest)
  | flushing channel =>
      cases hstep
      exact .proceeds hstack rfl (quiet_scheduling _) rfl (state.calls_leaves thread channel _ rest)
  | destroying handle =>
      cases hstep
      obtain ⟨nested, hquiet, hleaves⟩ := state.destroy_leaves thread handle rest
      exact .proceeds hstack rfl hquiet rfl hleaves

theorem traffic_of_code {op : CodeOp V Chan} (hstep : state.code thread op = some next) :
    Traffic state next (.code thread op) := by
  have hself : ∀ tasks, Traffic state { state with tasks := tasks } (.code thread op) := by
    intro tasks
    apply Traffic.code Quiet.nil
    exact ⟨(Function.update_eq_self thread state.callStacks).symm, rfl, rfl⟩
  cases op with
  | create handle void =>
      simp only [State.code] at hstep
      split at hstep
      next =>
        cases hstep
        have hbody : Quiet [(.body handle : Activity V Chan)] := ⟨rfl, rfl⟩
        exact .code hbody ⟨rfl, rfl, rfl⟩
      next => cases hstep
  | moveTask source =>
      obtain ⟨owned, _, rfl⟩ := Option.map_eq_some_iff.mp hstep
      exact hself _
  | assignTask target source =>
      simp only [State.code] at hstep
      split at hstep
      next =>
        cases hstep
        exact hself state.tasks
      next =>
        split at hstep
        next old owned _ _ =>
          cases hstep
          exact .code (quiet_destroying old.toList) ⟨rfl, rfl, rfl⟩
        next => cases hstep
  | dropTask source =>
      obtain ⟨owned, _, rfl⟩ := Option.map_eq_some_iff.mp hstep
      exact .code (quiet_destroying owned.toList) ⟨rfl, rfl, rfl⟩
  | runTask source =>
      simp only [State.code] at hstep
      split at hstep
      next => cases hstep
      next =>
        cases hstep
        exact hself state.tasks
      next handle htask =>
        split at hstep
        next =>
          cases hstep
          -- `handle.destroy()` is below `task_completed`, so no loop is at the bottom.
          have hrun : Quiet [(.completing : Activity V Chan), .destroying handle] := ⟨rfl, rfl⟩
          exact .code hrun ⟨rfl, rfl, rfl⟩
        next hdone =>
          cases hstep
          refine .runs thread source handle _ htask (by simpa using hdone) rfl ⟨rfl, rfl, ?_⟩
          split <;> rfl
  | trySend channel value =>
      cases hstep
      exact .code (quiet_scheduling _) (state.calls_leaves thread channel _ _)
  | trySendMove channel value =>
      cases hstep
      exact .code (quiet_scheduling _) (state.calls_leaves thread channel _ _)
  | tryRecv channel =>
      cases hstep
      exact .code (quiet_scheduling _) (state.calls_leaves thread channel _ _)
  | close channel =>
      simp only [State.code] at hstep
      split at hstep
      next =>
        cases hstep
        exact .code (quiet_scheduling _) (state.calls_leaves thread channel _ _)
      next =>
        cases hstep
        have hflush : Quiet [(.flushing channel : Activity V Chan)] := ⟨rfl, rfl⟩
        exact .code hflush ⟨rfl, rfl, rfl⟩

/-- A section after which the body goes on, or begins to register a waiter. -/
theorem Traffic.attempts {handle : Handle} {rest : List (Activity V Chan)}
    {activity : Activity V Chan} {op : BodyOp V Chan} {R : Type} {channel : Chan}
    {out : Answered V R} (hstack : state.callStacks thread = .body handle :: rest)
    (frame : Frame V Chan) (hactivity : Quiet [activity]) :
    Traffic state ((state.withFrame handle frame).calls thread channel out (activity :: rest))
      (.body thread op) := by
  apply Traffic.body hstack ((quiet_scheduling (schedules out.effects)).append hactivity)
  rw [← List.append_cons]
  exact ⟨rfl, rfl, rfl⟩

theorem Moves.traffic_of_body {op : BodyOp V Chan} (hmoves : Moves state (.body thread op) next) :
    Traffic state next (.body thread op) := by
  cases hmoves with
  | yields _ handle rest hstack =>
      exact .body hstack (quiet_scheduling [handle]) ⟨rfl, rfl, rfl⟩
  | sleeps _ handle rest hstack => exact .body hstack Quiet.nil ⟨rfl, rfl, rfl⟩
  | sends _ handle channel value frame rest hstack _ => exact .attempts hstack frame ⟨rfl, rfl⟩
  | parksSender _ handle channel value frame rest hstack _ =>
      have hregisters : Quiet [(.registeringSend handle channel value : Activity V Chan)] :=
        ⟨rfl, rfl⟩
      exact .body hstack hregisters ⟨rfl, rfl, rfl⟩
  | receives _ handle channel frame rest hstack _ => exact .attempts hstack frame ⟨rfl, rfl⟩
  | parksReceiver _ handle channel frame rest hstack _ =>
      have hregisters : Quiet [(.registeringRecv handle channel : Activity V Chan)] := ⟨rfl, rfl⟩
      exact .body hstack hregisters ⟨rfl, rfl, rfl⟩
  | awaits _ handle child source rest hstack _ _ parked hparked =>
      subst parked
      exact .body hstack (quiet_scheduling [child]) ⟨rfl, rfl, rfl⟩
  | continues _ handle source rest hstack _ =>
      obtain ⟨hstacks, _, hqueue, _⟩ := state.awaitResume_eq handle source
      refine .turns _ [] [] (state.callStacks thread) rfl rfl rfl nofun
        ⟨?_, hqueue, state.awaitResume_activeTasks handle source⟩
      exact hstacks.trans (Function.update_eq_self thread state.callStacks).symm
  | finishes _ handle op rest ending tasks hstack _ _ _ =>
      exact .body hstack Quiet.nil ⟨rfl, rfl, rfl⟩

theorem traffic_of_step {capacity : Chan → Nat} {action : Action Thread V Chan}
    (hstep : (machine Thread V Chan capacity).step state action = some next) :
    Traffic state next action := by
  have hmoves := moves_of_step hstep
  change step state action = some next at hstep
  cases action with
  | pop thread =>
      cases hmoves with
      | pops _ handle queue hstack hqueue =>
          exact .pops thread handle queue hstack hqueue ⟨rfl, rfl, rfl⟩
  | proceed thread =>
      simp only [step] at hstep
      split at hstep
      next activity rest hstack => exact traffic_of_activity hstack hstep
      next => cases hstep
  | code thread op =>
      simp only [step] at hstep
      split at hstep
      next => exact traffic_of_code hstep
      next => cases hstep
  | body thread op => exact hmoves.traffic_of_body
  | wake thread handle =>
      cases hmoves with
      | wakes _ _ hstack _ =>
          exact .turns _ [] [.scheduling handle] [] hstack rfl rfl (by simp) ⟨rfl, rfl, rfl⟩
  | quit thread =>
      cases hmoves with
      | quits _ handle hstack => exact .quits thread handle hstack ⟨rfl, rfl, rfl⟩
  | stop thread =>
      cases hmoves with
      | stops _ _ =>
          exact .stops thread ⟨(Function.update_eq_self thread state.callStacks).symm, rfl, rfl⟩

end Steps

end Tang.Runtime
