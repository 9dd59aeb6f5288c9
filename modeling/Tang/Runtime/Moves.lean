import Tang.Runtime.Basic
import Tang.Channel.Laws

/-! # Inversion of a runtime step

The steps of the runtime in the shapes in which later modules reason about
them. Steps that only replace the activity on top of one stack share a case, and
so do the operations on task objects, and the ways in which a body ends.
-/

namespace Tang.Runtime

open Foundation Effect

variable {Thread V Chan : Type}

/-- What an activity is replaced by when nothing but its own thread and the
counter of active tasks is involved. -/
inductive Follows : Activity V Chan → List (Activity V Chan) → Prop
  | poppedDone (handle : Handle) : Follows (.popped handle) [.completing]
  | popped (handle : Handle) : Follows (.popped handle) [.resuming handle]
  | ranDone (handle : Handle) : Follows (.afterResume handle) [.completing]
  | scheduledDone (handle : Handle) : Follows (.scheduling handle) []
  | scheduled (handle : Handle) : Follows (.scheduling handle) [.starting handle]
  | started (handle : Handle) : Follows (.starting handle) [.enqueuing handle]
  | completes : Follows .completing [.decrementing]
  | completesNone : Follows .completing []
  | decremented : Follows .decrementing []

/-- What an operation on task objects puts on the stack. -/
def DestroysOnly (activities : List (Activity V Chan)) : Prop :=
  ∀ activity ∈ activities, activity = .completing ∨ ∃ handle, activity = .destroying handle

/-! ## Sections without effects -/

@[simp] theorem Status.absorb_nil (status : Status V Chan) (ticket : Option Ticket) :
    status.absorb ticket [] = status := by
  cases status with
  | suspended point => cases point <;> simp [Status.absorb, latest]
  | _ => rfl

@[simp] theorem Frame.absorb_nil (frame : Frame V Chan) (handle : Handle) :
    frame.absorb handle [] = frame := by
  simp [Frame.absorb]

/-- `await_resume` moves the result and nothing else. -/
theorem Frame.awaitResume_frame (frame : Frame V Chan) :
    ∃ result, frame.awaitResume.2 = { frame with result := result } := by
  unfold awaitResume
  split
  · exact ⟨frame.result, rfl⟩
  · split
    · exact ⟨frame.result, rfl⟩
    · split
      · exact ⟨_, rfl⟩
      · exact ⟨_, rfl⟩
      · exact ⟨frame.result, rfl⟩

theorem State.awaitResume_frame (state : State Thread V Chan) (parent : Handle) (source : Nat)
    (handle : Handle) : ∃ result, (state.awaitResume parent source).frames handle =
      { state.frames handle with result := result } := by
  unfold State.awaitResume
  split
  next child _ =>
    by_cases heq : handle = child
    · subst handle
      obtain ⟨result, hframe⟩ := (state.frames child).awaitResume_frame
      exact ⟨result, by simp [State.withFrame, hframe]⟩
    · exact ⟨(state.frames handle).result, by simp [State.withFrame, heq]⟩
  next => exact ⟨(state.frames handle).result, rfl⟩

/-- `await_resume` of a task touches frames, task objects and receipts only. -/
theorem State.awaitResume_eq (state : State Thread V Chan) (parent : Handle) (source : Nat) :
    (state.awaitResume parent source).callStacks = state.callStacks ∧
      (state.awaitResume parent source).channels = state.channels ∧
      (state.awaitResume parent source).taskQueue = state.taskQueue ∧
      (state.awaitResume parent source).sleepers = state.sleepers := by
  unfold State.awaitResume
  split <;> exact ⟨rfl, rfl, rfl, rfl⟩

/-- The frame of a suspended coroutine after a call of `resume()`. -/
def Frame.wake (frame : Frame V Chan) : Frame V Chan :=
  { frame with status := .running, resumes := frame.resumes + 1 }

variable [DecidableEq Thread]

/-- A resumed coroutine continues with its body, and picks up the result when it
was waiting for a task; a call on any other coroutine only counts. -/
theorem State.resume_cases (state : State Thread V Chan) (thread : Thread) (handle : Handle)
    (rest : List (Activity V Chan)) :
    (∃ point, (state.frames handle).status = .suspended point ∧ (∀ source, point ≠ .task source) ∧
        state.resume thread handle rest =
          (state.withFrame handle (state.frames handle).wake).withStack thread
            (.body handle :: .afterResume handle :: rest)) ∨
      (∃ source, (state.frames handle).status = .suspended (.task source) ∧
        state.resume thread handle rest =
          ((state.withFrame handle (state.frames handle).wake).awaitResume handle source).withStack
            thread (.body handle :: .afterResume handle :: rest)) ∨
      ((∀ point, (state.frames handle).status ≠ .suspended point) ∧
        state.resume thread handle rest =
          (state.withFrame handle { state.frames handle with
            resumes := (state.frames handle).resumes + 1 }).withStack thread
              (.afterResume handle :: rest)) := by
  cases hstatus : (state.frames handle).status with
  | suspended point =>
      cases point with
      | task source => exact Or.inr (Or.inl ⟨source, rfl, by simp only [resume, hstatus]; rfl⟩)
      | _ => exact Or.inl ⟨_, rfl, nofun, by simp only [resume, hstatus]; rfl⟩
  | _ => exact Or.inr (Or.inr ⟨nofun, by simp only [resume, hstatus]⟩)

variable [DecidableEq Chan]

/-- A critical section that changes and emits nothing only returns. -/
theorem State.calls_idle {R : Type} {state : State Thread V Chan} {thread : Thread}
    {channel : Chan} {out : Answered V R} {rest : List (Activity V Chan)}
    (hchannel : out.channel = state.channels channel) (heffects : out.effects = []) :
    state.calls thread channel out rest = state.withStack thread rest := by
  simp [State.calls, State.withStack, hchannel, heffects]

/-! ## The shapes of a step -/

/-- What a step can be. -/
inductive Moves (state : State Thread V Chan) :
    Action Thread V Chan → State Thread V Chan → Prop
  | follows (thread : Thread) (activity : Activity V Chan) (rest after : List (Activity V Chan))
      (active : Int) (hstack : state.callStacks thread = activity :: rest)
      (hafter : Follows activity after) :
      Moves state (.proceed thread)
        ({ state with activeTasks := active }.withStack thread (after ++ rest))
  | reschedules (thread : Thread) (handle : Handle) (rest : List (Activity V Chan))
      (hstack : state.callStacks thread = .afterResume handle :: rest)
      (hdone : (state.frames handle).done = false) :
      Moves state (.proceed thread) (state.withStack thread (.scheduling handle :: rest))
  | resumes (thread : Thread) (handle : Handle) (rest : List (Activity V Chan))
      (hstack : state.callStacks thread = .resuming handle :: rest) :
      Moves state (.proceed thread) (state.resume thread handle rest)
  | enqueues (thread : Thread) (handle : Handle) (rest : List (Activity V Chan))
      (hstack : state.callStacks thread = .enqueuing handle :: rest) :
      Moves state (.proceed thread)
        ({ state with taskQueue := state.taskQueue ++ [handle] }.withStack thread rest)
  | destroys (thread : Thread) (handle : Handle) (rest : List (Activity V Chan))
      (hstack : state.callStacks thread = .destroying handle :: rest) :
      Moves state (.proceed thread) (state.destroy thread handle rest)
  | registersSend (thread : Thread) (handle : Handle) (channel : Chan) (value : V)
      (rest : List (Activity V Chan))
      (hstack : state.callStacks thread = .registeringSend handle channel value :: rest) :
      Moves state (.proceed thread) (state.calls thread channel
        ((state.channels channel).registerSendWaiter handle
          ⟨some ⟨handle, (state.frames handle).serial⟩, value⟩) rest)
  | registersRecv (thread : Thread) (handle : Handle) (channel : Chan)
      (rest : List (Activity V Chan))
      (hstack : state.callStacks thread = .registeringRecv handle channel :: rest) :
      Moves state (.proceed thread) (state.calls thread channel
        ((state.channels channel).registerRecvWaiter handle
          (some ⟨handle, (state.frames handle).serial⟩)) rest)
  | flushes (thread : Thread) (channel : Chan) (rest : List (Activity V Chan))
      (hstack : state.callStacks thread = .flushing channel :: rest) :
      Moves state (.proceed thread)
        (state.calls thread channel (state.channels channel).closeFlush rest)
  | pops (thread : Thread) (handle : Handle) (queue : List Handle)
      (hstack : state.callStacks thread = []) (hqueue : state.taskQueue = handle :: queue) :
      Moves state (.pop thread)
        ({ state with taskQueue := queue }.withStack thread [.popped handle])
  | wakes (thread : Thread) (handle : Handle) (hstack : state.callStacks thread = [])
      (hsleeping : handle ∈ state.sleepers) :
      Moves state (.wake thread handle)
        ({ state with sleepers := state.sleepers.erase handle }.withStack thread
          [.scheduling handle])
  | quits (thread : Thread) (handle : Handle)
      (hstack : state.callStacks thread = [.popped handle]) :
      Moves state (.quit thread) (state.withStack thread [])
  | stops (thread : Thread) (hcode : atCode (state.callStacks thread) = true) :
      Moves state (.stop thread) state.clearQueue
  | creates (thread : Thread) (handle : Handle) (void : Bool)
      (hcode : atCode (state.callStacks thread) = true)
      (hunborn : (state.frames handle).status = .unborn) :
      Moves state (.code thread (.create handle void))
        ({ state.withFrame handle (.created void) with
          tasks := state.tasks ++ [some handle] }.withStack thread
            (.body handle :: state.callStacks thread))
  | handles (thread : Thread) (op : CodeOp V Chan) (tasks : List (Option Handle))
      (above : List (Activity V Chan)) (hcode : atCode (state.callStacks thread) = true)
      (habove : DestroysOnly above)
      (hready : ∀ source handle, op = .runTask source →
        state.tasks[source]? = some (some handle) → (state.frames handle).done = true) :
      Moves state (.code thread op)
        ({ state with tasks := tasks }.withStack thread (above ++ state.callStacks thread))
  | runs (thread : Thread) (source : Nat) (handle : Handle) (active : Int)
      (hcode : atCode (state.callStacks thread) = true)
      (htask : state.tasks[source]? = some (some handle))
      (hdone : (state.frames handle).done = false) :
      Moves state (.code thread (.runTask source))
        ({ state with activeTasks := active }.withStack thread
          (.scheduling handle :: state.callStacks thread))
  | trySend (thread : Thread) (op : CodeOp V Chan) (channel : Chan) (value : V)
      (used : Option (Item (Option Ticket) V)) (hcode : atCode (state.callStacks thread) = true)
      (hop : op = .trySend channel value ∨ op = .trySendMove channel value) :
      Moves state (.code thread op) (state.calls thread channel
        ((state.channels channel).trySendWith ⟨none, value⟩ used) (state.callStacks thread))
  | tryRecv (thread : Thread) (channel : Chan) (hcode : atCode (state.callStacks thread) = true) :
      Moves state (.code thread (.tryRecv channel)) (state.calls thread channel
        ((state.channels channel).tryRecv none none) (state.callStacks thread))
  | exchanges (thread : Thread) (channel : Chan) (hcode : atCode (state.callStacks thread) = true)
      (above : List (Activity V Chan)) (habove : above = [] ∨ above = [.flushing channel]) :
      Moves state (.code thread (.close channel)) (state.calls thread channel
        (state.channels channel).closeExchange (above ++ state.callStacks thread))
  | yields (thread : Thread) (handle : Handle) (rest : List (Activity V Chan))
      (hstack : state.callStacks thread = .body handle :: rest) :
      Moves state (.body thread .yield)
        ((state.withFrame handle ((state.frames handle).suspend .yield)).withStack thread
          (.scheduling handle :: rest))
  | sleeps (thread : Thread) (handle : Handle) (rest : List (Activity V Chan))
      (hstack : state.callStacks thread = .body handle :: rest) :
      Moves state (.body thread .sleep)
        ({ state.withFrame handle ((state.frames handle).suspend .sleep) with
          sleepers := state.sleepers ++ [handle] }.withStack thread rest)
  | sends (thread : Thread) (handle : Handle) (channel : Chan) (value : V) (frame : Frame V Chan)
      (rest : List (Activity V Chan)) (hstack : state.callStacks thread = .body handle :: rest)
      (hframe : frame = { state.frames handle with
        serial := (state.frames handle).serial + 1 }) :
      Moves state (.body thread (.send channel value))
        ((state.withFrame handle frame).calls thread channel
          ((state.channels channel).trySend ⟨some ⟨handle, frame.serial⟩, value⟩)
          (.body handle :: rest))
  | parksSender (thread : Thread) (handle : Handle) (channel : Chan) (value : V)
      (frame : Frame V Chan) (rest : List (Activity V Chan))
      (hstack : state.callStacks thread = .body handle :: rest)
      (hframe : frame = { state.frames handle with
        serial := (state.frames handle).serial + 1 }) :
      Moves state (.body thread (.send channel value))
        ((state.withFrame handle (frame.suspend (.send channel false))).withStack thread
          (.registeringSend handle channel value :: rest))
  | receives (thread : Thread) (handle : Handle) (channel : Chan) (frame : Frame V Chan)
      (rest : List (Activity V Chan)) (hstack : state.callStacks thread = .body handle :: rest)
      (hframe : frame = { state.frames handle with
        serial := (state.frames handle).serial + 1 }) :
      Moves state (.body thread (.recv channel))
        ((state.withFrame handle frame).calls thread channel
          ((state.channels channel).tryRecv (some ⟨handle, frame.serial⟩) none)
          (.body handle :: rest))
  | parksReceiver (thread : Thread) (handle : Handle) (channel : Chan) (frame : Frame V Chan)
      (rest : List (Activity V Chan)) (hstack : state.callStacks thread = .body handle :: rest)
      (hframe : frame = { state.frames handle with
        serial := (state.frames handle).serial + 1 }) :
      Moves state (.body thread (.recv channel))
        ((state.withFrame handle (frame.suspend (.recv channel none none))).withStack thread
          (.registeringRecv handle channel :: rest))
  | awaits (thread : Thread) (handle child : Handle) (source : Nat)
      (rest : List (Activity V Chan)) (hstack : state.callStacks thread = .body handle :: rest)
      (htask : state.tasks[source]? = some (some child))
      (hdone : (state.frames child).done = false) (parked : State Thread V Chan)
      (hparked : parked = state.withFrame handle ((state.frames handle).suspend (.task source))) :
      Moves state (.body thread (.awaitTask source))
        ((parked.withFrame child { parked.frames child with
          continuation := some handle }).withStack thread (.scheduling child :: rest))
  | continues (thread : Thread) (handle : Handle) (source : Nat)
      (rest : List (Activity V Chan)) (hstack : state.callStacks thread = .body handle :: rest)
      (hready : ∀ child, state.tasks[source]? = some (some child) →
        (state.frames child).done = true) :
      Moves state (.body thread (.awaitTask source)) (state.awaitResume handle source)
  | finishes (thread : Thread) (handle : Handle) (op : BodyOp V Chan)
      (rest : List (Activity V Chan)) (ending : Ending V) (tasks : List (Option Handle))
      (hstack : state.callStacks thread = .body handle :: rest)
      (hop : ∀ source, op ≠ .awaitTask source)
      (hvoid : ∀ content, ending = .returned content → (state.frames handle).void = false)
      (hvalue : ending = .returnedVoid → (state.frames handle).void = true) :
      Moves state (.body thread op)
        ({ state.withFrame handle ((state.frames handle).finish ending) with
          tasks := tasks }.withStack thread rest)

variable {state next : State Thread V Chan} {thread : Thread}

theorem moves_of_activity {activity : Activity V Chan} {rest : List (Activity V Chan)}
    (hstack : state.callStacks thread = activity :: rest)
    (hstep : state.activity thread rest activity = some next) :
    Moves state (.proceed thread) next := by
  cases activity with
  | body handle => cases hstep
  | afterResume handle =>
      simp only [State.activity] at hstep
      split at hstep
      next =>
        cases hstep
        exact .follows thread _ rest [.completing] state.activeTasks hstack (.ranDone handle)
      next hdone =>
        cases hstep
        exact .reschedules thread handle rest hstack (by simpa using hdone)
  | popped handle =>
      simp only [State.activity] at hstep
      split at hstep
      next =>
        cases hstep
        exact .follows thread _ rest [.completing] state.activeTasks hstack (.poppedDone handle)
      next =>
        cases hstep
        exact .follows thread _ rest [.resuming handle] state.activeTasks hstack (.popped handle)
  | resuming handle =>
      cases hstep
      exact .resumes thread handle rest hstack
  | scheduling handle =>
      simp only [State.activity] at hstep
      split at hstep
      next =>
        cases hstep
        exact .follows thread _ rest [] state.activeTasks hstack (.scheduledDone handle)
      next =>
        cases hstep
        exact .follows thread _ rest [.starting handle] state.activeTasks hstack
          (.scheduled handle)
  | starting handle =>
      cases hstep
      exact .follows thread _ rest [.enqueuing handle] _ hstack (.started handle)
  | enqueuing handle =>
      cases hstep
      exact .enqueues thread handle rest hstack
  | completing =>
      simp only [State.activity] at hstep
      split at hstep
      next =>
        cases hstep
        exact .follows thread _ rest [.decrementing] state.activeTasks hstack .completes
      next =>
        cases hstep
        exact .follows thread _ rest [] state.activeTasks hstack .completesNone
  | decrementing =>
      cases hstep
      exact .follows thread _ rest [] _ hstack .decremented
  | registeringSend handle channel value =>
      cases hstep
      exact .registersSend thread handle channel value rest hstack
  | registeringRecv handle channel =>
      cases hstep
      exact .registersRecv thread handle channel rest hstack
  | flushing channel =>
      cases hstep
      exact .flushes thread channel rest hstack
  | destroying handle =>
      cases hstep
      exact .destroys thread handle rest hstack

theorem moves_of_code {op : CodeOp V Chan} (hcode : atCode (state.callStacks thread) = true)
    (hstep : state.code thread op = some next) : Moves state (.code thread op) next := by
  have hdestroying : ∀ owned : Option Handle,
      DestroysOnly (owned.toList.map (Activity.destroying : Handle → Activity V Chan)) := by
    intro owned activity hactivity
    obtain ⟨handle, _, rfl⟩ := List.mem_map.mp hactivity
    exact Or.inr ⟨handle, rfl⟩
  have hself : ∀ tasks, (∀ source handle, op = .runTask source →
      state.tasks[source]? = some (some handle) → (state.frames handle).done = true) →
      Moves state (.code thread op) { state with tasks := tasks } := by
    intro tasks hready
    have hmoves := Moves.handles thread op tasks [] hcode nofun hready
    simpa [State.withStack] using hmoves
  cases op with
  | create handle void =>
      simp only [State.code] at hstep
      split at hstep
      next hunborn =>
        cases hstep
        exact .creates thread handle void hcode hunborn
      next => cases hstep
  | moveTask source =>
      simp only [State.code, Option.map_eq_some_iff] at hstep
      obtain ⟨owned, _, rfl⟩ := hstep
      exact hself _ nofun
  | assignTask target source =>
      simp only [State.code] at hstep
      split at hstep
      next =>
        cases hstep
        exact hself state.tasks nofun
      next =>
        split at hstep
        next old owned _ _ =>
          cases hstep
          exact .handles thread _ _ _ hcode (hdestroying old) nofun
        next => cases hstep
  | dropTask source =>
      simp only [State.code, Option.map_eq_some_iff] at hstep
      obtain ⟨owned, _, rfl⟩ := hstep
      exact .handles thread _ _ _ hcode (hdestroying owned) nofun
  | runTask source =>
      simp only [State.code] at hstep
      split at hstep
      next => cases hstep
      next hnull =>
        cases hstep
        refine hself state.tasks fun other handle heq htask => ?_
        cases heq
        simp [hnull] at htask
      next handle htask =>
        split at hstep
        next hdone =>
          cases hstep
          -- `run` on a finished coroutine: `task_completed`, then `handle.destroy()`.
          refine .handles thread _ _ [.completing, .destroying handle] hcode ?_ ?_
          · intro activity hactivity
            exact (by simpa using hactivity : _ ∨ _).imp_right fun heq => ⟨handle, heq⟩
          · intro other owned heq howned
            cases heq
            obtain rfl : handle = owned := by simpa [htask] using howned
            exact hdone
        next hdone =>
          cases hstep
          exact .runs thread source handle _ hcode htask (by simpa using hdone)
  | trySend channel value =>
      cases hstep
      exact .trySend thread _ channel value _ hcode (Or.inl rfl)
  | trySendMove channel value =>
      cases hstep
      exact .trySend thread _ channel value _ hcode (Or.inr rfl)
  | tryRecv channel =>
      cases hstep
      exact .tryRecv thread channel hcode
  | close channel =>
      simp only [State.code] at hstep
      split at hstep
      next =>
        cases hstep
        exact .exchanges thread channel hcode [] (Or.inl rfl)
      next =>
        cases hstep
        exact .exchanges thread channel hcode [.flushing channel] (Or.inr rfl)

theorem moves_of_bodyOp {handle : Handle} {rest : List (Activity V Chan)} {op : BodyOp V Chan}
    (hstack : state.callStacks thread = .body handle :: rest)
    (hstep : state.bodyOp thread handle rest op = some next) :
    Moves state (.body thread op) next := by
  cases op with
  | yield =>
      cases hstep
      exact .yields thread handle rest hstack
  | sleep =>
      cases hstep
      exact .sleeps thread handle rest hstack
  | send channel value =>
      simp only [State.bodyOp] at hstep
      split at hstep
      next =>
        cases hstep
        exact .sends thread handle channel value _ rest hstack rfl
      next hfailed =>
        -- A failed `await_ready` leaves the channel alone, so the step only suspends.
        have hkeeps := (state.channels channel).failed_attempt_keeps.1 _
          (Bool.eq_false_iff.mpr hfailed)
        rw [State.calls_idle (by rw [hkeeps]; rfl) (by rw [hkeeps])] at hstep
        cases hstep
        exact .parksSender thread handle channel value _ rest hstack rfl
  | recv channel =>
      simp only [State.bodyOp] at hstep
      split at hstep
      next =>
        cases hstep
        exact .receives thread handle channel _ rest hstack rfl
      next hfailed =>
        have hkeeps := (state.channels channel).failed_attempt_keeps.2.2 _ none
          (Bool.eq_false_iff.mpr hfailed)
        rw [State.calls_idle (by rw [hkeeps]; rfl) (by rw [hkeeps])] at hstep
        cases hstep
        exact .parksReceiver thread handle channel _ rest hstack rfl
  | awaitTask source =>
      simp only [State.bodyOp] at hstep
      split at hstep
      next => cases hstep
      next hnull =>
        cases hstep
        exact .continues thread handle source rest hstack (by simp [hnull])
      next child htask =>
        split at hstep
        next hdone =>
          cases hstep
          refine .continues thread handle source rest hstack fun other hother => ?_
          obtain rfl : child = other := by simpa [htask] using hother
          exact hdone
        next hdone =>
          cases hstep
          exact .awaits thread handle child source rest hstack htask (by simpa using hdone) _ rfl
  | returnVoid =>
      simp only [State.bodyOp] at hstep
      split at hstep
      next hvoid =>
        cases hstep
        exact .finishes thread handle _ rest .returnedVoid state.tasks hstack nofun
          (by simp) (fun _ => hvoid)
      next => cases hstep
  | returnValue value =>
      simp only [State.bodyOp] at hstep
      split at hstep
      next => cases hstep
      next hvoid =>
        cases hstep
        exact .finishes thread handle _ rest (.returned (.data value)) state.tasks hstack
          nofun (fun _ _ => by simpa using hvoid) (by simp)
  | returnTask source =>
      simp only [State.bodyOp] at hstep
      split at hstep
      next => cases hstep
      next hvoid =>
        obtain ⟨owned, _, rfl⟩ := Option.map_eq_some_iff.mp hstep
        exact .finishes thread handle _ rest (.returned (.task owned)) _ hstack
          nofun (fun _ _ => by simpa using hvoid) (by simp)
  | raise error =>
      cases hstep
      exact .finishes thread handle _ rest (.raised error) state.tasks hstack nofun (by simp)
        (by simp)

theorem moves_of_step {capacity : Chan → Nat} {action : Action Thread V Chan}
    (hstep : (machine Thread V Chan capacity).step state action = some next) :
    Moves state action next := by
  change step state action = some next at hstep
  cases action with
  | pop thread =>
      simp only [step] at hstep
      split at hstep
      next handle queue hstack hqueue =>
        cases hstep
        exact .pops thread handle queue hstack hqueue
      next => cases hstep
  | proceed thread =>
      simp only [step] at hstep
      split at hstep
      next activity rest hstack => exact moves_of_activity hstack hstep
      next => cases hstep
  | code thread op =>
      simp only [step] at hstep
      split at hstep
      next hcode => exact moves_of_code hcode hstep
      next => cases hstep
  | body thread op =>
      simp only [step] at hstep
      split at hstep
      next handle rest hstack => exact moves_of_bodyOp hstack hstep
      next => cases hstep
  | wake thread handle =>
      simp only [step] at hstep
      split at hstep
      next hstack =>
        split at hstep
        next hsleeping =>
          cases hstep
          exact .wakes thread handle hstack hsleeping
        next => cases hstep
      next => cases hstep
  | quit thread =>
      simp only [step] at hstep
      split at hstep
      next handle hstack =>
        cases hstep
        exact .quits thread handle hstack
      next => cases hstep
  | stop thread =>
      simp only [step] at hstep
      split at hstep
      next hcode =>
        cases hstep
        exact .stops thread hcode
      next => cases hstep

end Tang.Runtime
