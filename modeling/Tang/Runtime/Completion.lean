import Tang.Foundation.Family
import Tang.Foundation.History
import Tang.Runtime.Traffic

/-! # The counter of active tasks

`schedule` counts a coroutine up, `task_completed` counts one down, and the main
loop takes a zero counter and an empty queue for the end of the program. What
the counter should stand for are the handles in flight: those in the queue,
those a thread has popped and is not finished with, and those `schedule` has
counted and not pushed yet. The iterations of the resume loops are not in the
state of the scheduler, so they are recorded beside it.
-/

namespace Tang.Runtime

open Foundation

variable {Thread V Chan : Type}

/-- What the runs of the scheduler are recorded for: the handle each thread has
popped and is not finished with, and the coroutines `schedule` has counted. -/
structure Progress (Thread : Type) where
  iterating : Thread → Option Handle
  scheduled : List Handle

namespace Progress

def start : Progress Thread where
  iterating _ := none
  scheduled := []

/-- The iteration of a thread after a step that leaves it with this stack. A
thread with an empty stack is back at the head of its loop. -/
def iteration (progress : Progress Thread) (state : State Thread V Chan)
    (stack : List (Activity V Chan)) : Action Thread V Chan → Option Handle
  | .pop _ => state.taskQueue.head?
  | action =>
      match stack with
      | [] => none
      | _ :: _ => progress.iterating action.thread

/-- The coroutine a step calls `task_started` for on behalf of `schedule`. -/
def counts (state : State Thread V Chan) : Action Thread V Chan → List Handle
  | .proceed thread =>
      match state.callStacks thread with
      | .starting handle :: _ => [handle]
      | _ => []
  | _ => []

variable [DecidableEq Thread]

def record (progress : Progress Thread) (state : State Thread V Chan)
    (action : Action Thread V Chan) (next : State Thread V Chan) : Progress Thread where
  iterating := Function.update progress.iterating action.thread
    (progress.iteration state (next.callStacks action.thread) action)
  scheduled := progress.scheduled ++ counts state action

end Progress

/-- The runs of the scheduler with their progress. -/
def recorded (Thread V Chan : Type) [DecidableEq Thread] [DecidableEq Chan]
    (capacity : Chan → Nat) :
    Machine (State Thread V Chan × Progress Thread) (Action Thread V Chan) :=
  (machine Thread V Chan capacity).recording .start Progress.record

/-- How many handles a thread has popped and is not finished with. -/
def busy (iteration : Option Handle) : Nat := iteration.isSome.toNat

@[simp] theorem busy_none : busy none = 0 := rfl

@[simp] theorem busy_some (handle : Handle) : busy (some handle) = 1 := rfl

theorem busy_le_one (iteration : Option Handle) : busy iteration ≤ 1 :=
  Bool.toNat_le _

/-- A thread that is in no iteration and holds no handle it has yet to push. -/
def HoldsNone (stack : List (Activity V Chan)) (iteration : Option Handle) : Prop :=
  iteration = none ∧ pushing stack = 0

instance (stack : List (Activity V Chan)) (iteration : Option Handle) :
    Decidable (HoldsNone stack iteration) :=
  inferInstanceAs (Decidable (iteration = none ∧ pushing stack = 0))

section Counting

variable [Fintype Thread]

/-- The handles in flight. -/
def inFlight (state : State Thread V Chan) (progress : Progress Thread) : Nat :=
  state.taskQueue.length + total busy progress.iterating + total pushing state.callStacks

variable [DecidableEq Thread] {state next : State Thread V Chan} {progress : Progress Thread}

/-- A step trades what its own thread and the queue have in flight. -/
theorem inFlight_record (progress : Progress Thread) {action : Action Thread V Chan}
    {stack : List (Activity V Chan)} {queue : List Handle} {active : Int}
    (hleaves : Leaves state next action.thread stack queue active) :
    inFlight next (progress.record state action next) + (state.taskQueue.length +
        busy (progress.iterating action.thread) + pushing (state.callStacks action.thread)) =
      inFlight state progress + (queue.length +
        busy (progress.iteration state stack action) + pushing stack) := by
  have hstack : next.callStacks action.thread = stack := by
    rw [hleaves.stack_eq, Function.update_self]
  have hiterations := total_update busy progress.iterating action.thread
    (progress.iteration state stack action)
  have hpushes := total_update pushing state.callStacks action.thread stack
  simp only [inFlight, Progress.record, hstack, hleaves.queue_eq, hleaves.stack_eq]
  omega

omit [Fintype Thread] in
/-- What holds between the stack and the iteration of every thread has to be
shown again for the thread that moves. -/
theorem forall_record {agrees : List (Activity V Chan) → Option Handle → Prop}
    (action : Action Thread V Chan) {stack : List (Activity V Chan)} {queue : List Handle}
    {active : Int}
    (hall : ∀ thread, agrees (state.callStacks thread) (progress.iterating thread))
    (hleaves : Leaves state next action.thread stack queue active)
    (hself : agrees stack (progress.iteration state stack action)) (thread : Thread) :
    agrees (next.callStacks thread) ((progress.record state action next).iterating thread) := by
  simp only [Progress.record, hleaves.stack_eq, Function.update_self]
  by_cases hthread : thread = action.thread
  · subst thread
    rw [Function.update_self, Function.update_self]
    exact hself
  · rw [Function.update_of_ne hthread, Function.update_of_ne hthread]
    exact hall thread

end Counting

/-! ## Iterations end where the stack is empty -/

section Iterations

variable {progress : Progress Thread} {state : State Thread V Chan}
  {action : Action Thread V Chan} {stack : List (Activity V Chan)}

/-- Without a pop, an iteration goes on until the stack is empty. -/
theorem iteration_cases (progress : Progress Thread) (state : State Thread V Chan)
    (stack : List (Activity V Chan)) (hpops : ∀ thread, action ≠ .pop thread) :
    (stack = [] ∧ progress.iteration state stack action = none) ∨
      (stack ≠ [] ∧
        progress.iteration state stack action = progress.iterating action.thread) := by
  cases action with
  | pop thread => exact absurd rfl (hpops thread)
  | _ =>
      cases stack with
      | nil => exact Or.inl ⟨rfl, rfl⟩
      | cons top rest => exact Or.inr ⟨List.cons_ne_nil top rest, rfl⟩

theorem busy_iteration_le (progress : Progress Thread) (state : State Thread V Chan)
    (stack : List (Activity V Chan)) (hpops : ∀ thread, action ≠ .pop thread) :
    busy (progress.iteration state stack action) ≤ busy (progress.iterating action.thread) := by
  rcases iteration_cases progress state stack hpops with ⟨_, hiteration⟩ | ⟨_, hiteration⟩
  · rw [hiteration]
    exact Nat.zero_le _
  · rw [hiteration]

end Iterations

/-! ## Completion is not announced early -/

/-- A resume loop on a stack belongs to an iteration on record. -/
def OnRecord (stack : List (Activity V Chan)) (iteration : Option Handle) : Prop :=
  looping stack = true → iteration.isSome = true

theorem OnRecord.step {progress : Progress Thread} {state : State Thread V Chan}
    {action : Action Thread V Chan} {stack : List (Activity V Chan)}
    (hrecord : OnRecord (state.callStacks action.thread) (progress.iterating action.thread))
    (hpops : ∀ thread, action ≠ .pop thread)
    (hlooping : looping stack = true → looping (state.callStacks action.thread) = true) :
    OnRecord stack (progress.iteration state stack action) := by
  intro hloop
  rcases iteration_cases progress state stack hpops with ⟨hstack, _⟩ | ⟨_, hiteration⟩
  · rw [hstack] at hloop
    cases hloop
  · rw [hiteration]
    exact hrecord (hlooping hloop)

section Early

variable [Fintype Thread]

/-- The counter covers the handles in flight. -/
structure Covered (state : State Thread V Chan) (progress : Progress Thread) : Prop where
  enough : (inFlight state progress : Int) ≤ state.activeTasks
  onRecord : ∀ thread, OnRecord (state.callStacks thread) (progress.iterating thread)

/-- The counter covers the queued handles and the iterations of the loops, so a
zero counter and an empty queue are only seen when no thread is in an iteration. -/
structure NeverEarly (state : State Thread V Chan) (progress : Progress Thread) : Prop where
  covered : (state.taskQueue.length + total busy progress.iterating : Int) ≤ state.activeTasks
  idle : state.activeTasks = 0 → state.taskQueue = [] → ∀ thread,
    progress.iterating thread = none ∧ looping (state.callStacks thread) = false

/-- A `task_completed` that is no last activity of a resume loop counts down. -/
def decrementsAbove : List (Activity V Chan) → Bool
  | .decrementing :: _ :: _ => true
  | _ => false

/-- `task_completed` counts down for an iteration of a resume loop, not for `run`
on a task whose coroutine is done; and the scheduler is stopped only when no
thread holds a handle. -/
def CompletesIterations (state : State Thread V Chan) (progress : Progress Thread) :
    Action Thread V Chan → Prop
  | .proceed thread => decrementsAbove (state.callStacks thread) = false
  | .stop _ => ∀ thread, HoldsNone (state.callStacks thread) (progress.iterating thread)
  | .pop _ | .code _ _ | .body _ _ | .wake _ _ | .quit _ => True

instance (state : State Thread V Chan) (progress : Progress Thread) :
    (action : Action Thread V Chan) → Decidable (CompletesIterations state progress action)
  | .proceed thread => inferInstanceAs (Decidable
      (decrementsAbove (state.callStacks thread) = false))
  | .stop _ => inferInstanceAs (Decidable
      (∀ thread, HoldsNone (state.callStacks thread) (progress.iterating thread)))
  | .pop _ | .code _ _ | .body _ _ | .wake _ _ | .quit _ => inferInstanceAs (Decidable True)

theorem Covered.neverEarly {state : State Thread V Chan} {progress : Progress Thread}
    (hcovered : Covered state progress) : NeverEarly state progress := by
  have henough := hcovered.enough
  unfold inFlight at henough
  refine ⟨by omega, fun hactive hqueue thread => ?_⟩
  have hbusy := le_total busy progress.iterating thread
  have hnone : progress.iterating thread = none := by
    cases hiteration : progress.iterating thread with
    | none => rfl
    | some handle =>
        simp only [hiteration, busy, Option.isSome_some, Bool.toNat_true] at hbusy
        omega
  refine ⟨hnone, Bool.eq_false_iff.mpr fun hloop => ?_⟩
  have hsome := hcovered.onRecord thread hloop
  rw [hnone] at hsome
  cases hsome

variable [DecidableEq Thread] {state next : State Thread V Chan} {progress : Progress Thread}

/-- A step that gains at least as much in the counter as in flight. -/
theorem Covered.leaves (action : Action Thread V Chan) {stack : List (Activity V Chan)}
    {queue : List Handle} {active : Int} (hcovered : Covered state progress)
    (hleaves : Leaves state next action.thread stack queue active)
    (hrecord : OnRecord stack (progress.iteration state stack action))
    (hgain : (queue.length + busy (progress.iteration state stack action) + pushing stack : Int) +
        state.activeTasks ≤ state.taskQueue.length + busy (progress.iterating action.thread) +
          pushing (state.callStacks action.thread) + active) :
    Covered next (progress.record state action next) := by
  have hbalance := inFlight_record progress hleaves
  have henough := hcovered.enough
  refine ⟨?_, forall_record action hcovered.onRecord hleaves hrecord⟩
  rw [hleaves.active_eq]
  omega

/-- Without a pop, the iterations on record can only become fewer. -/
theorem Covered.keeps (action : Action Thread V Chan) {stack : List (Activity V Chan)}
    {queue : List Handle} {active : Int} (hcovered : Covered state progress)
    (hleaves : Leaves state next action.thread stack queue active)
    (hpops : ∀ thread, action ≠ .pop thread)
    (hlooping : looping stack = true → looping (state.callStacks action.thread) = true)
    (hgain : (queue.length + pushing stack : Int) + state.activeTasks ≤
      state.taskQueue.length + pushing (state.callStacks action.thread) + active) :
    Covered next (progress.record state action next) := by
  have hbusy := busy_iteration_le progress state stack hpops
  have hrecord := (hcovered.onRecord action.thread).step hpops hlooping
  exact hcovered.leaves action hleaves hrecord (by omega)

/-- When no thread holds a handle, a stop leaves nothing in flight. -/
theorem Covered.stops {thread : Thread} (hcovered : Covered state progress)
    (hidle : ∀ thread, HoldsNone (state.callStacks thread) (progress.iterating thread))
    (hleaves : Leaves state next thread (state.callStacks thread) [] 0) :
    Covered next (progress.record state (.stop thread) next) := by
  have hself : HoldsNone (state.callStacks thread)
      (progress.iteration state (state.callStacks thread) (.stop thread)) := by
    refine ⟨?_, (hidle thread).2⟩
    rcases iteration_cases progress state (state.callStacks thread)
      (nofun : ∀ other, Action.stop thread ≠ .pop other) with ⟨_, hiteration⟩ | ⟨_, hiteration⟩
    · exact hiteration
    · exact hiteration.trans (hidle thread).1
  have hrest := forall_record (.stop thread) hidle hleaves hself
  have hbusy : total busy (progress.record state (.stop thread) next).iterating = 0 :=
    total_eq_zero fun other => by rw [(hrest other).1, busy_none]
  have hpushes : total pushing next.callStacks = 0 := total_eq_zero fun other => (hrest other).2
  constructor
  · rw [inFlight, hleaves.queue_eq, hbusy, hpushes, hleaves.active_eq]
    rfl
  · exact forall_record (.stop thread) hcovered.onRecord hleaves
      ((hcovered.onRecord thread).step nofun id)

theorem Covered.step {action : Action Thread V Chan} (hcovered : Covered state progress)
    (hcondition : CompletesIterations state progress action)
    (htraffic : Traffic state next action) :
    Covered next (progress.record state action next) := by
  cases htraffic with
  | pops thread handle queue hstack hqueue hleaves =>
      apply hcovered.leaves (.pop thread) hleaves
      · intro _
        rw [Progress.iteration, hqueue]
        rfl
      · -- The handle moves from the queue to the iteration.
        simp [Action.thread, Progress.iteration, hqueue, hstack, busy, Activity.pushes]
  | starts thread handle rest hstack hleaves =>
      apply hcovered.keeps (.proceed thread) hleaves nofun
      · simp [Action.thread, hstack, looping_cons, Activity.loops]
      · simp only [Action.thread, hstack, pushing_cons, Activity.pushes, Bool.toNat_true,
          Bool.toNat_false]
        omega
  | pushes thread handle rest hstack hleaves =>
      apply hcovered.keeps (.proceed thread) hleaves nofun
      · simp [Action.thread, hstack, looping_cons, Activity.loops]
      · simp [Action.thread, hstack, Activity.pushes]
        omega
  | decrements thread rest hstack hleaves =>
      cases rest with
      | cons below bottom => simp [CompletesIterations, hstack, decrementsAbove] at hcondition
      | nil =>
          -- A loop that completes is on record, and its iteration is over.
          obtain ⟨handle, hiteration⟩ : ∃ handle, progress.iterating thread = some handle := by
            have hrecord := hcovered.onRecord thread
            rw [hstack] at hrecord
            exact Option.isSome_iff_exists.mp (hrecord rfl)
          apply hcovered.leaves (.proceed thread) hleaves nofun
          simp [Action.thread, Progress.iteration, hstack, hiteration, Activity.pushes]
  | clamps thread rest hstack hactive hleaves =>
      apply hcovered.keeps (.proceed thread) hleaves nofun
      · intro hloop
        rw [Action.thread, hstack]
        exact looping_of_rest .completing hloop
      · simp [Action.thread, hstack, Activity.pushes]
  | reschedules thread handle rest hstack hdone hleaves =>
      apply hcovered.keeps (.proceed thread) hleaves nofun
      · intro hloop
        have hrest : looping rest = true := by simpa [looping_cons, Activity.loops] using hloop
        rw [Action.thread, hstack]
        exact looping_of_rest (.afterResume handle) hrest
      · simp [Action.thread, hstack, Activity.pushes]
  | quits thread handle hstack hleaves =>
      refine hcovered.keeps (.quit thread) hleaves nofun (fun hloop => by cases hloop) ?_
      simp [Action.thread, hstack, Activity.pushes]
  | stops thread hleaves => exact hcovered.stops hcondition hleaves
  | runs thread source handle started htask hdone hstarted hleaves =>
      apply hcovered.keeps (.code thread (.runTask source)) hleaves nofun
      · simp [Action.thread, looping_cons, Activity.loops]
      · simp [Action.thread, Activity.pushes]
  | turns action before after rest hstack hloops hpushes hpops hleaves =>
      apply hcovered.keeps _ hleaves hpops
      · rw [hstack, looping_append rest hloops]
        exact id
      · rw [hstack, pushing_append, pushing_append, hpushes]

omit [DecidableEq Thread] in
theorem inFlight_initial (capacity : Chan → Nat) :
    inFlight (initial capacity : State Thread V Chan) .start = 0 := by
  have hbusy : total busy (Progress.start : Progress Thread).iterating = 0 :=
    total_eq_zero fun _ => rfl
  have hpushes : total pushing (initial capacity : State Thread V Chan).callStacks = 0 :=
    total_eq_zero fun _ => rfl
  rw [inFlight, hbusy, hpushes]
  rfl

omit [DecidableEq Thread] in
theorem covered_initial (capacity : Chan → Nat) :
    Covered (initial capacity : State Thread V Chan) .start := by
  refine ⟨by rw [inFlight_initial]; rfl, fun thread hloop => ?_⟩
  cases hloop

variable [DecidableEq Chan]

/-- In a run in which `task_completed` counts down for iterations only, the
counter covers the handles in flight in every state, and no thread is in an
iteration when the counter is zero and the queue empty. -/
theorem neverEarly_along (capacity : Chan → Nat) (actions : List (Action Thread V Chan))
    (hmeets : (recorded Thread V Chan capacity).Meets
      (fun watched action => CompletesIterations watched.1 watched.2 action)
      (initial capacity, .start) actions) :
    (recorded Thread V Chan capacity).Along (fun watched => NeverEarly watched.1 watched.2)
      (initial capacity, .start) actions := by
  apply Machine.along_of_meets (fun watched => Covered watched.1 watched.2) ?_ ?_ ?_ hmeets
  · intro watched action after hcovered hcondition hstep
    obtain ⟨hnext, hrecord⟩ := Machine.recording_step hstep
    rw [hrecord]
    exact hcovered.step hcondition (traffic_of_step hnext)
  · intro watched hcovered
    exact hcovered.neverEarly
  · exact covered_initial capacity

end Early

/-- `run` finds a coroutine done while nothing is counted; another coroutine
yields, and a loop of a second thread completes it. -/
theorem neverEarly_yield_run :
    (recorded (Fin 2) Nat Unit fun _ => 1).Along (fun watched => NeverEarly watched.1 watched.2)
      (initial fun _ => 1, .start)
      [.code 0 (.create 0 true), .body 0 .returnVoid, .code 0 (.runTask 0), .proceed 0,
        .proceed 0, .code 0 (.create 1 true), .body 0 .yield, .proceed 0, .proceed 0, .proceed 0,
        .pop 1, .proceed 1, .proceed 1, .body 1 .returnVoid, .proceed 1, .proceed 1, .proceed 1] :=
  neverEarly_along (fun _ => 1) _ (by decide)

/-- A coroutine is in the queue when `run` finds another one done, and counts it
down although nobody had counted it. -/
theorem early_completion_run :
    ¬ (recorded Unit Nat Unit fun _ => 1).Along (fun watched => NeverEarly watched.1 watched.2)
      (initial fun _ => 1, .start)
      [.code () (.create 0 true), .body () .yield, .proceed (), .proceed (), .proceed (),
        .code () (.create 1 true), .body () .returnVoid, .code () (.runTask 1), .proceed (),
        .proceed ()] := by
  intro halong
  have hlast := halong.last rfl
  exact absurd hlast.covered (by decide)

/-! ## Completion is announced in the end -/

/-- An iteration on record is that of a resume loop on the stack. -/
def OnStack (stack : List (Activity V Chan)) (iteration : Option Handle) : Prop :=
  iteration.isSome = true → looping stack = true

theorem OnStack.eq_none {stack : List (Activity V Chan)} {iteration : Option Handle}
    (honStack : OnStack stack iteration) (hidle : looping stack = false) : iteration = none := by
  cases iteration with
  | none => rfl
  | some handle =>
      rw [honStack rfl] at hidle
      cases hidle

/-- A step that keeps the loop at the bottom keeps the iteration. -/
theorem OnStack.iteration_eq {progress : Progress Thread} {state : State Thread V Chan}
    {action : Action Thread V Chan} {stack : List (Activity V Chan)}
    (honStack : OnStack (state.callStacks action.thread) (progress.iterating action.thread))
    (hpops : ∀ thread, action ≠ .pop thread)
    (hlooping : looping stack = looping (state.callStacks action.thread)) :
    progress.iteration state stack action = progress.iterating action.thread := by
  rcases iteration_cases progress state stack hpops with ⟨hstack, hiteration⟩ | ⟨_, hiteration⟩
  · have hidle : looping (state.callStacks action.thread) = false := by rw [← hlooping, hstack]; rfl
    rw [hiteration, honStack.eq_none hidle]
  · exact hiteration

/-- An iteration ends with the stack, whatever was on top. -/
theorem OnStack.step {progress : Progress Thread} {state : State Thread V Chan}
    {action : Action Thread V Chan} {stack : List (Activity V Chan)}
    (honStack : OnStack (state.callStacks action.thread) (progress.iterating action.thread))
    (hpops : ∀ thread, action ≠ .pop thread)
    (hlooping : stack ≠ [] → looping stack = looping (state.callStacks action.thread)) :
    OnStack stack (progress.iteration state stack action) := by
  rcases iteration_cases progress state stack hpops with ⟨_, hiteration⟩ | ⟨hstack, hiteration⟩
  · rw [hiteration]
    nofun
  · rw [hiteration, OnStack, hlooping hstack]
    exact honStack

/-- Everything scheduled has come to its end, and no thread holds a handle. -/
structure Quiescent (state : State Thread V Chan) (progress : Progress Thread) : Prop where
  queue_eq : state.taskQueue = []
  held : ∀ thread, HoldsNone (state.callStacks thread) (progress.iterating thread)
  finished : ∀ handle ∈ progress.scheduled, (state.frames handle).done = true

/-- A quiescent scheduler counts nothing. -/
def Announces (state : State Thread V Chan) (progress : Progress Thread) : Prop :=
  Quiescent state progress → state.activeTasks = 0

/-- The coroutine is done when the call of `resume()` in a loop returns; a task
that `run` schedules is a `task<void>`; `task_completed` does not count down from
zero; and no loop drops the handle it popped. -/
def State.countsOnce (state : State Thread V Chan) : Action Thread V Chan → Bool
  | .proceed thread =>
      match state.callStacks thread with
      | .afterResume handle :: _ => (state.frames handle).done
      | .decrementing :: _ => 0 < state.activeTasks
      | _ => true
  | .code _ (.runTask source) =>
      match state.tasks[source]? with
      | some (some handle) => (state.frames handle).done || (state.frames handle).void
      | _ => true
  | .quit _ => false
  | .pop _ | .code _ _ | .body _ _ | .wake _ _ | .stop _ => true

section Late

variable [Fintype Thread]

/-- The counter counts no more than the handles in flight. -/
structure Bounded (state : State Thread V Chan) (progress : Progress Thread) : Prop where
  nonneg : 0 ≤ state.activeTasks
  enough : state.activeTasks ≤ inFlight state progress
  onStack : ∀ thread, OnStack (state.callStacks thread) (progress.iterating thread)

theorem Bounded.announces {state : State Thread V Chan} {progress : Progress Thread}
    (hbounded : Bounded state progress) : Announces state progress := by
  intro hquiescent
  have hbusy : total busy progress.iterating = 0 :=
    total_eq_zero fun thread => by rw [(hquiescent.held thread).1, busy_none]
  have hpushes : total pushing state.callStacks = 0 :=
    total_eq_zero fun thread => (hquiescent.held thread).2
  have henough := hbounded.enough
  rw [inFlight, hquiescent.queue_eq, hbusy, hpushes] at henough
  exact le_antisymm henough hbounded.nonneg

variable [DecidableEq Thread] {state next : State Thread V Chan} {progress : Progress Thread}

/-- A step that gains at most as much in the counter as in flight. -/
theorem Bounded.leaves (action : Action Thread V Chan) {stack : List (Activity V Chan)}
    {queue : List Handle} {active : Int} (hbounded : Bounded state progress)
    (hleaves : Leaves state next action.thread stack queue active)
    (honStack : OnStack stack (progress.iteration state stack action)) (hactive : 0 ≤ active)
    (hgain : active + (state.taskQueue.length + busy (progress.iterating action.thread) +
        pushing (state.callStacks action.thread) : Int) ≤
      state.activeTasks + (queue.length + busy (progress.iteration state stack action) +
        pushing stack)) :
    Bounded next (progress.record state action next) := by
  have hbalance := inFlight_record progress hleaves
  have henough := hbounded.enough
  refine ⟨?_, ?_, forall_record action hbounded.onStack hleaves honStack⟩
  · rw [hleaves.active_eq]
    exact hactive
  · rw [hleaves.active_eq]
    omega

/-- Steps that keep the loops at the bottoms of the stacks keep the iterations. -/
theorem Bounded.keeps (action : Action Thread V Chan) {stack : List (Activity V Chan)}
    {queue : List Handle} {active : Int} (hbounded : Bounded state progress)
    (hleaves : Leaves state next action.thread stack queue active)
    (hpops : ∀ thread, action ≠ .pop thread)
    (hlooping : looping stack = looping (state.callStacks action.thread)) (hactive : 0 ≤ active)
    (hgain : active + (state.taskQueue.length + pushing (state.callStacks action.thread) : Int) ≤
      state.activeTasks + (queue.length + pushing stack)) :
    Bounded next (progress.record state action next) := by
  have honStack := hbounded.onStack action.thread
  have hiteration := honStack.iteration_eq hpops hlooping
  refine hbounded.leaves action hleaves ?_ hactive ?_
  · rw [hiteration, OnStack, hlooping]
    exact honStack
  · rw [hiteration]
    omega

/-- A counter at zero is no more than anything. -/
theorem Bounded.zero (action : Action Thread V Chan) {stack : List (Activity V Chan)}
    {queue : List Handle} {active : Int} (hbounded : Bounded state progress)
    (hleaves : Leaves state next action.thread stack queue active)
    (hpops : ∀ thread, action ≠ .pop thread)
    (hlooping : stack ≠ [] → looping stack = looping (state.callStacks action.thread))
    (hactive : active = 0) : Bounded next (progress.record state action next) := by
  have hnext : next.activeTasks = 0 := hleaves.active_eq.trans hactive
  have honStack := (hbounded.onStack action.thread).step hpops hlooping
  refine ⟨hnext.ge, ?_, forall_record action hbounded.onStack hleaves honStack⟩
  rw [hnext]
  exact Int.natCast_nonneg _

theorem Bounded.step {action : Action Thread V Chan} (hbounded : Bounded state progress)
    (hcondition : state.countsOnce action = true) (htraffic : Traffic state next action) :
    Bounded next (progress.record state action next) := by
  have hnonneg := hbounded.nonneg
  cases htraffic with
  | pops thread handle queue hstack hqueue hleaves =>
      have hnone : progress.iterating thread = none :=
        (hbounded.onStack thread).eq_none (by rw [hstack]; rfl)
      refine hbounded.leaves (.pop thread) hleaves (fun _ => rfl) hnonneg ?_
      -- The handle moves from the queue to the iteration.
      simp [Action.thread, Progress.iteration, hqueue, hstack, hnone, Activity.pushes]
  | starts thread handle rest hstack hleaves =>
      refine hbounded.keeps (.proceed thread) hleaves nofun ?_ (by omega) ?_
      · simp [Action.thread, hstack, looping_cons, Activity.loops]
      · simp only [Action.thread, hstack, pushing_cons, Activity.pushes, Bool.toNat_true,
          Bool.toNat_false]
        omega
  | pushes thread handle rest hstack hleaves =>
      refine hbounded.keeps (.proceed thread) hleaves nofun ?_ hnonneg ?_
      · simp [Action.thread, hstack, looping_cons, Activity.loops]
      · simp [Action.thread, hstack, Activity.pushes]
        omega
  | decrements thread rest hstack hleaves =>
      have hpositive : 0 < state.activeTasks := by
        simpa [State.countsOnce, hstack] using hcondition
      cases rest with
      | nil =>
          have hbusy := busy_le_one (progress.iterating thread)
          apply hbounded.leaves (.proceed thread) hleaves nofun (by omega)
          simp [Action.thread, hstack, Progress.iteration, Activity.pushes]
          omega
      | cons below bottom =>
          refine hbounded.keeps (.proceed thread) hleaves nofun ?_ (by omega) ?_
          · simp [Action.thread, hstack, looping_cons]
          · simp [Action.thread, hstack, Activity.pushes]
  | clamps thread rest hstack hactive hleaves =>
      refine hbounded.zero (.proceed thread) hleaves nofun (fun hrest => ?_)
        (le_antisymm hactive hnonneg)
      simp [Action.thread, hstack, looping_cons, hrest]
  | reschedules thread handle rest hstack hdone hleaves =>
      simp [State.countsOnce, hstack, hdone] at hcondition
  | quits thread handle hstack hleaves => cases hcondition
  | stops thread hleaves => exact hbounded.zero (.stop thread) hleaves nofun (fun _ => rfl) rfl
  | runs thread source handle started htask hdone hstarted hleaves =>
      have hvoid : (state.frames handle).void = true := by
        simpa [State.countsOnce, htask, hdone] using hcondition
      rw [if_pos hvoid] at hstarted
      subst started
      refine hbounded.keeps (.code thread (.runTask source)) hleaves nofun ?_
        (by simpa using hnonneg) ?_
      · simp [Action.thread, looping_cons, Activity.loops]
      · simp [Action.thread, Activity.pushes]
  | turns action before after rest hstack hloops hpushes hpops hleaves =>
      refine hbounded.keeps _ hleaves hpops ?_ hnonneg ?_
      · rw [hstack, looping_append rest hloops]
      · rw [hstack, pushing_append, pushing_append, hpushes]

omit [DecidableEq Thread] in
theorem bounded_initial (capacity : Chan → Nat) :
    Bounded (initial capacity : State Thread V Chan) .start := by
  refine ⟨le_rfl, by rw [inFlight_initial]; rfl, fun thread hsome => ?_⟩
  cases hsome

variable [DecidableEq Chan]

/-- In a run whose steps count every coroutine once, the counter is zero in
every quiescent state. -/
theorem announces_along (capacity : Chan → Nat) (actions : List (Action Thread V Chan))
    (hmeets : (recorded Thread V Chan capacity).Meets
      (fun watched action => watched.1.countsOnce action = true) (initial capacity, .start)
      actions) :
    (recorded Thread V Chan capacity).Along (fun watched => Announces watched.1 watched.2)
      (initial capacity, .start) actions := by
  apply Machine.along_of_meets (fun watched => Bounded watched.1 watched.2) ?_ ?_ ?_ hmeets
  · intro watched action after hbounded hcondition hstep
    obtain ⟨hnext, hrecord⟩ := Machine.recording_step hstep
    rw [hrecord]
    exact hbounded.step hcondition (traffic_of_step hnext)
  · intro watched hbounded
    exact hbounded.announces
  · exact bounded_initial capacity

end Late

/-- A coroutine yields before it is first popped, and is completed by a loop of a
second thread. -/
theorem announces_yield_run :
    (recorded (Fin 2) Nat Unit fun _ => 1).Along (fun watched => Announces watched.1 watched.2)
      (initial fun _ => 1, .start)
      [.code 0 (.create 0 true), .body 0 .yield, .proceed 0, .proceed 0, .proceed 0, .pop 1,
        .proceed 1, .proceed 1, .body 1 .returnVoid, .proceed 1, .proceed 1, .proceed 1] :=
  announces_along (fun _ => 1) _ (by decide)

/-- A coroutine yields twice. The second time, it has scheduled itself when the
loop schedules it again; it is counted three times and completed twice. -/
theorem unannounced_completion_run :
    ¬ (recorded Unit Nat Unit fun _ => 1).Along (fun watched => Announces watched.1 watched.2)
      (initial fun _ => 1, .start)
      [.code () (.create 0 true), .body () .yield, .proceed (), .proceed (), .proceed (),
        .pop (), .proceed (), .proceed (), .body () .yield, .proceed (), .proceed (), .proceed (),
        .proceed (), .proceed (), .proceed (), .proceed (),
        .pop (), .proceed (), .proceed (), .body () .returnVoid, .proceed (), .proceed (),
        .proceed (), .pop (), .proceed (), .proceed (), .proceed ()] := by
  intro halong
  have hlast := halong.last rfl
  exact absurd (hlast ⟨by decide, by decide, by decide⟩) (by decide)

end Tang.Runtime
