import Tang.Foundation.History
import Tang.Runtime.Await

/-! # Tasks that are started before they are awaited

`run()` schedules a coroutine that is suspended and leaves the task as it is. A
coroutine that has finished it destroys, with the promise and the result in it,
and the task is left without a handle, also when a parent already waits for it.
`go` and `spawn` call `run()` on a coroutine without a `co_await`, which has
finished by then.
-/

namespace Tang.Runtime

open Foundation Effect

variable {Thread V Chan : Type}

/-- A task object on which `run()` was called, the coroutine it owned then, and
whether that was found to be done. -/
structure Start where
  object : Nat
  handle : Handle
  foundDone : Bool
  deriving DecidableEq

namespace Start

/-- The task moves to another object. -/
def relabel (source target : Nat) (starts : List Start) : List Start :=
  starts.map fun start =>
    if start.object = source then { start with object := target } else start

/-- The object no longer stands for the task. -/
def forget (object : Nat) (starts : List Start) : List Start :=
  starts.filter fun start => start.object ≠ object

/-- The started tasks, under the objects that stand for them. A call of `run()`
on an object without a handle does nothing. -/
def record (starts : List Start) (state : State Thread V Chan) (action : Action Thread V Chan)
    (_ : State Thread V Chan) : List Start :=
  match action with
  | .code _ (.runTask source) =>
      match state.tasks[source]?.join with
      | some handle => forget source starts ++ [⟨source, handle, (state.frames handle).done⟩]
      | none => starts
  | .code _ (.moveTask source) => relabel source state.tasks.length starts
  | .code _ (.assignTask target source) =>
      if target = source then starts else relabel source target (forget target starts)
  | .code _ (.dropTask source) => forget source starts
  | .body _ (.returnTask source) => forget source starts
  | _ => starts

end Start

/-! ## The objects of started tasks -/

section Objects

variable [DecidableEq Thread] [DecidableEq Chan] {state next : State Thread V Chan}

/-- The object of a started task owns its coroutine, unless `run()` found that
done. -/
def Start.Stands (tasks : List (Option Handle)) (start : Start) : Prop :=
  tasks[start.object]? = some (if start.foundDone then none else some start.handle)

theorem Start.Stands.append {tasks : List (Option Handle)} {start : Start}
    (hstands : start.Stands tasks) (arrived : List (Option Handle)) :
    start.Stands (tasks ++ arrived) := by
  have hlt := (List.getElem?_eq_some_iff.mp hstands).1
  rw [Stands, List.getElem?_append_left hlt]
  exact hstands

theorem Start.Stands.set {tasks : List (Option Handle)} {start : Start} {object : Nat}
    (hstands : start.Stands tasks) (hne : start.object ≠ object) (owned : Option Handle) :
    start.Stands (tasks.set object owned) := by
  rw [Stands, List.getElem?_set_ne hne.symm]
  exact hstands

omit [DecidableEq Thread] [DecidableEq Chan] in
theorem State.awaitResume_tasks (state : State Thread V Chan) (parent : Handle) (source : Nat) :
    ∃ arrived, (state.awaitResume parent source).tasks = state.tasks ++ arrived := by
  unfold State.awaitResume
  split
  · exact ⟨_, rfl⟩
  · exact ⟨[], (List.append_nil _).symm⟩

theorem tasks_of_activity {thread : Thread} {rest : List (Activity V Chan)}
    {activity : Activity V Chan} (hstep : state.activity thread rest activity = some next) :
    ∃ arrived, next.tasks = state.tasks ++ arrived := by
  have hsame : next.tasks = state.tasks → ∃ arrived, next.tasks = state.tasks ++ arrived :=
    fun heq => ⟨[], heq.trans (List.append_nil _).symm⟩
  cases activity with
  | body handle => cases hstep
  | resuming handle =>
      cases hstep
      rcases state.resume_cases thread handle rest with
        ⟨_, _, _, hnext⟩ | ⟨source, _, hnext⟩ | ⟨_, hnext⟩
      · exact hsame (by rw [hnext]; rfl)
      · rw [hnext]
        exact State.awaitResume_tasks _ handle source
      · exact hsame (by rw [hnext]; rfl)
  | popped handle =>
      simp only [State.activity] at hstep
      split at hstep <;> exact hsame (by cases hstep; rfl)
  | afterResume handle =>
      simp only [State.activity] at hstep
      split at hstep <;> exact hsame (by cases hstep; rfl)
  | scheduling handle =>
      simp only [State.activity] at hstep
      split at hstep <;> exact hsame (by cases hstep; rfl)
  | completing =>
      simp only [State.activity] at hstep
      split at hstep <;> exact hsame (by cases hstep; rfl)
  | _ => exact hsame (by cases hstep; rfl)

theorem tasks_of_bodyOp {thread : Thread} {handle : Handle} {rest : List (Activity V Chan)}
    {op : BodyOp V Chan} (hstep : state.bodyOp thread handle rest op = some next)
    (hop : ∀ source, op ≠ .returnTask source) :
    ∃ arrived, next.tasks = state.tasks ++ arrived := by
  have hsame : next.tasks = state.tasks → ∃ arrived, next.tasks = state.tasks ++ arrived :=
    fun heq => ⟨[], heq.trans (List.append_nil _).symm⟩
  cases op with
  | send channel value =>
      simp only [State.bodyOp] at hstep
      split at hstep <;> exact hsame (by cases hstep; rfl)
  | recv channel =>
      simp only [State.bodyOp] at hstep
      split at hstep <;> exact hsame (by cases hstep; rfl)
  | awaitTask source =>
      simp only [State.bodyOp] at hstep
      split at hstep
      next => cases hstep
      next =>
        cases hstep
        exact state.awaitResume_tasks handle source
      next =>
        split at hstep
        next =>
          cases hstep
          exact state.awaitResume_tasks handle source
        next => exact hsame (by cases hstep; rfl)
  | returnVoid =>
      simp only [State.bodyOp] at hstep
      split at hstep
      · exact hsame (by cases hstep; rfl)
      · cases hstep
  | returnValue value =>
      simp only [State.bodyOp] at hstep
      split at hstep
      · cases hstep
      · exact hsame (by cases hstep; rfl)
  | returnTask source => exact absurd rfl (hop source)
  | _ => exact hsame (by cases hstep; rfl)

theorem Start.Stands.relabel {tasks after : List (Option Handle)} {starts : List Start}
    {source target : Nat} (hstands : ∀ start ∈ starts, start.Stands tasks)
    (hmoved : after[target]? = tasks[source]?)
    (hothers : ∀ start ∈ starts, start.object ≠ source → start.Stands after) :
    ∀ start ∈ Start.relabel source target starts, start.Stands after := by
  intro start hstart
  obtain ⟨old, hold, rfl⟩ := List.mem_map.mp hstart
  split
  next heq =>
    have hbefore := hstands old hold
    rw [Stands, heq, ← hmoved] at hbefore
    exact hbefore
  next hne => exact hothers old hold hne

namespace Start

variable {starts : List Start}

omit [DecidableEq Thread] [DecidableEq Chan]

theorem stands_of_append {tasks after : List (Option Handle)}
    (hstands : ∀ start ∈ starts, start.Stands tasks)
    (hafter : ∃ arrived, after = tasks ++ arrived) : ∀ start ∈ starts, start.Stands after := by
  obtain ⟨arrived, rfl⟩ := hafter
  exact fun start hstart => (hstands start hstart).append arrived

/-- An object that is emptied or assigned to concerns only its own task. -/
theorem stands_of_forget {tasks : List (Option Handle)}
    (hstands : ∀ start ∈ starts, start.Stands tasks) (object : Nat) (owned : Option Handle) :
    ∀ start ∈ forget object starts, start.Stands (tasks.set object owned) := by
  intro start hstart
  obtain ⟨hmem, hne⟩ := List.mem_filter.mp hstart
  exact (hstands start hmem).set (by simpa using hne) owned

variable [DecidableEq Thread] [DecidableEq Chan]

theorem stands_of_assignTask {thread : Thread} {target source : Nat}
    (hstep : state.code thread (.assignTask target source) = some next)
    (hstands : ∀ start ∈ starts, start.Stands state.tasks) :
    ∀ start ∈ record starts state (.code thread (.assignTask target source)) next,
      start.Stands next.tasks := by
  simp only [State.code] at hstep
  split at hstep
  next heq =>
    cases hstep
    simpa only [record, if_pos heq] using hstands
  next hne =>
    split at hstep
    next old owned hold howned =>
      cases hstep
      have hlt := (List.getElem?_eq_some_iff.mp hold).1
      simp only [record, if_neg hne]
      refine Stands.relabel (stands_of_forget hstands target owned) ?_ fun start hstart hother => ?_
      · change ((state.tasks.set target owned).set source none)[target]? = _
        rw [List.getElem?_set_ne (Ne.symm hne), List.getElem?_set_self hlt,
          List.getElem?_set_ne hne, howned]
      · exact (stands_of_forget hstands target owned start hstart).set hother none
    next => cases hstep

theorem stands_of_runTask {thread : Thread} {source : Nat}
    (hstep : state.code thread (.runTask source) = some next)
    (hstands : ∀ start ∈ starts, start.Stands state.tasks) :
    ∀ start ∈ record starts state (.code thread (.runTask source)) next,
      start.Stands next.tasks := by
  simp only [State.code] at hstep
  split at hstep
  next => cases hstep
  next hnull =>
    cases hstep
    simpa only [record, hnull, Option.join_some] using hstands
  next handle htask =>
    simp only [record, htask, Option.join_some]
    have hlt := (List.getElem?_eq_some_iff.mp htask).1
    intro start hstart
    split at hstep
    next hdone =>
      cases hstep
      rcases List.mem_append.mp hstart with hold | hnew
      · exact stands_of_forget hstands source none start hold
      · obtain rfl := List.mem_singleton.mp hnew
        simp [Stands, State.withStack, hdone, hlt]
    next hdone =>
      cases hstep
      rcases List.mem_append.mp hstart with hold | hnew
      · exact hstands start (List.mem_filter.mp hold).1
      · obtain rfl := List.mem_singleton.mp hnew
        simp [Stands, State.withStack, hdone, htask]

theorem stands_of_step {action : Action Thread V Chan}
    (hstep : step state action = some next)
    (hstands : ∀ start ∈ starts, start.Stands state.tasks) :
    ∀ start ∈ record starts state action next, start.Stands next.tasks := by
  have hsame : next.tasks = state.tasks → ∀ start ∈ starts, start.Stands next.tasks :=
    fun heq => stands_of_append hstands ⟨[], heq.trans (List.append_nil _).symm⟩
  cases action with
  | pop thread | quit thread | stop thread =>
      simp only [step] at hstep
      split at hstep
      · exact hsame (by cases hstep; rfl)
      · cases hstep
  | proceed thread =>
      simp only [step] at hstep
      split at hstep
      · exact stands_of_append hstands (tasks_of_activity hstep)
      · cases hstep
  | wake thread handle =>
      simp only [step] at hstep
      split at hstep
      · split at hstep
        · exact hsame (by cases hstep; rfl)
        · cases hstep
      · cases hstep
  | body thread op =>
      simp only [step] at hstep
      split at hstep
      next handle rest hstack =>
        cases op with
        | returnTask source =>
            simp only [State.bodyOp] at hstep
            split at hstep
            next => cases hstep
            next =>
              obtain ⟨owned, _, rfl⟩ := Option.map_eq_some_iff.mp hstep
              exact stands_of_forget hstands source none
        | _ => exact stands_of_append hstands (tasks_of_bodyOp hstep (by simp))
      next => cases hstep
  | code thread op =>
      simp only [step] at hstep
      split at hstep
      next =>
        cases op with
        | create handle void =>
            simp only [State.code] at hstep
            split at hstep
            · exact stands_of_append hstands ⟨[some handle], by cases hstep; rfl⟩
            · cases hstep
        | moveTask source =>
            obtain ⟨owned, howned, rfl⟩ := Option.map_eq_some_iff.mp hstep
            refine Stands.relabel hstands ?_ fun start hstart hne => ?_
            · rw [howned]
              simp
            · exact ((hstands start hstart).set hne none).append [owned]
        | assignTask target source => exact stands_of_assignTask hstep hstands
        | dropTask source =>
            obtain ⟨owned, _, rfl⟩ := Option.map_eq_some_iff.mp hstep
            exact stands_of_forget hstands source none
        | runTask source => exact stands_of_runTask hstep hstands
        | _ => exact hsame (by cases hstep; rfl)
      next => cases hstep

end Start

end Objects

/-! ## A coroutine that runs is on a stack -/

/-- A running coroutine has its body on the stack of some thread. -/
def Activated (state : State Thread V Chan) (handle : Handle) : Prop :=
  (state.frames handle).running = true → ∃ thread, .body handle ∈ state.callStacks thread

namespace Activated

variable [DecidableEq Thread] {state next : State Thread V Chan} {handle focus : Handle}
  {thread : Thread} {stack rest : List (Activity V Chan)}

theorem keeps (hon : Activated state handle)
    (hframe : (next.frames handle).running = (state.frames handle).running)
    (hstacks : next.callStacks = Function.update state.callStacks thread stack)
    (hbody : .body handle ∈ state.callStacks thread → .body handle ∈ stack) :
    Activated next handle := by
  intro hrunning
  obtain ⟨other, hother⟩ := hon (hframe.symm.trans hrunning)
  rw [hstacks]
  by_cases heq : other = thread
  · subst other
    exact ⟨thread, by rw [Function.update_self]; exact hbody hother⟩
  · exact ⟨other, by rwa [Function.update_of_ne heq]⟩

theorem begins (hstacks : next.callStacks = Function.update state.callStacks thread stack)
    (hbody : .body focus ∈ stack) : Activated next focus :=
  fun _ => ⟨thread, by rw [hstacks, Function.update_self]; exact hbody⟩

/-- The body of `focus` leaves a stack and `focus` stops running. -/
theorem leaves (hon : ∀ other, Activated state other)
    (hstack : state.callStacks thread = .body focus :: rest)
    (hfocus : (next.frames focus).running = false)
    (hothers : ∀ other, other ≠ focus →
      (next.frames other).running = (state.frames other).running)
    (hstacks : next.callStacks = Function.update state.callStacks thread stack)
    (hrest : rest ⊆ stack) (handle : Handle) : Activated next handle := by
  by_cases heq : handle = focus
  · intro hrunning
    rw [heq, hfocus] at hrunning
    cases hrunning
  · refine (hon handle).keeps (hothers handle heq) hstacks fun hbody => ?_
    rw [hstack, List.mem_cons] at hbody
    rcases hbody with hbody | hbody
    · cases hbody
      exact absurd rfl heq
    · exact hrest hbody

end Activated

section Stacks

variable [DecidableEq Thread] [DecidableEq Chan] {state next : State Thread V Chan}
  {action : Action Thread V Chan}

theorem Moves.activated (hmoves : Moves state action next)
    (hon : ∀ handle, Activated state handle) (handle : Handle) : Activated next handle := by
  have hold := hon handle
  cases hmoves with
  | follows thread activity rest after active hstack hafter =>
      refine hold.keeps rfl rfl fun hbody => ?_
      rw [hstack, List.mem_cons] at hbody
      refine List.mem_append_right _ (hbody.resolve_left ?_)
      rintro rfl
      cases hafter
  | reschedules thread focus rest hstack hdone => exact hold.keeps rfl rfl (by simp [hstack])
  | resumes thread focus rest hstack =>
      rcases state.resume_running thread focus rest with
        ⟨_, _, hothers, hstacks⟩ | ⟨hsame, hstacks⟩
      · by_cases heq : handle = focus
        · subst handle
          exact .begins hstacks List.mem_cons_self
        · exact hold.keeps (hothers handle heq) hstacks (by simp [hstack, heq])
      · exact hold.keeps (hsame handle) hstacks (by simp [hstack])
  | enqueues thread focus rest hstack => exact hold.keeps rfl rfl (by simp [hstack])
  | destroys thread focus rest hstack =>
      have hframe : (state.frames focus).Alike { state.frames focus with live := false } :=
        ⟨rfl, rfl, rfl⟩
      refine hold.keeps (State.alike_withFrame hframe handle).running rfl fun hbody => ?_
      rw [hstack] at hbody
      exact List.mem_append_right _ (by simpa using hbody)
  | registersSend thread focus channel value rest hstack =>
      exact hold.keeps (Frame.alike_absorb _ handle _).running rfl (by simp [hstack])
  | registersRecv thread focus channel rest hstack =>
      exact hold.keeps (Frame.alike_absorb _ handle _).running rfl (by simp [hstack])
  | flushes thread channel rest hstack =>
      exact hold.keeps (Frame.alike_absorb _ handle _).running rfl (by simp [hstack])
  | pops thread focus queue hstack hqueue => exact hold.keeps rfl rfl (by simp [hstack])
  | wakes thread focus hstack hsleeping => exact hold.keeps rfl rfl (by simp [hstack])
  | quits thread focus hstack => exact hold.keeps rfl rfl (by simp [hstack])
  | stops thread hcode =>
      refine hold.keeps ?_ (Function.update_eq_self thread state.callStacks).symm id
      simp only [State.clearQueue]
      split <;> rfl
  | creates thread focus void hcode hunborn =>
      by_cases heq : handle = focus
      · subst handle
        exact .begins rfl List.mem_cons_self
      · exact hold.keeps (Frame.alike_of_ne heq).running rfl (List.mem_cons_of_mem _)
  | handles thread op tasks above hcode habove hready =>
      exact hold.keeps rfl rfl (List.mem_append_right _)
  | runs thread source focus active hcode htask hdone =>
      exact hold.keeps rfl rfl (List.mem_cons_of_mem _)
  | trySend thread op channel value used hcode hop =>
      exact hold.keeps (Frame.alike_absorb _ handle _).running rfl (List.mem_append_right _)
  | tryRecv thread channel hcode =>
      exact hold.keeps (Frame.alike_absorb _ handle _).running rfl (List.mem_append_right _)
  | exchanges thread channel hcode above habove =>
      exact hold.keeps (Frame.alike_absorb _ handle _).running rfl fun hbody =>
        List.mem_append_right _ (List.mem_append_right _ hbody)
  | yields _ _ _ hstack | parksSender _ _ _ _ _ _ hstack | parksReceiver _ _ _ _ _ hstack =>
      refine Activated.leaves hon hstack ?_ (fun other hne => (Frame.alike_of_ne hne).running) rfl
        (List.subset_cons_self _ _) handle
      simp [State.withStack, State.withFrame, Frame.suspend, Frame.running]
  | sleeps thread focus rest hstack =>
      refine Activated.leaves hon hstack ?_ (fun other hne => (Frame.alike_of_ne hne).running) rfl
        (List.Subset.refl _) handle
      simp [State.withStack, State.withFrame, Frame.suspend, Frame.running]
  | sends _ _ _ _ _ _ hstack hframe | receives _ _ _ _ _ hstack hframe =>
      refine hold.keeps ((Frame.alike_absorb _ handle _).running.trans
        (State.alike_withFrame (Frame.alike_begin hframe) handle).running) rfl fun hbody => ?_
      rw [hstack] at hbody
      exact List.mem_append_right _ hbody
  | awaits thread focus child source rest hstack htask hdone parked hparked =>
      subst hparked
      refine Activated.leaves hon hstack ?_ (fun other heq => ?_) rfl (List.subset_cons_self _ _)
        handle
      · by_cases hchild : focus = child
        · subst focus
          simp [State.withStack, State.withFrame, Frame.suspend, Frame.running]
        · simp [State.withStack, State.withFrame, Frame.suspend, Frame.running, hchild]
      · by_cases hchild : other = child
        · subst other
          simp [State.withStack, State.withFrame, heq, Frame.running]
        · simp [State.withStack, State.withFrame, heq, hchild]
  | continues thread focus source rest hstack hready =>
      have hstacks := (state.awaitResume_eq focus source).1
      exact hold.keeps (state.alike_awaitResume focus source handle).running
        (hstacks.trans (Function.update_eq_self thread state.callStacks).symm) id
  | finishes thread focus op rest ending tasks hstack hop hvoid hvalue =>
      refine Activated.leaves hon hstack ?_ (fun other hne => (Frame.alike_of_ne hne).running) rfl
        (List.Subset.refl _) handle
      cases ending <;> simp [State.withStack, State.withFrame, Frame.finish, Frame.running]

end Stacks

/-! ## Awaiting a started task -/

section Awaits

variable [Fintype Thread] [DecidableEq Thread] [DecidableEq Chan]

/-- The step completes an await by `parent`, which gets what the body of `child`
ended with. -/
def Yields (state : State Thread V Chan) (parent child : Handle) (next : State Thread V Chan) :
    Prop :=
  ∃ ending, (state.frames child).ended = some ending ∧
    next.receipts = state.receipts ++ [⟨parent, some child, .ending ending⟩]

/-- Nobody has taken the result out of the promise yet. -/
def FirstAwait (state : State Thread V Chan) (child : Handle) : Prop :=
  (state.frames child).void = true ∨ (state.frames child).exception.isSome = true ∨
    ¬ Awaited state child

/-- The call of the coroutine function has returned, and the coroutine has not
suspended: `go` and `spawn` call `run()` on such a coroutine, because
`go_helper::create` calls the function and has no `co_await`. -/
structure Returned (state : State Thread V Chan) (handle : Handle) : Prop where
  begun : (state.frames handle).status ≠ .unborn
  unsuspended : (state.frames handle).suspended = false
  offStack : ∀ thread, .body handle ∉ state.callStacks thread

/-- What awaits and starts of tasks do in one step. -/
structure StartsAndAwaits (watched : State Thread V Chan × List Start)
    (action : Action Thread V Chan) (after : State Thread V Chan × List Start) : Prop where
  /-- The first await of a task, when it completes, has yielded the result if the task
  has its coroutine still, and that is done. -/
  awaited : ∀ parent object, Completes watched.1 action parent object →
    ∀ child, FirstAwait watched.1 child →
    (Yields watched.1 parent child after.1 ↔
      watched.1.tasks[object]? = some (some child) ∧ (watched.1.frames child).done = true)
  /-- With a call of `run()` before that, it has done so if `run()` did not find the
  coroutine done. -/
  started : ∀ parent object, Completes watched.1 action parent object →
    ∀ start ∈ watched.2, start.object = object → FirstAwait watched.1 start.handle →
    (Yields watched.1 parent start.handle after.1 ↔
      start.foundDone = false ∧ (watched.1.frames start.handle).done = true)
  /-- The `run()` of `go` and `spawn` finds it done. -/
  launched : ∀ thread object child, action = .code thread (.runTask object) →
    watched.1.tasks[object]? = some (some child) → Returned watched.1 child →
    ⟨object, child, true⟩ ∈ after.2

variable {state next middle : State Thread V Chan} {object : Nat} {parent child : Handle}

omit [Fintype Thread] [DecidableEq Thread] [DecidableEq Chan] in
/-- A completed await yields the result of a coroutine exactly if the task owns
that coroutine, and it is done. -/
theorem Kept.yields_iff (hkept : Kept state)
    (hreceives : Receives state parent object next middle) (hfirst : FirstAwait state child) :
    Yields state parent child next ↔
      state.tasks[object]? = some (some child) ∧ (state.frames child).done = true := by
  by_cases htask : ∃ other, state.tasks[object]? = some (some other)
  · obtain ⟨other, htask⟩ := htask
    have hsame := hreceives.same other
    have hreceipts := (middle.awaitResume_of_task (hreceives.tasks ▸ htask) parent).1
    rw [← hreceives.receipts, hreceives.before] at hreceipts
    constructor
    · rintro ⟨ending, hended, hyields⟩
      obtain ⟨rfl, _⟩ : other = child ∧ _ := by simpa using hreceipts.symm.trans hyields
      refine ⟨htask, ?_⟩
      -- a coroutine that is not done has not ended in any way
      by_contra hdone
      have hnone := (hkept.pending other (by simpa using hdone)).2.2
      exact absurd (hnone.symm.trans hended) (by simp)
    · rintro ⟨howned, hdone⟩
      obtain rfl : other = child := by simpa [htask] using howned
      obtain ⟨ending, hended, hkeeps⟩ := hkept.finished other hdone
      refine ⟨ending, hended, ?_⟩
      rw [hreceipts, (Frame.awaitResume_of_keeps (hsame.keeps hdone hkeeps) ?_).1]
      rw [hsame.void hdone, hsame.exception]
      exact hfirst
  · have hnull := State.awaitResume_of_null (hreceives.tasks ▸ htask) parent
    have hreceipts : next.receipts = state.receipts ++ [⟨parent, none, .nullHandle⟩] := by
      rw [hreceives.receipts, hnull, hreceives.before]
    refine iff_of_false ?_ fun howned => htask ⟨child, howned.1⟩
    rintro ⟨ending, _, hyields⟩
    simpa using hreceipts.symm.trans hyields

omit [Fintype Thread] [DecidableEq Thread] [DecidableEq Chan] in
/-- A coroutine that began, is not suspended and is on no stack has finished. -/
theorem Returned.done (hreturned : Returned state child) (hon : Activated state child) :
    (state.frames child).done = true := by
  have hstopped : (state.frames child).running ≠ true := by
    intro hrunning
    obtain ⟨thread, hbody⟩ := hon hrunning
    exact hreturned.offStack thread hbody
  have hbegun := hreturned.begun
  have hunsuspended := hreturned.unsuspended
  unfold Frame.running at hstopped
  unfold Frame.suspended at hunsuspended
  unfold Frame.done
  cases hstatus : (state.frames child).status with
  | unborn => exact absurd hstatus hbegun
  | running => simp [hstatus] at hstopped
  | suspended point => simp [hstatus] at hunsuspended
  | finished => rfl

/-- In every run, whenever the first `co_await` of a task completes, at once or when
the suspended parent is resumed, it has yielded the result exactly if no `run()`
before found the coroutine done, and the coroutine is done by now; the `run()` of
`go` and `spawn` always finds it done. -/
theorem startsAndAwaits_throughout (capacity : Chan → Nat)
    (actions : List (Action Thread V Chan)) :
    ((machine Thread V Chan capacity).recording [] Start.record).Throughout StartsAndAwaits
      (initial capacity, []) actions := by
  refine Machine.throughout_of_invariant
    (fun watched => (∀ handle, RunsOnce watched.1 handle) ∧ Kept watched.1 ∧
      (∀ handle, Activated watched.1 handle) ∧ ∀ start ∈ watched.2, start.Stands watched.1.tasks)
    ?_ ?_ ⟨runsOnce_initial capacity, kept_initial capacity, ?_, List.forall_mem_nil _⟩
  · intro watched action after hinvariant hstep
    obtain ⟨hruns, hkept, hon, hstands⟩ := hinvariant
    obtain ⟨hnext, hrecord⟩ := Machine.recording_step hstep
    have hmoves := moves_of_step hnext
    refine ⟨hmoves.runsOnce hruns, hmoves.kept hruns hkept, hmoves.activated hon, ?_⟩
    rw [hrecord]
    exact Start.stands_of_step hnext hstands
  · intro watched action after hinvariant hstep
    obtain ⟨_, hkept, hon, hstands⟩ := hinvariant
    obtain ⟨hnext, hrecord⟩ := Machine.recording_step hstep
    refine ⟨?_, ?_, ?_⟩
    · intro parent object hcompletes child hfirst
      obtain ⟨middle, hreceives⟩ := hcompletes.receives hnext
      exact hkept.yields_iff hreceives hfirst
    · rintro parent object hcompletes start hstart rfl hfirst
      obtain ⟨middle, hreceives⟩ := hcompletes.receives hnext
      rw [hkept.yields_iff hreceives hfirst, hstands start hstart]
      cases start.foundDone <;> simp
    · rintro thread object child rfl htask hreturned
      have hdone := hreturned.done (hon child)
      rw [hrecord]
      simp [Start.record, htask, hdone]
  · intro handle hrunning
    simp [initial, Frame.unborn, Frame.running] at hrunning

/-- `go` of a callable that returns 42: the `co_await` on the task it returned
throws instead of giving 42. -/
theorem launched_task_run :
    ((machine Unit Nat Unit fun _ => 1).exec (initial fun _ => 1)
      [.code () (.create 0 false), .body () (.returnValue 42), .code () (.runTask 0), .proceed (),
        .proceed (), .code () (.create 1 true), .body () (.awaitTask 0)]).map
      (fun state => ((state.frames 0).ended, state.receipts)) =
        some (some (.returned (.data 42)), [⟨1, none, .nullHandle⟩]) ∧
      ((machine Unit Nat Unit fun _ => 1).exec (initial fun _ => 1)
        [.code () (.create 0 false), .body () (.returnValue 42), .code () (.create 1 true),
          .body () (.awaitTask 0)]).map State.receipts =
        some [⟨1, some 0, .ending (.returned (.data 42))⟩] := by
  decide

/-- `run()` on a coroutine that sleeps, and a parent that waits for it: the parent is
resumed after the coroutine has returned, and gets its value. -/
example : ((machine Unit Nat Unit fun _ => 1).exec (initial fun _ => 1)
    [.code () (.create 0 false), .body () .sleep, .code () (.runTask 0), .proceed (),
      .proceed (), .proceed (), .code () (.create 1 true), .body () (.awaitTask 0), .proceed (),
      .proceed (), .proceed (), .pop (), .proceed (), .proceed (), .body () (.returnValue 42),
      .proceed (), .proceed (), .proceed (), .code () (.runTask 1), .proceed (), .proceed (),
      .proceed (), .pop (), .proceed (), .proceed (), .proceed (), .pop (), .proceed (),
      .proceed ()]).map State.receipts =
    some [⟨1, some 0, .ending (.returned (.data 42))⟩] := by decide

end Awaits

end Tang.Runtime
