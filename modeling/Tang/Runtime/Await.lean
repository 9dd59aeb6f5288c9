import Tang.Runtime.Resumption

/-! # Awaiting a task

`await_suspend` of a task stores the continuation in the promise of the child
and schedules the child; `final_suspend` never looks at the continuation. The
promise of a finished child is all that `await_resume` needs, so an await is
right when the child is finished before it. The first await of a value moves the
value out.
-/

namespace Tang.Runtime

open Foundation Effect

variable {Thread V Chan : Type}

/-! ## The promise of a frame -/

/-- What the promise of a finished frame holds, until it is `awaited`. -/
def Frame.Keeps (frame : Frame V Chan) (awaited : Prop) : Ending V → Prop
  | .raised error => frame.exception = some error
  | .returnedVoid => frame.exception = none ∧ frame.void = true
  | .returned content => frame.exception = none ∧ frame.void = false ∧
      (frame.result = some content ∨ awaited)

namespace Frame

/-- Nothing happened to the promise of the frame. -/
structure SameResult (before after : Frame V Chan) : Prop where
  done : after.done = before.done
  ended : after.ended = before.ended
  void : before.done = true → after.void = before.void
  result : after.result = before.result
  exception : after.exception = before.exception

/-- Nor did an await of a task begin. -/
structure SamePromise (before after : Frame V Chan) : Prop extends before.SameResult after where
  awaiting : ∀ source, after.status = .suspended (.task source) →
    before.status = .suspended (.task source)

theorem SameResult.trans {first second third : Frame V Chan} (hfirst : first.SameResult second)
    (hsecond : second.SameResult third) : first.SameResult third where
  done := hsecond.done.trans hfirst.done
  ended := hsecond.ended.trans hfirst.ended
  void hdone := (hsecond.void (hfirst.done.trans hdone)).trans (hfirst.void hdone)
  result := hsecond.result.trans hfirst.result
  exception := hsecond.exception.trans hfirst.exception

theorem SamePromise.refl (frame : Frame V Chan) : frame.SamePromise frame :=
  ⟨⟨rfl, rfl, fun _ => rfl, rfl, rfl⟩, fun _ => id⟩

theorem SamePromise.trans {first second third : Frame V Chan} (hfirst : first.SamePromise second)
    (hsecond : second.SamePromise third) : first.SamePromise third where
  toSameResult := hfirst.toSameResult.trans hsecond.toSameResult
  awaiting source hstatus := hfirst.awaiting source (hsecond.awaiting source hstatus)

theorem samePromise_update {frames : Handle → Frame V Chan} {frame : Frame V Chan}
    {focus : Handle} (hframe : (frames focus).SamePromise frame) (handle : Handle) :
    (frames handle).SamePromise (Function.update frames focus frame handle) :=
  (Function.forall_update_iff frames fun other after => (frames other).SamePromise after).mpr
    ⟨hframe, fun _ _ => .refl _⟩ handle

theorem sameResult_update {frames : Handle → Frame V Chan} {frame : Frame V Chan}
    {focus : Handle} (hframe : (frames focus).SameResult frame) (handle : Handle) :
    (frames handle).SameResult (Function.update frames focus frame handle) :=
  (Function.forall_update_iff frames fun other after => (frames other).SameResult after).mpr
    ⟨hframe, fun _ _ => (SamePromise.refl _).toSameResult⟩ handle

theorem samePromise_absorb (frame : Frame V Chan) (handle : Handle) (effects : List (Signal V)) :
    frame.SamePromise (frame.absorb handle effects) := by
  refine ⟨⟨?_, rfl, fun _ => rfl, rfl, rfl⟩, fun source => ?_⟩
  all_goals
    cases hstatus : frame.status with
    | suspended point => cases point <;> simp [Frame.absorb, Frame.done, Status.absorb, hstatus]
    | _ => simp [Frame.absorb, Frame.done, Status.absorb, hstatus]

theorem done_of_running {frame : Frame V Chan} (hrunning : frame.running = true) :
    frame.done = false := by
  unfold running at hrunning
  unfold done
  split at hrunning
  next hstatus => rw [hstatus]
  next => cases hrunning
  next => cases hrunning
  next => cases hrunning

/-- A coroutine that is not done suspends. -/
theorem sameResult_suspend {frame : Frame V Chan} (hdone : frame.done = false)
    (point : Point V Chan) : frame.SameResult (frame.suspend point) :=
  ⟨hdone.symm, rfl, fun _ => rfl, rfl, rfl⟩

theorem samePromise_suspend {frame : Frame V Chan} {point : Point V Chan}
    (hdone : frame.done = false) (hpoint : ∀ source, point ≠ .task source) :
    frame.SamePromise (frame.suspend point) where
  toSameResult := sameResult_suspend hdone point
  awaiting source hstatus := by
    cases hstatus
    exact absurd rfl (hpoint source)

/-- `await_resume` gives the ending of a finished frame that keeps its promise. -/
theorem awaitResume_of_keeps {frame : Frame V Chan} {ending : Ending V} {awaited : Prop}
    (hkeeps : frame.Keeps awaited ending)
    (hfirst : frame.void = true ∨ frame.exception.isSome = true ∨ ¬ awaited) :
    frame.awaitResume.1 = .ending ending ∧ frame.awaitResume.2.Keeps True ending := by
  cases ending with
  | raised error =>
      have hexception : frame.exception = some error := hkeeps
      simp [awaitResume, Frame.Keeps, hexception]
  | returnedVoid =>
      obtain ⟨hexception, hvoid⟩ := hkeeps
      simp [awaitResume, Frame.Keeps, hexception, hvoid]
  | returned content =>
      obtain ⟨hexception, hvoid, hresult⟩ := hkeeps
      have hfresh : ¬ awaited := by simpa [hvoid, hexception] using hfirst
      have hresult := hresult.resolve_right hfresh
      cases content <;> simp [awaitResume, Frame.Keeps, hexception, hvoid, hresult]

/-- An await moves the result out of the promise, or gets the exception. -/
theorem Keeps.awaitResume {frame : Frame V Chan} {awaited : Prop} {ending : Ending V}
    (hkeeps : frame.Keeps awaited ending) : frame.awaitResume.2.Keeps True ending := by
  obtain ⟨result, hframe⟩ := frame.awaitResume_frame
  cases ending with
  | raised error =>
      rw [hframe]
      exact hkeeps
  | returnedVoid =>
      rw [hframe]
      exact hkeeps
  | returned content =>
      rw [hframe]
      exact ⟨hkeeps.1, hkeeps.2.1, Or.inr trivial⟩

/-- An await of an empty promise changes nothing. -/
theorem awaitResume_of_empty {frame : Frame V Chan} (hresult : frame.result = none)
    (hexception : frame.exception = none) : frame.awaitResume.2 = frame := by
  unfold Frame.awaitResume
  rw [hresult, hexception]
  dsimp only
  split <;> rfl

theorem Keeps.mono {frame : Frame V Chan} {before after : Prop} {ending : Ending V}
    (hkeeps : frame.Keeps before ending) (himp : before → after) :
    frame.Keeps after ending := by
  cases ending with
  | returned content => exact ⟨hkeeps.1, hkeeps.2.1, hkeeps.2.2.imp_right himp⟩
  | _ => exact hkeeps

/-- A frame with the same promise keeps it. -/
theorem SameResult.keeps {before after : Frame V Chan} {awaited : Prop} {ending : Ending V}
    (hsame : before.SameResult after) (hdone : before.done = true)
    (hkeeps : before.Keeps awaited ending) : after.Keeps awaited ending := by
  have hvoid := hsame.void hdone
  cases ending with
  | raised error => exact hsame.exception.trans hkeeps
  | returnedVoid => exact ⟨hsame.exception.trans hkeeps.1, hvoid.trans hkeeps.2⟩
  | returned content =>
      refine ⟨hsame.exception.trans hkeeps.1, hvoid.trans hkeeps.2.1, ?_⟩
      rw [hsame.result]
      exact hkeeps.2.2

end Frame

section Frames

variable {state : State Thread V Chan}

/-- `await_resume` of a task object that owns `child` records what the frame
gives, and moves the result out of the frame. -/
theorem State.awaitResume_of_task {source : Nat} {child : Handle}
    (htask : state.tasks[source]? = some (some child)) (parent : Handle) :
    (state.awaitResume parent source).receipts =
        state.receipts ++ [⟨parent, some child, (state.frames child).awaitResume.1⟩] ∧
      (state.awaitResume parent source).frames =
        Function.update state.frames child (state.frames child).awaitResume.2 := by
  simp [State.awaitResume, htask, State.withFrame]

/-- `await_resume` of any other task object only throws. -/
theorem State.awaitResume_of_null {source : Nat}
    (hnull : ¬ ∃ child, state.tasks[source]? = some (some child)) (parent : Handle) :
    state.awaitResume parent source =
      { state with receipts := state.receipts ++ [⟨parent, none, .nullHandle⟩] } := by
  unfold State.awaitResume
  split
  next child hchild => exact absurd ⟨child, hchild⟩ hnull
  next => rfl

end Frames

/-! ## The promises of all frames -/

/-- Some await of the coroutine has been completed. -/
def Awaited (state : State Thread V Chan) (handle : Handle) : Prop :=
  ∃ receipt ∈ state.receipts, receipt.child = some handle

/-- The promises of finished frames keep what the bodies ended with, and those of
other frames are empty, whoever awaits whom and when. -/
structure Kept (state : State Thread V Chan) : Prop where
  pending : ∀ handle, (state.frames handle).done = false →
    (state.frames handle).result = none ∧ (state.frames handle).exception = none ∧
      (state.frames handle).ended = none
  finished : ∀ handle, (state.frames handle).done = true → ∃ ending,
    (state.frames handle).ended = some ending ∧
      (state.frames handle).Keeps (Awaited state handle) ending

namespace Kept

variable {state next : State Thread V Chan}

theorem steady (hkept : Kept state)
    (hframes : ∀ handle, (state.frames handle).SameResult (next.frames handle))
    (hreceipts : next.receipts = state.receipts) : Kept next := by
  refine ⟨fun handle hdone => ?_, fun handle hdone => ?_⟩
  · have hsame := hframes handle
    rw [hsame.result, hsame.exception, hsame.ended]
    exact hkept.pending handle (hsame.done.symm.trans hdone)
  · have hsame := hframes handle
    have hbefore := hsame.done.symm.trans hdone
    obtain ⟨ending, hending, hkeeps⟩ := hkept.finished handle hbefore
    refine ⟨ending, hsame.ended.trans hending, ?_⟩
    have hawaited : Awaited next handle ↔ Awaited state handle := by
      rw [Awaited, Awaited, hreceipts]
    rw [hawaited]
    exact hsame.keeps hbefore hkeeps

/-- The body of `focus` ends, and fills its promise. -/
theorem finishes (hkept : Kept state) {focus : Handle} {ending : Ending V}
    (hdone : (state.frames focus).done = false)
    (hvoid : ∀ content, ending = .returned content → (state.frames focus).void = false)
    (hvalue : ending = .returnedVoid → (state.frames focus).void = true)
    (hframes : next.frames = Function.update state.frames focus
      ((state.frames focus).finish ending))
    (hreceipts : next.receipts = state.receipts) : Kept next := by
  obtain ⟨_, hexception, _⟩ := hkept.pending focus hdone
  have hawaited : ∀ handle, Awaited next handle ↔ Awaited state handle := by
    intro handle
    rw [Awaited, Awaited, hreceipts]
  refine ⟨fun handle => ?_, fun handle => ?_⟩
  · by_cases heq : handle = focus
    · intro hpending
      rw [heq, hframes, Function.update_self] at hpending
      cases ending <;> cases hpending
    · rw [hframes, Function.update_of_ne heq]
      exact hkept.pending handle
  · by_cases heq : handle = focus
    · intro _
      rw [heq, hframes, Function.update_self]
      refine ⟨ending, by cases ending <;> rfl, ?_⟩
      cases ending with
      | raised error => rfl
      | returnedVoid => exact ⟨hexception, hvalue rfl⟩
      | returned content => exact ⟨hexception, hvoid content rfl, Or.inl rfl⟩
    · rw [hframes, Function.update_of_ne heq, hawaited]
      exact hkept.finished handle

/-- Nothing changes but that one more await is on record. -/
theorem recorded (hkept : Kept state) (hframes : next.frames = state.frames)
    (hreceipts : state.receipts ⊆ next.receipts) : Kept next := by
  refine ⟨fun handle hdone => ?_, fun handle hdone => ?_⟩
  · rw [hframes] at hdone ⊢
    exact hkept.pending handle hdone
  · rw [hframes] at hdone ⊢
    obtain ⟨ending, hended, hkeeps⟩ := hkept.finished handle hdone
    refine ⟨ending, hended, hkeeps.mono ?_⟩
    rintro ⟨receipt, hreceipt, hchild⟩
    exact ⟨receipt, hreceipts hreceipt, hchild⟩

/-- `await_resume`, in time or too early. -/
theorem awaitResume (hkept : Kept state) (parent : Handle) (source : Nat) :
    Kept (state.awaitResume parent source) := by
  by_cases htask : ∃ child, state.tasks[source]? = some (some child)
  · obtain ⟨child, htask⟩ := htask
    obtain ⟨hreceipts, hframes⟩ := state.awaitResume_of_task htask parent
    have hsubset : state.receipts ⊆ (state.awaitResume parent source).receipts := by
      rw [hreceipts]
      exact List.subset_append_left _ _
    cases hdone : (state.frames child).done with
    | false =>
        obtain ⟨hresult, hexception, _⟩ := hkept.pending child hdone
        refine hkept.recorded ?_ hsubset
        rw [hframes, Frame.awaitResume_of_empty hresult hexception, Function.update_eq_self]
    | true =>
        obtain ⟨result, hframe⟩ := (state.frames child).awaitResume_frame
        have hawaited : Awaited (state.awaitResume parent source) child :=
          ⟨_, by rw [hreceipts]; exact List.mem_append_right _ List.mem_cons_self, rfl⟩
        refine ⟨fun handle => ?_, fun handle => ?_⟩
        · by_cases heq : handle = child
          · intro hpending
            rw [heq, hframes, Function.update_self, hframe] at hpending
            exact absurd (hpending.symm.trans hdone) Bool.false_ne_true
          · rw [hframes, Function.update_of_ne heq]
            exact hkept.pending handle
        · intro hfinished
          by_cases heq : handle = child
          · obtain ⟨ending, hended, hkeeps⟩ := hkept.finished child hdone
            rw [heq, hframes, Function.update_self]
            refine ⟨ending, by rw [hframe]; exact hended, hkeeps.awaitResume.mono fun _ => hawaited⟩
          · rw [hframes, Function.update_of_ne heq] at hfinished ⊢
            obtain ⟨ending, hended, hkeeps⟩ := hkept.finished handle hfinished
            refine ⟨ending, hended, hkeeps.mono ?_⟩
            rintro ⟨receipt, hreceipt, hchild⟩
            exact ⟨receipt, hsubset hreceipt, hchild⟩
  · rw [State.awaitResume_of_null htask]
    exact hkept.recorded rfl (List.subset_append_left _ _)

end Kept

/-! ## What a step does to the promises -/

/-- The await of `object` by `parent` is over with this action: `await_ready` holds,
or the suspended parent is resumed. -/
inductive Completes (state : State Thread V Chan) :
    Action Thread V Chan → Handle → Nat → Prop
  | ready (thread : Thread) (parent : Handle) (object : Nat) (rest : List (Activity V Chan))
      (hstack : state.callStacks thread = .body parent :: rest)
      (hready : ∀ child, state.tasks[object]? = some (some child) →
        (state.frames child).done = true) :
      Completes state (.body thread (.awaitTask object)) parent object
  | resumed (thread : Thread) (parent : Handle) (object : Nat) (rest : List (Activity V Chan))
      (hstack : state.callStacks thread = .resuming parent :: rest)
      (hstatus : (state.frames parent).status = .suspended (.task object)) :
      Completes state (.proceed thread) parent object

/-- `await_resume` has run, in a state with the same promises. -/
structure Receives (state : State Thread V Chan) (parent : Handle) (object : Nat)
    (next : State Thread V Chan) (middle : State Thread V Chan) : Prop where
  same : ∀ handle, (state.frames handle).SamePromise (middle.frames handle)
  tasks : middle.tasks = state.tasks
  before : middle.receipts = state.receipts
  frames : next.frames = (middle.awaitResume parent object).frames
  receipts : next.receipts = (middle.awaitResume parent object).receipts

inductive Promises (state : State Thread V Chan) (action : Action Thread V Chan)
    (next : State Thread V Chan) : Prop
  | keeps (hframes : ∀ handle, (state.frames handle).SamePromise (next.frames handle))
      (hreceipts : next.receipts = state.receipts)
  /-- A parent suspends in the await of a task that is not finished. -/
  | parks (thread : Thread) (object : Nat) (child : Handle)
      (haction : action = .body thread (.awaitTask object))
      (htask : state.tasks[object]? = some (some child))
      (hdone : (state.frames child).done = false)
      (hframes : ∀ handle, (state.frames handle).SameResult (next.frames handle))
      (hreceipts : next.receipts = state.receipts)
  | receives (parent : Handle) (object : Nat) (middle : State Thread V Chan)
      (hcompletes : Completes state action parent object)
      (hreceives : Receives state parent object next middle)
  /-- The body of `focus` ends, and fills its promise. -/
  | finishes (focus : Handle) (ending : Ending V) (hdone : (state.frames focus).done = false)
      (hvoid : ∀ content, ending = .returned content → (state.frames focus).void = false)
      (hvalue : ending = .returnedVoid → (state.frames focus).void = true)
      (hframes : next.frames = Function.update state.frames focus
        ((state.frames focus).finish ending))
      (hreceipts : next.receipts = state.receipts)

section Steps

variable [DecidableEq Thread] {state next : State Thread V Chan}
  {action : Action Thread V Chan}

theorem Frame.samePromise_wake {frame : Frame V Chan} {point : Point V Chan}
    (hstatus : frame.status = .suspended point) : frame.SamePromise frame.wake := by
  refine ⟨⟨?_, rfl, fun _ => rfl, rfl, rfl⟩, fun source hsource => ?_⟩
  · simp [Frame.wake, Frame.done, hstatus]
  · simp [Frame.wake] at hsource

variable [DecidableEq Chan]

theorem Completes.receives {parent : Handle} {object : Nat}
    (hcompletes : Completes state action parent object)
    (hstep : step state action = some next) :
    ∃ middle, Receives state parent object next middle := by
  cases hcompletes with
  | ready thread parent object rest hstack hready =>
      have hnext : next = state.awaitResume parent object := by
        simp only [step, hstack, State.bodyOp] at hstep
        split at hstep
        next => cases hstep
        next => exact (Option.some.inj hstep).symm
        next child htask =>
          rw [if_pos (hready child htask)] at hstep
          exact (Option.some.inj hstep).symm
      rw [hnext]
      exact ⟨state, fun _ => .refl _, rfl, rfl, rfl, rfl⟩
  | resumed thread parent object rest hstack hstatus =>
      simp only [step, hstack, State.activity, Option.some.injEq] at hstep
      subst hstep
      rcases state.resume_cases thread parent rest with
        ⟨point, hpoint, hother, _⟩ | ⟨source, hsource, hnext⟩ | ⟨hnot, _⟩
      · rw [hstatus] at hpoint
        cases hpoint
        exact absurd rfl (hother object)
      · obtain rfl : object = source := by simpa [hstatus] using hsource
        rw [hnext]
        exact ⟨state.withFrame parent (state.frames parent).wake,
          Frame.samePromise_update (Frame.samePromise_wake hstatus), rfl, rfl, rfl, rfl⟩
      · exact absurd hstatus (hnot _)

variable [Fintype Thread]

theorem Moves.promises (hmoves : Moves state action next)
    (hruns : ∀ handle, RunsOnce state handle) (hkept : Kept state) :
    Promises state action next := by
  have hrunning : ∀ {thread focus rest}, state.callStacks thread = .body focus :: rest →
      (state.frames focus).done = false := fun hstack =>
    Frame.done_of_running ((hruns _).of_body hstack).1
  have hbegins : ∀ {focus frame}, frame = { state.frames focus with
      serial := (state.frames focus).serial + 1 } → (state.frames focus).SamePromise frame := by
    rintro focus frame rfl
    exact ⟨⟨rfl, rfl, fun _ => rfl, rfl, rfl⟩, fun _ => id⟩
  have hsame : ∀ {frames : Handle → Frame V Chan}, frames = state.frames →
      ∀ handle, (state.frames handle).SamePromise (frames handle) := by
    rintro frames rfl handle
    exact .refl _
  cases hmoves with
  | follows | reschedules | enqueues | pops | wakes | quits | handles | runs =>
      exact .keeps (hsame rfl) rfl
  | resumes thread focus rest hstack =>
      rcases state.resume_cases thread focus rest with
        ⟨point, hstatus, _, hnext⟩ | ⟨source, hstatus, hnext⟩ | ⟨_, hnext⟩
      · rw [hnext]
        exact .keeps (Frame.samePromise_update (Frame.samePromise_wake hstatus)) rfl
      · rw [hnext]
        refine .receives focus source (state.withFrame focus (state.frames focus).wake)
          (.resumed thread focus source rest hstack hstatus) ⟨?_, rfl, rfl, rfl, rfl⟩
        exact Frame.samePromise_update (Frame.samePromise_wake hstatus)
      · rw [hnext]
        exact .keeps (Frame.samePromise_update
          ⟨⟨rfl, rfl, fun _ => rfl, rfl, rfl⟩, fun _ => id⟩) rfl
  | destroys =>
      exact .keeps (Frame.samePromise_update
        ⟨⟨rfl, rfl, fun _ => rfl, rfl, rfl⟩, fun _ => id⟩) rfl
  | registersSend | registersRecv | flushes | trySend | tryRecv | exchanges =>
      exact .keeps (fun handle => Frame.samePromise_absorb _ handle _) rfl
  | stops =>
      refine .keeps (fun handle => ?_) rfl
      simp only [State.clearQueue]
      split
      · exact ⟨⟨rfl, rfl, fun _ => rfl, rfl, rfl⟩, fun _ => id⟩
      · exact .refl _
  | creates thread focus void hcode hunborn =>
      have hdone : (state.frames focus).done = false := by simp [Frame.done, hunborn]
      obtain ⟨hresult, hexception, hended⟩ := hkept.pending focus hdone
      refine .keeps (Frame.samePromise_update ⟨⟨?_, ?_, ?_, ?_, ?_⟩, ?_⟩) rfl
      · exact hdone.symm
      · exact hended.symm
      · simp [hdone]
      · exact hresult.symm
      · exact hexception.symm
      · simp [Frame.created]
  | yields _ _ _ hstack | sleeps _ _ _ hstack =>
      exact .keeps (Frame.samePromise_update
        (Frame.samePromise_suspend (hrunning hstack) (by simp))) rfl
  | sends _ _ _ _ _ _ hstack hframe | receives _ _ _ _ _ hstack hframe =>
      exact .keeps (fun handle => (Frame.samePromise_update (hbegins hframe) handle).trans
        (Frame.samePromise_absorb _ handle _)) rfl
  | parksSender _ _ _ _ _ _ hstack hframe | parksReceiver _ _ _ _ _ hstack hframe =>
      have hdone := (hbegins hframe).done.trans (hrunning hstack)
      exact .keeps (Frame.samePromise_update
        ((hbegins hframe).trans (Frame.samePromise_suspend hdone (by simp)))) rfl
  | awaits thread focus child source rest hstack htask hdone parked hparked =>
      refine .parks thread source child rfl htask hdone (fun handle => ?_) (by rw [hparked]; rfl)
      have hfirst : (state.frames handle).SameResult (parked.frames handle) := by
        rw [hparked]
        exact Frame.sameResult_update (Frame.sameResult_suspend (hrunning hstack) _) handle
      have hsecond : (parked.frames child).SameResult
          { parked.frames child with continuation := some focus } :=
        ⟨rfl, rfl, fun _ => rfl, rfl, rfl⟩
      exact hfirst.trans (Frame.sameResult_update hsecond handle)
  | continues thread focus source rest hstack hready =>
      exact .receives focus source state (.ready thread focus source rest hstack hready)
        ⟨fun _ => .refl _, rfl, rfl, rfl, rfl⟩
  | finishes thread focus op rest ending tasks hstack hop hvoid hvalue =>
      exact .finishes focus ending (hrunning hstack) hvoid hvalue rfl rfl

omit [DecidableEq Thread] [DecidableEq Chan] [Fintype Thread] in
theorem Promises.kept (hpromises : Promises state action next) (hkept : Kept state) :
    Kept next := by
  cases hpromises with
  | keeps hframes hreceipts =>
      exact hkept.steady (fun handle => (hframes handle).toSameResult) hreceipts
  | parks _ _ _ _ _ _ hframes hreceipts => exact hkept.steady hframes hreceipts
  | receives parent object middle _ hreceives =>
      have hmiddle : Kept middle :=
        hkept.steady (fun handle => (hreceives.same handle).toSameResult) hreceives.before
      have hafter := hmiddle.awaitResume parent object
      refine hafter.recorded hreceives.frames ?_
      rw [hreceives.receipts]
      exact List.Subset.refl _
  | finishes focus ending hdone hvoid hvalue hframes hreceipts =>
      exact hkept.finishes hdone hvoid hvalue hframes hreceipts

theorem Moves.kept (hmoves : Moves state action next) (hruns : ∀ handle, RunsOnce state handle)
    (hkept : Kept state) : Kept next :=
  (hmoves.promises hruns hkept).kept hkept

omit [DecidableEq Thread] [DecidableEq Chan] [Fintype Thread] in
theorem kept_initial (capacity : Chan → Nat) :
    Kept (initial capacity : State Thread V Chan) := by
  constructor <;> simp [initial, Frame.unborn, Frame.done]

end Steps

/-! ## Every step keeps the promises -/

/-- The child has finished, and the parent got what it ended with. -/
def Receipt.Faithful (state : State Thread V Chan) (receipt : Receipt V) : Prop :=
  ∃ child ending, receipt.child = some child ∧ (state.frames child).done = true ∧
    (state.frames child).ended = some ending ∧ receipt.received = .ending ending

/-- Nobody is suspended in an await of a task, and every receipt is faithful. -/
structure Promised (state : State Thread V Chan) : Prop extends Kept state where
  awaiting : ∀ handle source, (state.frames handle).status ≠ .suspended (.task source)
  received : ∀ receipt ∈ state.receipts, receipt.Faithful state

/-- A receipt stays faithful, because a finished coroutine does not change its ending. -/
theorem Receipt.Faithful.steady {state next : State Thread V Chan} {receipt : Receipt V}
    (hfaithful : receipt.Faithful state)
    (hframes : ∀ handle, (state.frames handle).done = true →
      (next.frames handle).done = true ∧
        (next.frames handle).ended = (state.frames handle).ended) :
    receipt.Faithful next := by
  obtain ⟨child, ending, hchild, hdone, hended, hreceived⟩ := hfaithful
  obtain ⟨hstill, hsame⟩ := hframes child hdone
  exact ⟨child, ending, hchild, hstill, hsame.trans hended, hreceived⟩

section Runs

variable [Fintype Thread] [DecidableEq Thread] [DecidableEq Chan]
  {state next : State Thread V Chan} {action : Action Thread V Chan}

/-- The task object of a `co_await`. -/
def Action.awaits? : Action Thread V Chan → Option Nat
  | .body _ (.awaitTask source) => some source
  | _ => none

/-- Every `co_await` finds a task whose coroutine has finished and was not
destroyed, and a task with a value is awaited once. -/
def AwaitsFinished (state : State Thread V Chan) (action : Action Thread V Chan) : Prop :=
  ∀ source ∈ action.awaits?, ∃ child ∈ state.tasks[source]?.join,
    (state.frames child).live = true ∧ (state.frames child).done = true ∧
      ((state.frames child).void = true ∨ (state.frames child).exception.isSome = true ∨
        ¬ Awaited state child)

instance (handle : Handle) : Decidable (Awaited state handle) :=
  inferInstanceAs (Decidable (∃ receipt ∈ state.receipts, receipt.child = some handle))

instance : Decidable (AwaitsFinished state action) :=
  inferInstanceAs (Decidable (∀ source ∈ action.awaits?, ∃ child ∈ state.tasks[source]?.join,
    (state.frames child).live = true ∧ (state.frames child).done = true ∧
      ((state.frames child).void = true ∨ (state.frames child).exception.isSome = true ∨
        ¬ Awaited state child)))

omit [Fintype Thread] [DecidableEq Thread] [DecidableEq Chan] in
/-- An await that finds its task finished and not yet awaited is faithful. -/
theorem Promised.receives {parent source : Nat} {middle : State Thread V Chan} {child : Handle}
    (hpromised : Promised state) (hreceives : Receives state parent source next middle)
    (htask : state.tasks[source]? = some (some child))
    (hdone : (state.frames child).done = true)
    (hfirst : (state.frames child).void = true ∨ (state.frames child).exception.isSome = true ∨
      ¬ Awaited state child) (hkept : Kept next) : Promised next := by
  have hmiddle := hreceives.same child
  obtain ⟨hreceipts, hframes⟩ := middle.awaitResume_of_task (hreceives.tasks ▸ htask) parent
  rw [← hreceives.receipts, hreceives.before] at hreceipts
  rw [← hreceives.frames] at hframes
  obtain ⟨ending, hended, hkeeps⟩ := hpromised.finished child hdone
  have hgiven := (Frame.awaitResume_of_keeps (hmiddle.keeps hdone hkeeps) (by
    rwa [hmiddle.void hdone, hmiddle.exception])).1
  -- only the result has left the promise of the child
  have hstatus : ∀ handle, (next.frames handle).status = (middle.frames handle).status ∧
      (next.frames handle).done = (state.frames handle).done ∧
        (next.frames handle).ended = (state.frames handle).ended := by
    intro handle
    have hsame := hreceives.same handle
    obtain ⟨result, hframe⟩ := middle.awaitResume_frame parent source handle
    rw [hreceives.frames, hframe]
    exact ⟨rfl, hsame.done, hsame.ended⟩
  refine ⟨hkept, fun handle other hother => ?_, fun receipt hreceipt => ?_⟩
  · rw [(hstatus handle).1] at hother
    exact hpromised.awaiting handle other ((hreceives.same handle).awaiting other hother)
  · rw [hreceipts] at hreceipt
    rcases List.mem_append.mp hreceipt with hold | hnew
    · refine (hpromised.received receipt hold).steady fun handle hfinished => ?_
      exact ⟨(hstatus handle).2.1.trans hfinished, (hstatus handle).2.2⟩
    · obtain rfl := List.mem_singleton.mp hnew
      exact ⟨child, ending, rfl, (hstatus child).2.1.trans hdone,
        (hstatus child).2.2.trans hended, hgiven⟩

omit [Fintype Thread] [DecidableEq Thread] [DecidableEq Chan] in
theorem Promises.promised (hpromises : Promises state action next)
    (hcondition : AwaitsFinished state action) (hpromised : Promised state) : Promised next := by
  have hkept := hpromises.kept hpromised.toKept
  cases hpromises with
  | keeps hframes hreceipts =>
      refine ⟨hkept, fun handle source hstatus => ?_, fun receipt hreceipt => ?_⟩
      · exact hpromised.awaiting handle source ((hframes handle).awaiting source hstatus)
      · rw [hreceipts] at hreceipt
        exact (hpromised.received receipt hreceipt).steady fun handle hdone =>
          ⟨(hframes handle).done.trans hdone, (hframes handle).ended⟩
  | parks thread source child haction htask hdone =>
      -- the condition rules out the await of an unfinished child
      subst haction
      obtain ⟨other, hother, _, hfinished, _⟩ := hcondition source rfl
      obtain rfl : child = other := by simpa [htask] using hother
      rw [hdone] at hfinished
      cases hfinished
  | receives parent source middle hcompletes hreceives =>
      cases hcompletes with
      | resumed thread _ _ rest hstack hstatus =>
          exact absurd hstatus (hpromised.awaiting parent source)
      | ready thread _ _ rest hstack hready =>
          obtain ⟨child, hchild, _, hdone, hfirst⟩ := hcondition source rfl
          exact hpromised.receives hreceives (Option.join_eq_some_iff.mp hchild) hdone hfirst
            hkept
  | finishes focus ending hdone hvoid hvalue hframes hreceipts =>
      refine ⟨hkept, fun handle source => ?_, fun receipt hreceipt => ?_⟩
      · rw [hframes]
        by_cases heq : handle = focus
        · rw [heq, Function.update_self]
          cases ending <;> simp [Frame.finish]
        · rw [Function.update_of_ne heq]
          exact hpromised.awaiting handle source
      · rw [hreceipts] at hreceipt
        refine (hpromised.received receipt hreceipt).steady fun handle hfinished => ?_
        -- a receipt is about a finished child, and `focus` finishes only now
        have hne : handle ≠ focus := by
          rintro rfl
          exact absurd (hdone.symm.trans hfinished) Bool.false_ne_true
        rw [hframes, Function.update_of_ne hne]
        exact ⟨hfinished, rfl⟩

omit [Fintype Thread] [DecidableEq Thread] [DecidableEq Chan] in
theorem promised_initial (capacity : Chan → Nat) :
    Promised (initial capacity : State Thread V Chan) :=
  ⟨kept_initial capacity, by simp [initial, Frame.unborn], by simp [initial]⟩

variable [Fintype Chan]

/-- Every parent that went on got what its finished child ended with; a parent
that waits for a child has one wake-up if the child has finished and none
before. -/
structure AwaitsCompletion (state : State Thread V Chan) : Prop where
  received : ∀ receipt ∈ state.receipts, receipt.Faithful state
  woken : ∀ parent source, (state.frames parent).status = .suspended (.task source) →
    ∀ child, state.tasks[source]? = some (some child) →
      wakeups state parent = if (state.frames child).done then 1 else 0

/-- In every run in which every `co_await` finds its task finished and not yet
awaited, awaiting a task waits for it. -/
theorem awaitsCompletion_along (capacity : Chan → Nat) (actions : List (Action Thread V Chan))
    (hmeets : (machine Thread V Chan capacity).Meets AwaitsFinished (initial capacity) actions) :
    (machine Thread V Chan capacity).Along AwaitsCompletion (initial capacity) actions := by
  refine Machine.along_of_meets
    (fun state => (∀ handle, RunsOnce state handle) ∧ Promised state) ?_ ?_
    ⟨runsOnce_initial capacity, promised_initial capacity⟩ hmeets
  · intro state action next hinvariant hcondition hstep
    have hmoves := moves_of_step hstep
    exact ⟨hmoves.runsOnce hinvariant.1,
      (hmoves.promises hinvariant.1 hinvariant.2.toKept).promised hcondition hinvariant.2⟩
  · intro state hinvariant
    exact ⟨hinvariant.2.received, fun parent source hstatus =>
      absurd hstatus (hinvariant.2.awaiting parent source)⟩

/-- A parent awaits a child that returned 42 without suspending. -/
theorem awaitsCompletion_value_run :
    (machine Unit Nat Unit fun _ => 1).Along AwaitsCompletion (initial fun _ => 1)
      [.code () (.create 0 false), .body () (.returnValue 42), .code () (.create 1 true),
        .body () (.awaitTask 0), .body () .returnVoid] :=
  awaitsCompletion_along (fun _ => 1) _ (by decide)

/-- The child suspends twice: the parent is resumed between, because the resume
loop scheduled it, and goes on although the child has not finished. -/
theorem unfinished_child_run :
    ¬ (machine Unit Nat Unit fun _ => 1).Along AwaitsCompletion (initial fun _ => 1)
      [.code () (.create 0 true), .body () .yield, .proceed (), .proceed (), .proceed (), .pop (),
        .proceed (), .proceed (), .code () (.create 1 true), .body () .sleep,
        .body () (.awaitTask 1), .proceed (), .proceed (), .proceed (), .proceed (), .proceed (),
        .proceed (), .proceed (), .pop (), .proceed (), .proceed (), .body () .sleep, .proceed (),
        .proceed (), .proceed (), .proceed (), .pop (), .proceed (), .proceed ()] := by
  intro halong
  have hlast := halong.last rfl
  obtain ⟨child, ending, hchild, hdone, _⟩ :=
    hlast.received ⟨0, some 1, .ending .returnedVoid⟩ (by decide)
  cases hchild
  exact absurd hdone (by decide)

end Runs

end Tang.Runtime
