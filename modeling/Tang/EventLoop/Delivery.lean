import Mathlib.Data.List.Forall2
import Tang.Foundation.History
import Tang.EventLoop.Loop

/-! # What a call of `run` collects and hands over

Every call of `run` collects its own batches, and a handler may call `run`
again once the loop is stopped, so the calls of one thread are a stack. Whatever
threads and handlers do, a call hands over what it collected, each event once
and in the order of the report. Only an exception makes it leave events behind:
`stop()` in the middle of a batch does not.
-/

namespace Tang.EventLoop.Delivery

open Foundation Loop

variable {Thread Source : Type}

/-- The events a call of `run` has collected so far, and those it has passed to
`on_event`. -/
structure Receipt (Source : Type) where
  collected : List (Event Source) := []
  handed : List (Event Source) := []
  deriving DecidableEq

/-- What a step of the call adds. -/
def Receipt.note (receipt : Receipt Source) (poller : Poller Source) :
    Phase Source → Move → Receipt Source
  | .polling _, .wake entries =>
      { receipt with collected := receipt.collected ++ poller.collect entries }
  | .dispatching (event :: _), .dispatch => { receipt with handed := receipt.handed ++ [event] }
  | _, _ => receipt

/-- A call of `run` that is over: it returned, or an exception left it. -/
structure Closing (Source : Type) where
  receipt : Receipt Source
  thrown : Bool
  deriving DecidableEq

/-- The receipts of the calls each thread is in, the innermost first, and those
of the calls that are over. -/
structure Log (Thread Source : Type) where
  underway : Thread → List (Receipt Source) := fun _ => []
  closings : List (Closing Source) := []

/-- The step is an exception of a callback or a handler. -/
def thrown : Move → Bool
  | .throws => true
  | .test _ | .examine | .returns | .poll | .wake _ | .expire | .interrupt => false
  | .dispatch | .handled | .next => false

variable [DecidableEq Thread]

/-- The log after a step. -/
def record (log : Log Thread Source) (state : State Thread Source) (action : Action Thread Source)
    (next : State Thread Source) : Log Thread Source :=
  match action with
  | .run thread =>
      if state.running then log
      else { log with
        underway := Function.update log.underway thread ({} :: log.underway thread) }
  | .move thread move =>
      match state.frames thread, log.underway thread with
      | phase :: callers, receipt :: others =>
          if (next.frames thread).length = callers.length then
            { underway := Function.update log.underway thread others
              closings := log.closings ++ [⟨receipt, thrown move⟩] }
          else { log with
            underway := Function.update log.underway thread
              (receipt.note state.poller phase move :: others) }
      | _, _ => log
  | .call _ _ | .arrive _ | .withdraw _ => log

/-- The event loop with the log. -/
def recorded (Thread Source : Type) [DecidableEq Thread] (opened : Bool) :
    Machine (State Thread Source × Log Thread Source) (Action Thread Source) :=
  (Loop.machine Thread Source opened).recording {} record

/-! ## A call and its batch -/

/-- What a call has collected is what it has handed over, and then the rest of
its batch. -/
def Balanced (phase : Phase Source) (receipt : Receipt Source) : Prop :=
  receipt.collected = receipt.handed ++ phase.batch

/-- Whoever collected an event handed it over, or an exception came first. -/
def Closing.Settled (closing : Closing Source) : Prop :=
  if closing.thrown then closing.receipt.handed <+: closing.receipt.collected
  else closing.receipt.handed = closing.receipt.collected

/-- All calls hand over what they collect, once and in order. -/
structure HandsOver (watched : State Thread Source × Log Thread Source) : Prop where
  underway : ∀ thread, List.Forall₂ Balanced (watched.1.frames thread) (watched.2.underway thread)
  closings : ∀ closing ∈ watched.2.closings, closing.Settled

section Steps

variable {state next middle : State Thread Source} {log : Log Thread Source}
  {phase later : Phase Source} {move : Move} {receipt : Receipt Source}
  {action : Action Thread Source} {thread : Thread}

omit [DecidableEq Thread] in
/-- A step inside a call keeps its balance. -/
theorem Balanced.note (hbalanced : Balanced phase receipt)
    (hwalks : Walks state phase move middle (some later)) :
    Balanced later (receipt.note state.poller phase move) := by
  unfold Balanced at hbalanced ⊢
  cases hwalks with
  | wakes waitTime entries _ =>
      simp only [Phase.batch, List.append_nil] at hbalanced
      simp [Receipt.note, Phase.batch, hbalanced]
  | dispatches event rest => simpa [Receipt.note, Phase.batch] using hbalanced
  | enters | examines | erases | polls | fails | expires | interrupts | handled | next =>
      exact hbalanced

omit [DecidableEq Thread] in
/-- A call that is over has settled its receipt. -/
theorem Balanced.settled (hbalanced : Balanced phase receipt)
    (hwalks : Walks state phase move middle none) :
    (⟨receipt, thrown move⟩ : Closing Source).Settled := by
  unfold Balanced at hbalanced
  cases hwalks with
  | leaves =>
      simp only [Phase.batch, List.append_nil] at hbalanced
      exact hbalanced.symm
  | throws => exact ⟨_, hbalanced.symm⟩

/-- The stack of one thread is replaced together with its receipts. -/
theorem HandsOver.update (hhands : HandsOver (state, log)) {frames : List (Phase Source)}
    {receipts : List (Receipt Source)} {closings : List (Closing Source)}
    (hframes : next.frames = Function.update state.frames thread frames)
    (hbalanced : List.Forall₂ Balanced frames receipts)
    (hclosings : ∀ closing ∈ closings, closing.Settled) :
    HandsOver (next, ⟨Function.update log.underway thread receipts, closings⟩) := by
  refine ⟨fun other => ?_, hclosings⟩
  dsimp only
  rw [hframes]
  by_cases hother : other = thread
  · subst hother
    rwa [Function.update_self, Function.update_self]
  · rw [Function.update_of_ne hother, Function.update_of_ne hother]
    exact hhands.underway other

theorem HandsOver.walks {callers : List (Phase Source)} {later : Option (Phase Source)}
    (hhands : HandsOver (state, log)) (hframes : state.frames thread = phase :: callers)
    (hwalks : Walks state phase move middle later)
    (hnext : next = middle.setFrames thread (later.toList ++ callers)) :
    HandsOver (next, record log state (.move thread move) next) := by
  have hthread : List.Forall₂ Balanced (state.frames thread) (log.underway thread) :=
    hhands.underway thread
  rw [hframes] at hthread
  obtain ⟨receipt, others, hbalanced, hothers, hunderway⟩ := List.forall₂_cons_left_iff.mp hthread
  have hstack : next.frames thread = later.toList ++ callers := by simp [hnext]
  have hmiddle : next.frames = Function.update state.frames thread (later.toList ++ callers) := by
    rw [hnext, State.setFrames_frames, hwalks.frame.2.2]
  simp only [record, hframes, hunderway, hstack]
  cases later with
  | none =>
      rw [if_pos (by simp)]
      refine hhands.update hmiddle hothers fun closing hclosing => ?_
      rcases List.mem_append.mp hclosing with hold | hnew
      · exact hhands.closings closing hold
      · rw [List.mem_singleton.mp hnew]
        exact hbalanced.settled hwalks
  | some later =>
      rw [if_neg (by simp)]
      exact hhands.update hmiddle (.cons (hbalanced.note hwalks) hothers) hhands.closings

theorem HandsOver.step {opened : Bool} {watched after : State Thread Source × Log Thread Source}
    (hhands : HandsOver watched)
    (hstep : (recorded Thread Source opened).step watched action = some after) :
    HandsOver after := by
  obtain ⟨state, log⟩ := watched
  obtain ⟨next, kept⟩ := after
  obtain ⟨hmachine, hrecord⟩ := Machine.recording_step hstep
  have hmoves : Moves state action next := moves_of_step hmachine
  dsimp only at hrecord
  subst hrecord
  cases hmoves with
  | calls thread call _ _ hperform =>
      have hframes := State.perform_frames hperform
      exact ⟨fun other => hframes ▸ hhands.underway other, hhands.closings⟩
  | returnsAtOnce thread hrunning =>
      rw [record, if_pos hrunning]
      exact hhands
  | starts thread _ hrunning =>
      rw [record, if_neg (by simp [hrunning])]
      exact hhands.update rfl (.cons rfl (hhands.underway thread)) hhands.closings
  | walks thread move middle phase callers later hframes hwalks =>
      exact hhands.walks hframes hwalks rfl
  | arrives | withdraws => exact ⟨hhands.underway, hhands.closings⟩

end Steps

/-- In every interleaving of any threads, with handlers that stop the loop, run
it again or throw, every call of `run` hands over the events it has collected,
each once and in the order of the reports: those not yet handed over are the
rest of its batch, none is left when the call returns, and only an exception
drops any. -/
theorem handsOver_along (opened : Bool) (actions : List (Action Thread Source)) :
    (recorded Thread Source opened).Along HandsOver (recorded Thread Source opened).start
      actions :=
  Machine.along_of_invariant HandsOver (fun _ _ _ hhands hstep => hhands.step hstep)
    (fun _ hhands => hhands) ⟨fun _ => .nil, fun _ hclosing => absurd hclosing List.not_mem_nil⟩

/-- The first handler of a batch stops the loop and runs it again. Another
thread stops it once more, the call inside the handler ends without any event,
and the outer one still hands over the rest of its batch. -/
example :
    ((recorded Bool Bool true).exec (recorded Bool Bool true).start
      [.call false (.register (some false) 5 1 false),
        .call false (.register (some true) 6 1 false),
        .run false, .move false (.test 0), .move false .poll, .arrive 5, .arrive 6,
        .move false (.wake [(5, 1), (6, 1)]), .move false .dispatch, .call false .stop, .run false,
        .call true .stop, .move false (.test 0), .move false .handled, .move false .dispatch,
        .move false .handled, .move false .next, .move false (.test 0)]).map
      (fun watched => watched.2.closings) =
    some [⟨{}, false⟩, ⟨⟨[⟨false, 1⟩, ⟨true, 1⟩], [⟨false, 1⟩, ⟨true, 1⟩]⟩, false⟩] := by
  decide

end Tang.EventLoop.Delivery
