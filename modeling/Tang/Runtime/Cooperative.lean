import Mathlib.Data.Fintype.Basic
import Tang.Foundation.History
import Tang.Channel.Timely
import Tang.Runtime.Access
import Tang.Runtime.Traffic

/-! # Channels of a program whose operations are not divided

While no operation on a channel begins before the second section of an earlier
one, each of them is one call, and the channel is one queue for the program.
A program run by a single thread is of this kind whatever it does: the second
section of an awaiter or of `close` is on top of the stack, and the thread can
do nothing else.
-/

namespace Tang.Runtime

open Foundation Effect

variable {Thread V Chan : Type}

/-! ## Calls and replies -/

/-- A call on a channel of a program. -/
abbrev Request (V : Type) := Call Handle (Option Ticket) (Item (Option Ticket) V)

/-- What such a call does. -/
abbrev Response (V : Type) := Reply Handle (Option Ticket) (Item (Option Ticket) V)

/-- The calls made on a channel, and their replies. -/
structure Talk (V : Type) where
  calls : List (Request V) := []
  replies : List (Response V) := []
  deriving DecidableEq

/-- One more call. -/
def Talk.say (talk : Talk V) (call : Request V) (reply : Response V) : Talk V where
  calls := talk.calls ++ [call]
  replies := talk.replies ++ [reply]

/-- The call that an access completes. The attempt of an awaiter is one if it
succeeds, and the exchange of `close` is one if it finds the channel closed. -/
def Talk.hear (talk : Talk V) (conduit : Conduit V) : Option (Access V) → Talk V
  | none => talk
  | some (.trySend item) =>
      let out := conduit.trySend item
      match item.op with
      | none => talk.say (.trySend item) (Channel.reply out.result.1 out.effects)
      | some ticket =>
          if out.result.1 then talk.say (.send ticket.handle item) (Channel.reply true out.effects)
          else talk
  | some (.trySendMove item) =>
      let out := conduit.trySendMove item
      talk.say (.trySendMove item) (Channel.reply out.result.1 out.effects)
  | some (.tryRecv reader) =>
      let out := conduit.tryRecv reader none
      match reader with
      | none => talk.say (.tryRecv none) (Channel.reply out.result.1 out.effects)
      | some ticket =>
          if out.result.1 then
            talk.say (.recv ticket.handle (some ticket)) (Channel.reply true out.effects)
          else talk
  | some (.registerSend handle item) =>
      talk.say (.send handle item)
        (Channel.reply false (conduit.registerSendWaiter handle item).effects)
  | some (.registerRecv handle awaiter) =>
      talk.say (.recv handle awaiter)
        (Channel.reply false (conduit.registerRecvWaiter handle awaiter).effects)
  | some .exchange => if conduit.closed then talk.say .close (Channel.reply true []) else talk
  | some .flush => talk.say .close (Channel.reply true conduit.closeFlush.effects)

/-- The runs of all programs, with the calls on one channel on record. -/
def conversing (Thread V Chan : Type) [DecidableEq Thread] [DecidableEq Chan]
    (capacity : Chan → Nat) (chan : Chan) :
    Machine (State Thread V Chan × Talk V) (Action Thread V Chan) :=
  (machine Thread V Chan capacity).recording {} fun talk state action _ =>
    talk.hear (state.channels chan) (action.access chan state)

/-- The access is the second one of its operation. -/
def Access.completes : Access V → Bool
  | .registerSend _ _ | .registerRecv _ _ | .flush => true
  | .trySend _ | .trySendMove _ | .tryRecv _ | .exchange => false

/-- An operation on the channel begins only when none is between its sections. -/
def Undivided [DecidableEq Chan] (chan : Chan) (watched : State Thread V Chan × Talk V)
    (action : Action Thread V Chan) : Prop :=
  match action.access chan watched.1 with
  | none => True
  | some access => access.completes = true ∨
      ∀ thread, ∀ activity ∈ watched.1.callStacks thread, (activity.pending? chan).isNone

instance [DecidableEq Chan] [Fintype Thread] (chan : Chan)
    (watched : State Thread V Chan × Talk V) (action : Action Thread V Chan) :
    Decidable (Undivided chan watched action) := by
  unfold Undivided
  split <;> infer_instance

/-! ## The queue between the sections -/

/-- What the queue has to do with the channel while an operation is pending. -/
def Between (conduit : Conduit V) (fifo : Fifo Handle (Option Ticket) (Item (Option Ticket) V)) :
    Interleaving.Phase V → Prop
  | .sendTried _ => conduit = fifo.toChannel ∧ (conduit.closed = true ∨
      conduit.recvWaiters = [] ∧ conduit.capacity ≤ conduit.buffer.length)
  | .recvTried => conduit = fifo.toChannel ∧ conduit.buffer = [] ∧
      (conduit.closed = true ∨ conduit.sendWaiters = [])
  | .closing => fifo.closed = false ∧ conduit = { fifo.toChannel with closed := true }
  | .fresh | .suspended | .returned => False

variable [DecidableEq Chan] [DecidableEq Thread] {chan : Chan}

/-- No operation is pending and the channel is the queue, or exactly one is. -/
def Stands (chan : Chan) (conduit : Conduit V)
    (fifo : Fifo Handle (Option Ticket) (Item (Option Ticket) V))
    (callStacks : Thread → List (Activity V Chan)) : Prop :=
  (conduit = fifo.toChannel ∧ pendingAt chan callStacks = fun _ => none) ∨
    ∃ place phase, Between conduit fifo phase ∧
      pendingAt chan callStacks = Function.update (fun _ => none) place (some phase)

/-- The calls made so far have led to the queue, which explains the channel. -/
structure Queues (capacity : Nat) (chan : Chan) (watched : State Thread V Chan × Talk V)
    (fifo : Fifo Handle (Option Ticket) (Item (Option Ticket) V)) : Prop where
  run : (Fifo.replying Handle (Option Ticket) (Item (Option Ticket) V)).run (.new capacity)
    watched.2.calls = (watched.2.replies, fifo)
  stands : Stands chan (watched.1.channels chan) fifo watched.1.callStacks

theorem initial_queues (capacity : Chan → Nat) (chan : Chan) :
    Queues (capacity chan) chan ((initial capacity, {}) : State Thread V Chan × Talk V)
      (.new (capacity chan)) where
  run := rfl
  stands := Or.inl ⟨by simp [initial, Channel.new, Fifo.toChannel, Fifo.new],
    funext fun place => settled_nil.pendingIn place.2⟩

section Steps

variable {capacity : Nat} {watched : State Thread V Chan × Talk V} {next : State Thread V Chan}
  {fifo : Fifo Handle (Option Ticket) (Item (Option Ticket) V)} {place : Place Thread}
  {phase : Interleaving.Phase V}

/-- Nothing is pending when an operation begins, and the channel is the queue. -/
theorem Queues.idle (hqueues : Queues capacity chan watched fifo)
    (hsettled : ∀ thread, Settled chan (watched.1.callStacks thread)) :
    watched.1.channels chan = fifo.toChannel ∧
      pendingAt chan watched.1.callStacks = fun _ => none := by
  have hnone : pendingAt chan watched.1.callStacks = fun _ => none :=
    funext fun place => (hsettled place.1).pendingIn place.2
  rcases hqueues.stands with hidle | ⟨place, phase, _, hone⟩
  · exact hidle
  · have hpending := congrFun (hone.symm.trans hnone) place
    simp at hpending

/-- An operation that is pending is the only one. -/
theorem Queues.pending (hqueues : Queues capacity chan watched fifo)
    (hloses : Loses chan watched.1.callStacks next.callStacks place phase) :
    Between (watched.1.channels chan) fifo phase ∧
      pendingAt chan next.callStacks = fun _ => none := by
  have hhere := hloses.here
  have hothers := hloses.others
  rcases hqueues.stands with ⟨_, hnone⟩ | ⟨other, held, hbetween, hone⟩
  · simp [hnone] at hhere
  · rw [hone] at hhere hothers
    by_cases heq : place = other
    · subst other
      rw [Function.update_self] at hhere
      obtain rfl := Option.some.inj hhere
      refine ⟨hbetween, hothers.trans ?_⟩
      rw [Function.update_idem]
      exact Function.update_eq_self place fun _ => none
    · rw [Function.update_of_ne heq] at hhere
      cases hhere

/-- A call is made, and nothing is pending after it. -/
theorem Queues.speaks (hqueues : Queues capacity chan watched fifo) {conduit : Conduit V}
    {call : Request V} {reply : Response V} (hconduit : conduit = fifo.toChannel)
    (hstep : (Channel.system Handle (Option Ticket) (Item (Option Ticket) V)).step conduit call =
      (reply, next.channels chan))
    (hnone : pendingAt chan next.callStacks = fun _ => none) :
    ∃ fifo', Queues capacity chan (next, watched.2.say call reply) fifo' := by
  obtain ⟨fifo', hafter, hreply⟩ := Fifo.replying_of_system hconduit hstep
  refine ⟨fifo', ?_, Or.inl ⟨hafter, hnone⟩⟩
  change (Fifo.replying _ _ _).run _ (watched.2.calls ++ [call]) = (watched.2.replies ++ [reply], _)
  rw [Transducer.run_append, hqueues.run]
  simp only [Transducer.run, hreply]

/-- Nothing is said, and the queue stays. -/
theorem Queues.waits (hqueues : Queues capacity chan watched fifo)
    (hstands : Stands chan (next.channels chan) fifo next.callStacks) :
    ∃ fifo', Queues capacity chan (next, watched.2) fifo' :=
  ⟨fifo, hqueues.run, hstands⟩

/-- An attempt that is a call of its own, or the first section of an awaiter
which does not wait. -/
theorem Queues.attempts (hqueues : Queues capacity chan watched fifo) {access : Access V}
    (hattempts : access.Attempts)
    (hsettled : ∀ thread, Settled chan (watched.1.callStacks thread))
    (hnext : next.channels chan = access.channel (watched.1.channels chan))
    (hkeeps : Keeps chan watched.1.callStacks next.callStacks) :
    ∃ fifo', Queues capacity chan
      (next, watched.2.hear (watched.1.channels chan) (some access)) fifo' := by
  obtain ⟨hconduit, hnone⟩ := hqueues.idle hsettled
  have hafter := hkeeps.trans hnone
  cases access with
  | trySend item =>
      obtain ⟨ticket, value⟩ := item
      cases ticket with
      | none => exact hqueues.speaks hconduit (hnext ▸ rfl) hafter
      | some ticket =>
          simp only [Talk.hear]
          split
          next hready =>
            refine hqueues.speaks hconduit ?_ hafter
            simp [Channel.system, Channel.send, hready, hnext, Access.channel]
          next hfails =>
            have hout := (watched.1.channels chan).failed_attempt_keeps.1 _
              (Bool.eq_false_iff.mpr hfails)
            refine hqueues.waits (Or.inl ⟨?_, hafter⟩)
            rw [hnext, Access.channel, hout, hconduit]
  | trySendMove item => exact hqueues.speaks hconduit (hnext ▸ rfl) hafter
  | tryRecv reader =>
      cases reader with
      | none => exact hqueues.speaks hconduit (hnext ▸ rfl) hafter
      | some ticket =>
          simp only [Talk.hear]
          split
          next hready =>
            refine hqueues.speaks hconduit ?_ hafter
            simp [Channel.system, Channel.recv, hready, hnext, Access.channel]
          next hfails =>
            have hout := (watched.1.channels chan).failed_attempt_keeps.2.2 _ none
              (Bool.eq_false_iff.mpr hfails)
            refine hqueues.waits (Or.inl ⟨?_, hafter⟩)
            rw [hnext, Access.channel, hout, hconduit]
  | registerSend | registerRecv | exchange | flush => exact hattempts.elim

/-- Every access keeps the queue, if no operation begins while one is pending. -/
theorem Queues.steps (hqueues : Queues capacity chan watched fifo) {access : Option (Access V)}
    (hundivided : ∀ one, access = some one → one.completes = false →
      ∀ thread, Settled chan (watched.1.callStacks thread))
    (hsteps : Steps chan watched.1 next access) :
    ∃ fifo', Queues capacity chan (next, watched.2.hear (watched.1.channels chan) access)
      fifo' := by
  obtain ⟨hnext, htouches⟩ := hsteps
  cases htouches with
  | aside hkeeps =>
      refine hqueues.waits ?_
      have hstands := hqueues.stands
      unfold Stands at hstands ⊢
      rwa [hkeeps, hnext]
  | attempts access hattempts hkeeps =>
      have hbegins : access.completes = false := by
        cases access <;> first | rfl | exact hattempts.elim
      exact hqueues.attempts hattempts (hundivided _ rfl hbegins) hnext hkeeps
  | triesSend ticket value place hfails hgains =>
      obtain ⟨hconduit, hnone⟩ := hqueues.idle (hundivided _ rfl rfl)
      have hout := (watched.1.channels chan).failed_attempt_keeps.1 _ hfails
      have hsame : next.channels chan = watched.1.channels chan := by
        simpa [Access.channel, hout] using hnext
      simp only [Talk.hear, hfails, Bool.false_eq_true, if_false]
      refine hqueues.waits (Or.inr ⟨place, .sendTried value, ?_, hnone ▸ hgains⟩)
      rw [hsame]
      exact ⟨hconduit, Channel.blocked_of_trySend hfails⟩
  | triesRecv ticket place hfails hgains =>
      obtain ⟨hconduit, hnone⟩ := hqueues.idle (hundivided _ rfl rfl)
      have hout := (watched.1.channels chan).failed_attempt_keeps.2.2 _ none hfails
      have hsame : next.channels chan = watched.1.channels chan := by
        simpa [Access.channel, hout] using hnext
      simp only [Talk.hear, hfails, Bool.false_eq_true, if_false]
      refine hqueues.waits (Or.inr ⟨place, .recvTried, ?_, hnone ▸ hgains⟩)
      rw [hsame]
      exact ⟨hconduit, Channel.blocked_of_tryRecv hfails⟩
  | registersSend handle serial value place hloses =>
      obtain ⟨⟨hconduit, hblocked⟩, hafter⟩ := hqueues.pending hloses
      refine hqueues.speaks hconduit ?_ hafter
      simp [Channel.system, Channel.send, Channel.trySend_of_blocked hblocked, hnext,
        Access.channel]
  | registersRecv handle serial place hloses =>
      obtain ⟨⟨hconduit, hempty, hblocked⟩, hafter⟩ := hqueues.pending hloses
      refine hqueues.speaks hconduit ?_ hafter
      simp [Channel.system, Channel.recv, Channel.tryRecv_of_blocked hempty hblocked, hnext,
        Access.channel]
  | exchanges place hopen hgains =>
      obtain ⟨hconduit, hnone⟩ := hqueues.idle (hundivided _ rfl rfl)
      simp only [Talk.hear, hopen, Bool.false_eq_true, if_false]
      refine hqueues.waits (Or.inr ⟨place, .closing, ?_, hnone ▸ hgains⟩)
      rw [hconduit] at hopen
      exact ⟨hopen, hnext.trans (by rw [hconduit]; rfl)⟩
  | exchangesClosed hclosed hkeeps =>
      obtain ⟨hconduit, hnone⟩ := hqueues.idle (hundivided _ rfl rfl)
      simp only [Talk.hear, hclosed, if_true]
      refine hqueues.speaks hconduit ?_ (hkeeps.trans hnone)
      simp [Channel.system, Channel.close, Channel.closeExchange, hclosed, hnext, Access.channel]
  | flushes place hloses =>
      obtain ⟨⟨hopen, hconduit⟩, hafter⟩ := hqueues.pending hloses
      refine hqueues.speaks rfl ?_ hafter
      change fifo.toChannel.close = _
      rw [Channel.close_of_open hopen, ← hconduit, hnext]
      rfl

end Steps

/-! ## Undivided runs -/

section Runs

variable {capacity : Chan → Nat} {watched after : State Thread V Chan × Talk V}
  {action : Action Thread V Chan}

theorem Queues.step {fifo : Fifo Handle (Option Ticket) (Item (Option Ticket) V)}
    (hqueues : Queues (capacity chan) chan watched fifo)
    (hundivided : Undivided chan watched action)
    (hstep : (conversing Thread V Chan capacity chan).step watched action = some after) :
    ∃ fifo', Queues (capacity chan) chan after fifo' := by
  obtain ⟨next, talk⟩ := after
  obtain ⟨hmachine, hrecord⟩ := Machine.recording_step hstep
  change talk = watched.2.hear (watched.1.channels chan) (action.access chan watched.1) at hrecord
  subst hrecord
  refine hqueues.steps (fun access haccess hbegins => ?_) (steps_of_step hmachine)
  simp only [Undivided, haccess, hbegins, Bool.false_eq_true, false_or] at hundivided
  exact fun thread activity hactivity =>
    Option.isNone_iff_eq_none.mp (hundivided thread activity hactivity)

/-- The calls on a channel get the replies of one queue. -/
def Served (capacity : Nat) (talk : Talk V) : Prop :=
  ((Fifo.replying Handle (Option Ticket) (Item (Option Ticket) V)).run (.new capacity)
    talk.calls).1 = talk.replies

theorem Queues.served {fifo : Fifo Handle (Option Ticket) (Item (Option Ticket) V)}
    (hqueues : Queues (capacity chan) chan watched fifo) :
    Served (capacity chan) watched.2 := by
  rw [Served, hqueues.run]

/-- In every run of every program in which no operation on a channel begins
between the two sections of another one, the calls on the channel get the
replies of one queue, in the order in which they are made. -/
theorem served_of_undivided (capacity : Chan → Nat) (chan : Chan)
    (actions : List (Action Thread V Chan))
    (hundivided : (conversing Thread V Chan capacity chan).Meets (Undivided chan)
      (initial capacity, {}) actions) :
    (conversing Thread V Chan capacity chan).Along
      (fun watched => Served (capacity chan) watched.2) (initial capacity, {}) actions := by
  refine Machine.along_of_meets (fun watched => ∃ fifo, Queues (capacity chan) chan watched fifo)
    ?_ ?_ ⟨_, initial_queues capacity chan⟩ hundivided
  · rintro watched action after ⟨fifo, hqueues⟩ hcondition hstep
    exact hqueues.step hcondition hstep
  · rintro watched ⟨fifo, hqueues⟩
    exact hqueues.served

/-- A sender parks, a receiver on another thread takes its value, `close` ends
the channel, and the sender goes on. -/
theorem undivided_run_served :
    (conversing Bool Nat Unit (fun _ => 0) ()).Along (fun watched => Served 0 watched.2)
      (initial fun _ => 0, {})
      [.code false (.create 0 true), .body false (.send () 7), .proceed false,
        .code true (.tryRecv ()), .proceed true, .code false (.close ()), .proceed true,
        .proceed false, .proceed true, .pop true] :=
  served_of_undivided (fun _ => 0) () _ (by decide)

end Runs

/-! ## One thread -/

section OneThread

variable {main thread : Thread} {state next : State Thread V Chan}
  {action : Action Thread V Chan} {rest : List (Activity V Chan)}

/-- Only one thread has begun anything, and what it has under its top activity
is no second section. -/
structure Alone (chan : Chan) (main : Thread) (state : State Thread V Chan) : Prop where
  others : ∀ thread, thread ≠ main → state.callStacks thread = []
  below : Settled chan (state.callStacks main).tail

omit [DecidableEq Thread] in
theorem Alone.under {activity : Activity V Chan} (halone : Alone chan main state)
    (hstack : state.callStacks main = activity :: rest) : Settled chan rest := by
  have hbelow := halone.below
  rwa [hstack] at hbelow

omit [DecidableEq Thread] in
/-- Code on top is no second section either. -/
theorem Alone.code (halone : Alone chan main state)
    (hcode : atCode (state.callStacks main) = true) : Settled chan (state.callStacks main) := by
  cases hstack : state.callStacks main with
  | nil => exact settled_nil
  | cons activity rest =>
      refine settled_cons.mpr ⟨?_, halone.under hstack⟩
      rw [hstack] at hcode
      cases activity <;> first | rfl | cases hcode

/-- A step of the thread replaces what is on top of its stack. -/
theorem Alone.update (halone : Alone chan main state) (above : List (Activity V Chan))
    (hstacks : next.callStacks = Function.update state.callStacks main (above ++ rest))
    (hrest : Settled chan rest) (habove : Settled chan above.tail) : Alone chan main next where
  others thread hne := by rw [hstacks, Function.update_of_ne hne, halone.others thread hne]
  below := by
    rw [hstacks, Function.update_self]
    cases above with
    | nil => exact fun activity hmem => hrest activity (List.mem_of_mem_tail hmem)
    | cons first others => exact settled_append.mpr ⟨habove, hrest⟩

theorem settled_schedules_tail (handles : List Handle) :
    Settled chan (handles.map (Activity.scheduling : Handle → Activity V Chan)).tail :=
  fun activity hmem => settled_schedules handles activity (List.mem_of_mem_tail hmem)

theorem Moves.alone (hmoves : Moves state action next) (hmain : action.thread = main)
    (halone : Alone chan main state) : Alone chan main next := by
  subst hmain
  cases hmoves with
  | follows _ activity rest after active hstack hafter =>
      refine halone.update _ rfl (halone.under hstack) ?_
      cases hafter <;> exact settled_nil
  | reschedules _ handle rest hstack _ =>
      exact halone.update [.scheduling handle] rfl (halone.under hstack) settled_nil
  | resumes _ handle rest hstack =>
      obtain ⟨_, above, habove, hnext⟩ := state.resume_aside _ handle rest
      refine halone.update above hnext (halone.under hstack) ?_
      rcases habove with rfl | rfl <;> simp [Activity.pending?]
  | enqueues _ handle rest hstack =>
      exact halone.update [] rfl (halone.under hstack) settled_nil
  | destroys _ handle rest hstack =>
      refine halone.update _ rfl (halone.under hstack) ?_
      split <;> exact settled_nil
  | registersSend _ _ _ _ rest hstack | registersRecv _ _ _ rest hstack | flushes _ _ rest hstack =>
      exact halone.update _ rfl (halone.under hstack) (settled_schedules_tail _)
  | pops _ handle queue hstack _ =>
      exact halone.update [.popped handle] rfl settled_nil settled_nil
  | wakes _ handle hstack _ =>
      exact halone.update [.scheduling handle] rfl settled_nil settled_nil
  | quits _ handle hstack => exact halone.update [] rfl settled_nil settled_nil
  | stops _ hcode => exact ⟨halone.others, halone.below⟩
  | creates _ handle void hcode _ =>
      exact halone.update [.body handle] rfl (halone.code hcode) settled_nil
  | handles _ op tasks above hcode habove _ =>
      refine halone.update _ rfl (halone.code hcode) fun activity hmem => ?_
      rcases habove activity (List.mem_of_mem_tail hmem) with rfl | ⟨_, rfl⟩ <;> rfl
  | runs _ source handle active hcode _ _ =>
      exact halone.update [.scheduling handle] rfl (halone.code hcode) settled_nil
  | trySend _ _ _ _ _ hcode _ | tryRecv _ _ hcode =>
      exact halone.update _ rfl (halone.code hcode) (settled_schedules_tail _)
  | exchanges _ channel hcode above habove =>
      refine halone.update above rfl (halone.code hcode) ?_
      rcases habove with rfl | rfl <;> exact settled_nil
  | yields _ handle rest hstack =>
      exact halone.update [.scheduling handle] rfl (halone.under hstack) settled_nil
  | sleeps _ handle rest hstack =>
      exact halone.update [] rfl (halone.under hstack) settled_nil
  | sends _ _ _ _ _ rest hstack _ | receives _ _ _ _ rest hstack _ =>
      exact halone.update _ rfl (settled_cons.mpr ⟨rfl, halone.under hstack⟩)
        (settled_schedules_tail _)
  | parksSender _ handle channel value frame rest hstack hframe =>
      exact halone.update [.registeringSend handle channel value] rfl
        (halone.under hstack) settled_nil
  | parksReceiver _ handle channel frame rest hstack hframe =>
      exact halone.update [.registeringRecv handle channel] rfl
        (halone.under hstack) settled_nil
  | awaits _ handle child source rest hstack _ _ parked hparked =>
      subst hparked
      exact halone.update [.scheduling child] rfl (halone.under hstack) settled_nil
  | continues _ handle source rest hstack _ =>
      obtain ⟨hstacks, _⟩ := state.awaitResume_eq handle source
      exact ⟨hstacks ▸ halone.others, hstacks ▸ halone.below⟩
  | finishes _ handle op rest ending tasks hstack _ _ _ =>
      exact halone.update [] rfl (halone.under hstack) settled_nil

/-- An operation that begins is called by code, so nothing is pending. -/
theorem Alone.undivided {capacity : Chan → Nat} {talk : Talk V} (halone : Alone chan main state)
    (hmain : action.thread = main)
    (hstep : (machine Thread V Chan capacity).step state action = some next) :
    Undivided chan (state, talk) action := by
  subst hmain
  have hidle : atCode (state.callStacks action.thread) = true → ∀ thread,
      ∀ activity ∈ state.callStacks thread, (activity.pending? chan).isNone := by
    intro hcode thread activity hactivity
    by_cases heq : thread = action.thread
    · rw [heq] at hactivity
      rw [halone.code hcode activity hactivity]
      rfl
    · rw [halone.others thread heq] at hactivity
      cases hactivity
  unfold Undivided
  split
  next => trivial
  next access haccess =>
    cases action with
    | proceed thread =>
        obtain ⟨activity, hactivity, hone⟩ := Option.bind_eq_some_iff.mp haccess
        refine Or.inl ?_
        cases activity <;> simp only [Activity.access, Option.ite_none_right_eq_some,
          reduceCtorEq] at hone
        all_goals
          obtain ⟨_, hone⟩ := hone
          cases hone
          rfl
    | code thread op =>
        refine Or.inr (hidle ?_)
        change (if atCode (state.callStacks thread) then state.code thread op else none) =
          some next at hstep
        split at hstep
        next hcode => exact hcode
        next => cases hstep
    | body thread op =>
        refine Or.inr (hidle ?_)
        simp only [Action.access] at haccess
        split at haccess
        next handle rest hstack =>
          simp only [Action.thread, hstack]
          rfl
        next => cases haccess
    | pop | wake | quit | stop => cases haccess

/-- In every run of every program in which one thread takes all steps, every
channel is a queue: its calls get the replies of one, in the order in which they
are made. -/
theorem served_of_one_thread (capacity : Chan → Nat) (chan : Chan) (main : Thread)
    (actions : List (Action Thread V Chan)) (hmain : ∀ action ∈ actions, action.thread = main) :
    (conversing Thread V Chan capacity chan).Along
      (fun watched => Served (capacity chan) watched.2) (initial capacity, {}) actions := by
  refine Machine.along_of_meets
    (fun watched => (∃ fifo, Queues (capacity chan) chan watched fifo) ∧ Alone chan main watched.1)
    ?_ ?_ ⟨⟨_, initial_queues capacity chan⟩, fun _ _ => rfl, settled_nil⟩
    (Machine.meets_of_forall (fun action haction _ => hmain action haction) _)
  · rintro watched action after ⟨⟨fifo, hqueues⟩, halone⟩ hthread hstep
    have hmachine := (Machine.recording_step hstep).1
    exact ⟨hqueues.step (halone.undivided hthread hmachine) hstep,
      (moves_of_step hmachine).alone hthread halone⟩
  · rintro watched ⟨⟨fifo, hqueues⟩, _⟩
    exact hqueues.served

/-- Two coroutines of one thread meet on a channel without a buffer. -/
theorem one_thread_run_served :
    (conversing Unit Nat Unit (fun _ => 0) ()).Along (fun watched => Served 0 watched.2)
      (initial fun _ => 0, {})
      [.code () (.create 0 true), .body () (.send () 7), .proceed (), .code () (.create 1 true),
        .body () (.recv ()), .proceed (), .proceed (), .proceed (), .body () (.recv ()),
        .proceed (), .pop (), .proceed (), .proceed (), .code () (.close ()), .proceed ()] :=
  served_of_one_thread (fun _ => 0) () () _ (by simp [Action.thread])

end OneThread

end Tang.Runtime
