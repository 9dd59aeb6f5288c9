import Tang.Channel.Interleaving
import Tang.Channel.Conservation

/-! # Wake-ups of parked senders and receivers

A parked party can only be woken by another operation, so it must not be parked
while it could proceed, and every registration must lead to one
`runtime::schedule`. Both laws fail in a window between `await_ready` and
`await_suspend`, and each fails at one branch of a registration only.
-/

namespace Tang

/-- Receivers are parked only at an empty buffer. -/
def Channel.ReceiversBlocked {H A T : Type} (channel : Channel H A T) : Prop :=
  channel.recvWaiters ≠ [] → channel.buffer = []

/-- Senders are parked only at a full buffer. -/
def Channel.SendersBlocked {H A T : Type} (channel : Channel H A T) : Prop :=
  channel.sendWaiters ≠ [] → channel.buffer.length = channel.capacity

/-- Nobody is parked who could proceed. -/
def Channel.NoLostWakeup {H A T : Type} (channel : Channel H A T) : Prop :=
  channel.ReceiversBlocked ∧ channel.SendersBlocked

namespace Channel

variable {H A T : Type} {channel : Channel H A T}

/-! ## Attempts keep parked parties blocked -/

theorem ReceiversBlocked.trySendWith (hblocked : channel.ReceiversBlocked) (value : T)
    (used : Option T) : (channel.trySendWith value used).channel.ReceiversBlocked := by
  rcases channel.trySendWith_cases value used with
    ⟨_, hout⟩ | ⟨waiter, rest, _, hwaiters, hout⟩ | ⟨_, hwaiters, _, hout⟩
  · rw [hout]
    exact hblocked
  · rw [hout]
    exact fun _ => hblocked (by simp [hwaiters])
  · rw [hout]
    exact fun hparked => absurd hwaiters hparked

theorem SendersBlocked.trySendWith (hblocked : channel.SendersBlocked) (value : T)
    (used : Option T) : (channel.trySendWith value used).channel.SendersBlocked := by
  rcases channel.trySendWith_cases value used with
    ⟨_, hout⟩ | ⟨waiter, rest, _, _, hout⟩ | ⟨_, _, hroom, hout⟩
  · rw [hout]
    exact hblocked
  · rw [hout]
    exact hblocked
  · rw [hout]
    intro hparked
    have hfull := hblocked hparked
    omega

theorem ReceiversBlocked.tryRecv (hblocked : channel.ReceiversBlocked)
    (hwf : channel.WellFormed) (reader : A) (old : Option T) :
    (channel.tryRecv reader old).channel.ReceiversBlocked := by
  rcases channel.tryRecv_cases reader old with
    ⟨front, buffer, waiter, rest, _, hwaiters, hout⟩ | ⟨front, buffer, hbuffer, _, hout⟩ |
      ⟨waiter, rest, _, hbuffer, _, hout⟩ | ⟨_, _, hout⟩
  · rw [hout]
    exact fun hparked => absurd (hwf.recvWaiters_nil hwaiters) hparked
  · rw [hout]
    intro hparked
    have hempty := hblocked hparked
    simp [hempty] at hbuffer
  · rw [hout]
    exact fun _ => hbuffer
  · rw [hout]
    exact hblocked

theorem SendersBlocked.tryRecv (hblocked : channel.SendersBlocked) (reader : A)
    (old : Option T) : (channel.tryRecv reader old).channel.SendersBlocked := by
  rcases channel.tryRecv_cases reader old with
    ⟨front, buffer, waiter, rest, hbuffer, hwaiters, hout⟩ |
      ⟨front, buffer, _, hwaiters, hout⟩ | ⟨waiter, rest, _, _, hwaiters, hout⟩ |
      ⟨_, _, hout⟩
  · have hfull := hblocked (by simp [hwaiters])
    rw [hbuffer, List.length_cons] at hfull
    rw [hout]
    intro _
    simpa using hfull
  · rw [hout]
    exact fun hparked => absurd hwaiters hparked
  · rw [hout]
    exact fun _ => hblocked (by simp [hwaiters])
  · rw [hout]
    exact hblocked

theorem NoLostWakeup.trySendWith (hwake : channel.NoLostWakeup) (value : T)
    (used : Option T) : (channel.trySendWith value used).channel.NoLostWakeup :=
  ⟨ReceiversBlocked.trySendWith hwake.1 value used, SendersBlocked.trySendWith hwake.2 value used⟩

theorem NoLostWakeup.tryRecv (hwake : channel.NoLostWakeup) (hwf : channel.WellFormed)
    (reader : A) (old : Option T) : (channel.tryRecv reader old).channel.NoLostWakeup :=
  ⟨ReceiversBlocked.tryRecv hwake.1 hwf reader old, SendersBlocked.tryRecv hwake.2 reader old⟩

/-! ## Registrations keep the law on a condition -/

theorem ReceiversBlocked.registerSendWaiter (hblocked : channel.ReceiversBlocked)
    (handle : H) (value : T) :
    (channel.registerSendWaiter handle value).channel.ReceiversBlocked := by
  rcases channel.registerSendWaiter_cases handle value with
    ⟨_, hout⟩ | ⟨waiter, rest, _, hwaiters, hout⟩ | ⟨_, _, hout⟩
  · rw [hout]
    exact hblocked
  · rw [hout]
    exact fun _ => hblocked (by simp [hwaiters])
  · rw [hout]
    exact hblocked

theorem ReceiversBlocked.registerRecvWaiter (hblocked : channel.ReceiversBlocked)
    (hempty : channel.closed = false → channel.sendWaiters = [] → channel.buffer = [])
    (handle : H) (awaiter : A) :
    (channel.registerRecvWaiter handle awaiter).channel.ReceiversBlocked := by
  rcases channel.registerRecvWaiter_cases handle awaiter with
    ⟨_, hout⟩ | ⟨waiter, rest, _, _, hout⟩ | ⟨hclosed, hwaiters, hout⟩
  · rw [hout]
    exact hblocked
  · rw [hout]
    exact hblocked
  · rw [hout]
    exact fun _ => hempty hclosed hwaiters

theorem SendersBlocked.registerSendWaiter (hblocked : channel.SendersBlocked)
    (hfull : channel.recvWaiters = [] → channel.buffer.length = channel.capacity)
    (handle : H) (value : T) :
    (channel.registerSendWaiter handle value).channel.SendersBlocked := by
  rcases channel.registerSendWaiter_cases handle value with
    ⟨_, hout⟩ | ⟨waiter, rest, _, _, hout⟩ | ⟨_, hwaiters, hout⟩
  · rw [hout]
    exact hblocked
  · rw [hout]
    exact hblocked
  · rw [hout]
    exact fun _ => hfull hwaiters

theorem SendersBlocked.registerRecvWaiter (hblocked : channel.SendersBlocked) (handle : H)
    (awaiter : A) : (channel.registerRecvWaiter handle awaiter).channel.SendersBlocked := by
  rcases channel.registerRecvWaiter_cases handle awaiter with
    ⟨_, hout⟩ | ⟨waiter, rest, _, hwaiters, hout⟩ | ⟨_, _, hout⟩
  · rw [hout]
    exact hblocked
  · rw [hout]
    exact fun _ => hblocked (by simp [hwaiters])
  · rw [hout]
    exact hblocked

/-- On an open channel, registering a sender keeps the law exactly if a
receiver is parked or the buffer is full. -/
theorem NoLostWakeup.registerSendWaiter_iff (hwake : channel.NoLostWakeup)
    (hclosed : channel.closed = false) (handle : H) (value : T) :
    (channel.registerSendWaiter handle value).channel.NoLostWakeup ↔
      (channel.recvWaiters = [] → channel.buffer.length = channel.capacity) := by
  refine ⟨fun hnext hnone => ?_, fun hfull =>
    ⟨ReceiversBlocked.registerSendWaiter hwake.1 handle value,
      SendersBlocked.registerSendWaiter hwake.2 hfull handle value⟩⟩
  rcases channel.registerSendWaiter_cases handle value with
    ⟨hclosed', _⟩ | ⟨waiter, rest, _, hwaiters, _⟩ | ⟨_, _, hout⟩
  · simp [hclosed] at hclosed'
  · simp [hnone] at hwaiters
  · rw [hout] at hnext
    exact hnext.2 (by simp)

/-- On an open channel, registering a receiver keeps the law exactly if a
sender is parked or the buffer is empty. -/
theorem NoLostWakeup.registerRecvWaiter_iff (hwake : channel.NoLostWakeup)
    (hclosed : channel.closed = false) (handle : H) (awaiter : A) :
    (channel.registerRecvWaiter handle awaiter).channel.NoLostWakeup ↔
      (channel.sendWaiters = [] → channel.buffer = []) := by
  refine ⟨fun hnext hnone => ?_, fun hempty =>
    ⟨ReceiversBlocked.registerRecvWaiter hwake.1 (fun _ => hempty) handle awaiter,
      SendersBlocked.registerRecvWaiter hwake.2 handle awaiter⟩⟩
  rcases channel.registerRecvWaiter_cases handle awaiter with
    ⟨hclosed', _⟩ | ⟨waiter, rest, _, hwaiters, _⟩ | ⟨_, _, hout⟩
  · simp [hclosed] at hclosed'
  · simp [hnone] at hwaiters
  · rw [hout] at hnext
    exact hnext.1 (by simp)

end Channel

namespace Interleaving

open Foundation Effect

variable {Op V : Type} [DecidableEq Op]

/-! ## No lost wake-up -/

/-- While the channel is open, nobody is parked who could proceed. -/
def NoLostWakeup (state : State Op V) : Prop :=
  state.channel.closed = false → state.channel.NoLostWakeup

/-- A registration that is going to park its party finds the channel in the
condition that made `await_ready` fail: no room for a sender, no value for a
receiver. -/
def RegistersBlocked (state : State Op V) : Action Op V → Prop
  | .sendSuspend _ => state.channel.closed = false → state.channel.recvWaiters = [] →
      state.channel.buffer.length = state.channel.capacity
  | .recvSuspend _ => state.channel.closed = false → state.channel.sendWaiters = [] →
      state.channel.buffer = []
  | _ => True

/-- Out of an open state without lost wake-ups, exactly the registrations that
do not find their party blocked lose one. -/
theorem Moves.noLostWakeup_iff {state next : State Op V} {action : Action Op V}
    (hmoves : Moves state action next) (hwf : state.channel.WellFormed)
    (hwake : NoLostWakeup state) :
    NoLostWakeup next ↔ RegistersBlocked state action := by
  have hopen : state.channel.closed = false ∨ state.channel.closed = true := by
    cases state.channel.closed <;> simp
  cases hmoves with
  | send _ op value used haction _ =>
      have hcondition : RegistersBlocked state action := by
        rcases haction with rfl | rfl | rfl <;> trivial
      refine iff_of_true (fun hclosed => ?_) hcondition
      have hsame : (state.channel.trySendWith ⟨op, value⟩ used).channel.closed =
          state.channel.closed := Channel.trySendWith_closed _ _ _
      exact (hwake (hsame ▸ hclosed)).trySendWith ⟨op, value⟩ used
  | sendFails op value _ _ => exact iff_of_true hwake trivial
  | recv _ op haction _ =>
      have hcondition : RegistersBlocked state action := by
        rcases haction with rfl | rfl <;> trivial
      refine iff_of_true (fun hclosed => ?_) hcondition
      have hsame : (state.channel.tryRecv op none).channel.closed = state.channel.closed :=
        Channel.tryRecv_closed _ _ _
      exact (hwake (hsame ▸ hclosed)).tryRecv hwf op none
  | recvFails op _ _ _ => exact iff_of_true hwake trivial
  | sendSuspend op value _ =>
      have hsame : (state.channel.registerSendWaiter op ⟨op, value⟩).channel.closed =
          state.channel.closed := Channel.registerSendWaiter_closed _ _ _
      simp only [NoLostWakeup, RegistersBlocked, State.suspends_channel, hsame]
      exact forall_congr' fun hclosed =>
        (hwake hclosed).registerSendWaiter_iff hclosed op ⟨op, value⟩
  | recvSuspend op _ =>
      have hsame : (state.channel.registerRecvWaiter op op).channel.closed =
          state.channel.closed := Channel.registerRecvWaiter_closed _ _ _
      simp only [NoLostWakeup, RegistersBlocked, State.suspends_channel, hsame]
      exact forall_congr' fun hclosed => (hwake hclosed).registerRecvWaiter_iff hclosed op op
  | exchange op _ _ => exact iff_of_true (fun hclosed => by cases hclosed) trivial
  | exchangeClosed op _ _ => exact iff_of_true hwake trivial
  | flush op _ =>
      exact iff_of_true (fun _ => ⟨fun h => absurd rfl h, fun h => absurd rfl h⟩) trivial

/-- A run on a channel of any capacity loses no wake-up exactly if no
registration parks a sender at a buffer with room or a receiver at a buffer
that holds a value. -/
theorem noLostWakeup_along_iff (capacity : Nat) (actions : List (Action Op V)) :
    (machine Op V capacity).Along NoLostWakeup (initial capacity) actions ↔
      (machine Op V capacity).Meets RegistersBlocked (initial capacity) actions := by
  apply Machine.along_iff_meets fun state => state.channel.WellFormed
  · intro state action next hwf _ _ hstep
    exact (moves_of_step hstep).wellFormed hwf
  · intro state action next hwf hwake hstep
    exact (moves_of_step hstep).noLostWakeup_iff hwf hwake
  · exact Channel.new_wellFormed capacity
  · intro _
    exact ⟨fun h => absurd rfl h, fun h => absurd rfl h⟩

/-- A receiver that found the buffer empty is parked although a value was
sent between its two steps. -/
theorem lost_wakeup_run :
    ¬ (machine Nat Nat 1).Along NoLostWakeup (initial 1)
      [.recvReady 0, .trySend 1 42, .recvSuspend 0] := by
  intro halong
  have hlast := halong.last rfl rfl
  exact absurd (hlast.1 (by decide)) (by decide)

/-! ## Every registration is woken exactly once -/

/-- How often the channel passed the operation's handle to `runtime::schedule`. -/
def scheduled (state : State Op V) (op : Op) : Nat :=
  (schedules (effects state.log)).count op

/-- A registered handle is stored once and not yet scheduled, or no longer
stored and scheduled once. -/
def WokenOnce (state : State Op V) : Prop :=
  ∀ op, state.phase op = .suspended →
    (state.channel.stored op = 1 ∧ scheduled state op = 0) ∨
      (state.channel.stored op = 0 ∧ scheduled state op = 1)

/-- A sender registers on an open channel only while no receiver is parked. -/
def NoReceiverWaiting (state : State Op V) : Action Op V → Prop
  | .sendSuspend _ => state.channel.closed = false → state.channel.recvWaiters = []
  | _ => True

/-- A handle is counted wherever it is, in a waiter list or already scheduled. -/
def wakeups (state : State Op V) (op : Op) : Nat :=
  state.channel.stored op + scheduled state op

theorem wakeups_of_keepsHandles {R : Type} {state next : State Op V}
    {out : Outcome Op Op (Item Op V) R} {registered : List Op}
    (hkeeps : out.KeepsHandles state.channel registered)
    (hchannel : next.channel = out.channel)
    (heffects : effects next.log = effects state.log ++ out.effects) (op : Op) :
    wakeups next op = wakeups state op + registered.count op := by
  have hbalance := hkeeps op
  have hschedules : schedules (effects next.log) =
      schedules (effects state.log) ++ schedules out.effects := by
    rw [heffects]
    exact collect_append _ _ _
  simp only [wakeups, scheduled, hchannel, hschedules, List.count_append]
  omega

/-- Only a registration adds a handle, and it adds its own, except where a
sender registers on an open channel with a parked receiver. -/
theorem Moves.wakeups_balance {state next : State Op V} {action : Action Op V}
    (hmoves : Moves state action next) :
    ∃ op phase registered, next.phase = Function.update state.phase op phase ∧
      state.phase op ≠ .suspended ∧
      (∀ other, wakeups next other = wakeups state other + registered.count other) ∧
      ((phase ≠ .suspended ∧ registered = [] ∧ NoReceiverWaiting state action) ∨
        (phase = .suspended ∧ registered = [op] ∧ NoReceiverWaiting state action) ∨
        (phase = .suspended ∧ registered = [] ∧ ¬ NoReceiverWaiting state action)) := by
  cases hmoves with
  | send _ op value used haction hphase =>
      refine ⟨op, .returned, [], rfl, by simp [hphase], ?_, Or.inl ⟨by simp, rfl, ?_⟩⟩
      · exact wakeups_of_keepsHandles
          (state.channel.trySendWith_keepsHandles ⟨op, value⟩ used) rfl (by simp)
      · rcases haction with rfl | rfl | rfl <;> trivial
  | sendFails op value hphase _ =>
      refine ⟨op, .sendTried value, [], rfl, by simp [hphase], ?_, Or.inl ⟨by simp, rfl, trivial⟩⟩
      intro other
      simp [wakeups, scheduled]
  | recv _ op haction hphase =>
      refine ⟨op, .returned, [], rfl, by simp [hphase], ?_, Or.inl ⟨by simp, rfl, ?_⟩⟩
      · exact wakeups_of_keepsHandles (state.channel.tryRecv_keepsHandles op none) rfl (by simp)
      · rcases haction with rfl | rfl <;> trivial
  | recvFails op hphase _ _ =>
      refine ⟨op, .recvTried, [], rfl, by simp [hphase], ?_, Or.inl ⟨by simp, rfl, trivial⟩⟩
      intro other
      simp [wakeups, scheduled]
  | sendSuspend op value hphase =>
      by_cases hreceivers : state.channel.closed = false → state.channel.recvWaiters = []
      · refine ⟨op, .suspended, [op], rfl, by simp [hphase], ?_,
          Or.inr (Or.inl ⟨rfl, rfl, hreceivers⟩)⟩
        exact wakeups_of_keepsHandles
          (state.channel.registerSendWaiter_keepsHandles op ⟨op, value⟩ hreceivers) rfl (by simp)
      · obtain ⟨hclosed, hparked⟩ := Classical.not_imp.mp hreceivers
        refine ⟨op, .suspended, [], rfl, by simp [hphase], ?_,
          Or.inr (Or.inr ⟨rfl, rfl, hreceivers⟩)⟩
        exact wakeups_of_keepsHandles
          (state.channel.registerSendWaiter_drops op ⟨op, value⟩ hclosed hparked) rfl (by simp)
  | recvSuspend op hphase =>
      refine ⟨op, .suspended, [op], rfl, by simp [hphase], ?_, Or.inr (Or.inl ⟨rfl, rfl, trivial⟩)⟩
      exact wakeups_of_keepsHandles (state.channel.registerRecvWaiter_keepsHandles op op) rfl
        (by simp)
  | exchange op hphase _ =>
      refine ⟨op, .closing, [], rfl, by simp [hphase], ?_, Or.inl ⟨by simp, rfl, trivial⟩⟩
      intro other
      simp [wakeups, scheduled, Channel.stored]
  | exchangeClosed op hphase _ =>
      refine ⟨op, .returned, [], rfl, by simp [hphase], ?_, Or.inl ⟨by simp, rfl, trivial⟩⟩
      intro other
      simp [wakeups, scheduled]
  | flush op hphase =>
      refine ⟨op, .returned, [], rfl, by simp [hphase], ?_, Or.inl ⟨by simp, rfl, trivial⟩⟩
      exact wakeups_of_keepsHandles state.channel.closeFlush_keepsHandles rfl (by simp)

/-- Handles of operations that are not suspended are neither stored nor
scheduled. -/
def OnlySuspended (state : State Op V) : Prop :=
  ∀ op, state.phase op ≠ .suspended → wakeups state op = 0

theorem Moves.onlySuspended {state next : State Op V} {action : Action Op V}
    (hmoves : Moves state action next) (honly : OnlySuspended state) : OnlySuspended next := by
  obtain ⟨op, phase, registered, hphase, hbefore, hsum, hcases⟩ := hmoves.wakeups_balance
  intro other hother
  rw [hphase] at hother
  rw [hsum other]
  by_cases heq : other = op
  · subst other
    rw [Function.update_self] at hother
    rcases hcases with ⟨_, rfl, _⟩ | ⟨hsuspended, _, _⟩ | ⟨hsuspended, _, _⟩
    · simpa using honly op hbefore
    · exact absurd hsuspended hother
    · exact absurd hsuspended hother
  · rw [Function.update_of_ne heq] at hother
    rcases hcases with ⟨_, rfl, _⟩ | ⟨_, rfl, _⟩ | ⟨_, rfl, _⟩
    · simpa using honly other hother
    · simpa [List.count_cons, Ne.symm heq] using honly other hother
    · simpa using honly other hother

theorem wokenOnce_iff {state : State Op V} :
    WokenOnce state ↔ ∀ op, state.phase op = .suspended → wakeups state op = 1 := by
  simp only [WokenOnce, wakeups]
  exact forall₂_congr fun op _ => by omega

/-- A step keeps every registration accounted for exactly if it is not the
direct hand-over of a registering sender. -/
theorem Moves.wokenOnce_iff {state next : State Op V} {action : Action Op V}
    (hmoves : Moves state action next) (honly : OnlySuspended state)
    (honce : WokenOnce state) :
    WokenOnce next ↔ NoReceiverWaiting state action := by
  obtain ⟨op, phase, registered, hphase, hbefore, hsum, hcases⟩ := hmoves.wakeups_balance
  -- Whatever the step is, it does not change the count of anybody but `op`.
  have hothers : ∀ other, other ≠ op → next.phase other = .suspended →
      wakeups next other = 1 := by
    intro other heq hother
    rw [hphase, Function.update_of_ne heq] at hother
    have hprior := Interleaving.wokenOnce_iff.mp honce other hother
    rw [hsum other, hprior]
    rcases hcases with ⟨_, rfl, _⟩ | ⟨_, rfl, _⟩ | ⟨_, rfl, _⟩
    · simp
    · simp [Ne.symm heq]
    · simp
  have hself : wakeups next op = registered.count op := by
    rw [hsum op, honly op hbefore, Nat.zero_add]
  rw [Interleaving.wokenOnce_iff]
  rcases hcases with ⟨hactive, _, hcondition⟩ | ⟨_, rfl, hcondition⟩ | ⟨rfl, rfl, hcondition⟩
  · refine iff_of_true (fun other hother => hothers other ?_ hother) hcondition
    rintro rfl
    rw [hphase, Function.update_self] at hother
    exact hactive hother
  · refine iff_of_true (fun other hother => ?_) hcondition
    by_cases heq : other = op
    · subst other
      simpa using hself
    · exact hothers other heq hother
  · refine iff_of_false (fun hall => ?_) hcondition
    have hwoken := hall op (by rw [hphase, Function.update_self])
    simp [hself] at hwoken

/-- A run wakes every registered sender and receiver exactly once if and only
if no sender registers on an open channel that has a parked receiver. -/
theorem wokenOnce_along_iff (capacity : Nat) (actions : List (Action Op V)) :
    (machine Op V capacity).Along WokenOnce (initial capacity) actions ↔
      (machine Op V capacity).Meets NoReceiverWaiting (initial capacity) actions := by
  apply Machine.along_iff_meets OnlySuspended
  · intro state action next honly _ _ hstep
    exact (moves_of_step hstep).onlySuspended honly
  · intro state action next honly honce hstep
    exact (moves_of_step hstep).wokenOnce_iff honly honce
  · intro op _
    simp [wakeups, scheduled, initial, Channel.new, Channel.stored]
  · intro op hphase
    simp [initial] at hphase

/-- Sender and receiver of an unbuffered channel both find nobody; the receiver
is parked first. The sender then hands its value over and is left suspended,
stored nowhere and never scheduled. -/
theorem dropped_sender_run :
    ¬ (machine Nat Nat 0).Along WokenOnce (initial 0)
      [.sendReady 0 42, .recvReady 1, .recvSuspend 1, .sendSuspend 0] := by
  intro halong
  have hlast := halong.last rfl
  exact absurd (hlast 0 rfl) (by decide)

end Interleaving

end Tang
