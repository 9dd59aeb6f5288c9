import Tang.Channel.Basic
import Mathlib.Data.List.Count
import Mathlib.Data.List.Perm.Basic

/-! # What each critical section can do

One case lemma for each body of `channel<T>`. Every later fact about a body is
read off its cases, so no other module unfolds a body. The laws below them say
how a body moves handles between the waiter lists and `runtime::schedule`, and
values between senders, `buffer_` and receivers.
-/

namespace Tang

variable {H A T R : Type}

/-! ## Projections of an effect list -/

namespace Effect

variable {B : Type}

/-- The components an effect list has of one kind, in program order. -/
def collect (pick : Effect H A T → Option B) (effects : List (Effect H A T)) : List B :=
  effects.filterMap pick

@[simp] theorem collect_nil (pick : Effect H A T → Option B) : collect pick [] = [] := rfl

@[simp] theorem collect_cons (pick : Effect H A T → Option B) (effect : Effect H A T)
    (effects : List (Effect H A T)) :
    collect pick (effect :: effects) = (pick effect).toList ++ collect pick effects := by
  cases hpick : pick effect <;> simp [collect, hpick]

@[simp] theorem collect_append (pick : Effect H A T → Option B)
    (first second : List (Effect H A T)) :
    collect pick (first ++ second) = collect pick first ++ collect pick second :=
  List.filterMap_append

theorem collect_flatMap {C : Type} (pick : Effect H A T → Option B)
    (emit : C → List (Effect H A T)) (sources : List C) :
    collect pick (sources.flatMap emit) = sources.flatMap fun c => collect pick (emit c) := by
  induction sources with
  | nil => rfl
  | cons first rest ih => simp only [List.flatMap_cons, collect_append, ih]

theorem collect_map {C : Type} (pick : Effect H A T → Option B) (emit : C → Effect H A T)
    (sources : List C) :
    collect pick (sources.map emit) = sources.filterMap fun c => pick (emit c) :=
  List.filterMap_map

@[simp] def take? : Effect H A T → Option T
  | .take value => some value
  | .accept _ | .deliver _ _ | .result _ _ | .discard _ | .schedule _ => none

@[simp] def accept? : Effect H A T → Option T
  | .accept value => some value
  | .take _ | .deliver _ _ | .result _ _ | .discard _ | .schedule _ => none

@[simp] def deliver? : Effect H A T → Option (A × T)
  | .deliver awaiter value => some (awaiter, value)
  | .take _ | .accept _ | .result _ _ | .discard _ | .schedule _ => none

@[simp] def result? : Effect H A T → Option (A × Bool)
  | .result awaiter success => some (awaiter, success)
  | .take _ | .accept _ | .deliver _ _ | .discard _ | .schedule _ => none

@[simp] def discard? : Effect H A T → Option T
  | .discard value => some value
  | .take _ | .accept _ | .deliver _ _ | .result _ _ | .schedule _ => none

@[simp] def schedule? : Effect H A T → Option H
  | .schedule handle => some handle
  | .take _ | .accept _ | .deliver _ _ | .result _ _ | .discard _ => none

/-- The values the channel took from senders. -/
abbrev takes : List (Effect H A T) → List T := collect take?

/-- The values that entered `buffer_` or went to a receiver. -/
abbrev accepts : List (Effect H A T) → List T := collect accept?

/-- The assignments to receivers. -/
abbrev delivers : List (Effect H A T) → List (A × T) := collect deliver?

/-- The writes to result members. -/
abbrev results : List (Effect H A T) → List (A × Bool) := collect result?

/-- The parked values that were destroyed. -/
abbrev discards : List (Effect H A T) → List T := collect discard?

/-- The handles passed to `runtime::schedule`. -/
abbrev schedules : List (Effect H A T) → List H := collect schedule?

end Effect

/-! ## Case lemmas -/

namespace Channel

open Effect

variable (channel : Channel H A T)

/-- A send attempt fails and changes nothing, hands over to the oldest parked
receiver, or appends to a buffer with room. -/
theorem trySendWith_cases (value : T) (used : Option T) :
    ((channel.closed = true ∨ channel.recvWaiters = [] ∧
          channel.capacity ≤ channel.buffer.length) ∧
        channel.trySendWith value used = ⟨(false, some value), channel, []⟩) ∨
      (∃ waiter rest, channel.closed = false ∧ channel.recvWaiters = waiter :: rest ∧
        channel.trySendWith value used =
          ⟨(true, used), { channel with recvWaiters := rest },
            [.take value, .accept value, .deliver waiter.awaiter value,
              .result waiter.awaiter true, .schedule waiter.handle]⟩) ∨
      (channel.closed = false ∧ channel.recvWaiters = [] ∧
        channel.buffer.length < channel.capacity ∧
        channel.trySendWith value used =
          ⟨(true, used), { channel with buffer := channel.buffer ++ [value] },
            [.take value, .accept value]⟩) := by
  cases hclosed : channel.closed with
  | true => exact Or.inl ⟨Or.inl rfl, by simp [trySendWith, hclosed]⟩
  | false =>
      cases hwaiters : channel.recvWaiters with
      | cons waiter rest =>
          refine Or.inr (Or.inl ⟨waiter, rest, rfl, rfl, ?_⟩)
          simp [trySendWith, hclosed, hwaiters, RecvWaiter.resume, RecvWaiter.resumeWithResult]
      | nil =>
          by_cases hfull : channel.capacity ≤ channel.buffer.length
          · exact Or.inl ⟨Or.inr ⟨rfl, hfull⟩, by simp [trySendWith, hclosed, hwaiters, hfull]⟩
          · have hroom : ¬ (channel.capacity = 0 ∨ channel.capacity ≤ channel.buffer.length) := by
              omega
            refine Or.inr (Or.inr ⟨rfl, rfl, by omega, ?_⟩)
            simp [trySendWith, hclosed, hwaiters, hroom]

/-- A receive attempt takes the front of the buffer and refills it from the
oldest parked sender, takes that sender's value when the buffer is empty, or
fails and changes nothing. -/
theorem tryRecv_cases (reader : A) (old : Option T) :
    (∃ front buffer waiter rest, channel.buffer = front :: buffer ∧
        channel.sendWaiters = waiter :: rest ∧
        channel.tryRecv reader old =
          ⟨(true, some front),
            { channel with buffer := buffer ++ [waiter.value], sendWaiters := rest },
            [.deliver reader front, .accept waiter.value, .schedule waiter.handle]⟩) ∨
      (∃ front buffer, channel.buffer = front :: buffer ∧ channel.sendWaiters = [] ∧
        channel.tryRecv reader old =
          ⟨(true, some front), { channel with buffer := buffer }, [.deliver reader front]⟩) ∨
      (∃ waiter rest, channel.closed = false ∧ channel.buffer = [] ∧
        channel.sendWaiters = waiter :: rest ∧
        channel.tryRecv reader old =
          ⟨(true, some waiter.value), { channel with sendWaiters := rest },
            [.accept waiter.value, .deliver reader waiter.value, .schedule waiter.handle]⟩) ∨
      (channel.buffer = [] ∧ (channel.closed = true ∨ channel.sendWaiters = []) ∧
        channel.tryRecv reader old = ⟨(false, old), channel, []⟩) := by
  cases hbuffer : channel.buffer with
  | cons front buffer =>
      cases hwaiters : channel.sendWaiters with
      | cons waiter rest =>
          refine Or.inl ⟨front, buffer, waiter, rest, rfl, rfl, ?_⟩
          simp [tryRecv, hbuffer, hwaiters, SendWaiter.resume]
      | nil =>
          refine Or.inr (Or.inl ⟨front, buffer, rfl, rfl, ?_⟩)
          simp [tryRecv, hbuffer, hwaiters]
  | nil =>
      cases hclosed : channel.closed with
      | true =>
          exact Or.inr (Or.inr (Or.inr ⟨rfl, Or.inl rfl, by simp [tryRecv, hbuffer, hclosed]⟩))
      | false =>
          cases hwaiters : channel.sendWaiters with
          | cons waiter rest =>
              refine Or.inr (Or.inr (Or.inl ⟨waiter, rest, rfl, rfl, rfl, ?_⟩))
              simp [tryRecv, hbuffer, hclosed, hwaiters, SendWaiter.resume]
          | nil =>
              refine Or.inr (Or.inr (Or.inr ⟨rfl, Or.inr rfl, ?_⟩))
              simp [tryRecv, hbuffer, hclosed, hwaiters]

/-- Registering a sender wakes it at once on a closed channel, hands its value
to the oldest parked receiver, or parks it. -/
theorem registerSendWaiter_cases (handle : H) (value : T) :
    (channel.closed = true ∧
        channel.registerSendWaiter handle value = ⟨(), channel, [.schedule handle]⟩) ∨
      (∃ waiter rest, channel.closed = false ∧ channel.recvWaiters = waiter :: rest ∧
        channel.registerSendWaiter handle value =
          ⟨(), { channel with recvWaiters := rest },
            [.take value, .accept value, .deliver waiter.awaiter value,
              .result waiter.awaiter true, .schedule waiter.handle]⟩) ∨
      (channel.closed = false ∧ channel.recvWaiters = [] ∧
        channel.registerSendWaiter handle value =
          ⟨(), { channel with sendWaiters := channel.sendWaiters ++ [⟨handle, value⟩] },
            [.take value]⟩) := by
  cases hclosed : channel.closed with
  | true => exact Or.inl ⟨rfl, by simp [registerSendWaiter, hclosed]⟩
  | false =>
      cases hwaiters : channel.recvWaiters with
      | cons waiter rest =>
          refine Or.inr (Or.inl ⟨waiter, rest, rfl, rfl, ?_⟩)
          simp [registerSendWaiter, hclosed, hwaiters, RecvWaiter.resume,
            RecvWaiter.resumeWithResult]
      | nil => exact Or.inr (Or.inr ⟨rfl, rfl, by simp [registerSendWaiter, hclosed, hwaiters]⟩)

/-- Registering a receiver fails it at once on a closed channel, serves it from
the oldest parked sender, or parks it. None of the cases reads the buffer. -/
theorem registerRecvWaiter_cases (handle : H) (awaiter : A) :
    (channel.closed = true ∧
        channel.registerRecvWaiter handle awaiter =
          ⟨(), channel, [.result awaiter false, .schedule handle]⟩) ∨
      (∃ waiter rest, channel.closed = false ∧ channel.sendWaiters = waiter :: rest ∧
        channel.registerRecvWaiter handle awaiter =
          ⟨(), { channel with sendWaiters := rest },
            [.accept waiter.value, .deliver awaiter waiter.value, .result awaiter true,
              .schedule handle, .schedule waiter.handle]⟩) ∨
      (channel.closed = false ∧ channel.sendWaiters = [] ∧
        channel.registerRecvWaiter handle awaiter =
          ⟨(), { channel with recvWaiters := channel.recvWaiters ++ [⟨handle, awaiter⟩] },
            []⟩) := by
  cases hclosed : channel.closed with
  | true => exact Or.inl ⟨rfl, by simp [registerRecvWaiter, hclosed]⟩
  | false =>
      cases hwaiters : channel.sendWaiters with
      | cons waiter rest =>
          refine Or.inr (Or.inl ⟨waiter, rest, rfl, rfl, ?_⟩)
          simp [registerRecvWaiter, hclosed, hwaiters, SendWaiter.resume]
      | nil => exact Or.inr (Or.inr ⟨rfl, rfl, by simp [registerRecvWaiter, hclosed, hwaiters]⟩)

/-- A failed attempt leaves the channel and the caller's variable as they were
and has no effect. -/
theorem failed_attempt_keeps :
    (∀ value, (channel.trySend value).result.1 = false →
        channel.trySend value = ⟨(false, some value), channel, []⟩) ∧
      (∀ value, (channel.trySendMove value).result.1 = false →
        channel.trySendMove value = ⟨(false, some value), channel, []⟩) ∧
      ∀ reader old, (channel.tryRecv reader old).result.1 = false →
        channel.tryRecv reader old = ⟨(false, old), channel, []⟩ := by
  have hsend : ∀ value used, (channel.trySendWith value used).result.1 = false →
      channel.trySendWith value used = ⟨(false, some value), channel, []⟩ := by
    intro value used hfailed
    rcases channel.trySendWith_cases value used with
      ⟨_, hout⟩ | ⟨waiter, rest, _, _, hout⟩ | ⟨_, _, _, hout⟩
    · exact hout
    · simp [hout] at hfailed
    · simp [hout] at hfailed
  refine ⟨fun value => hsend value _, fun value => hsend value _, fun reader old hfailed => ?_⟩
  rcases channel.tryRecv_cases reader old with
    ⟨_, _, _, _, _, _, hout⟩ | ⟨_, _, _, _, hout⟩ | ⟨_, _, _, _, _, hout⟩ | ⟨_, _, hout⟩
  · simp [hout] at hfailed
  · simp [hout] at hfailed
  · simp [hout] at hfailed
  · exact hout

/-! ### Only the exchange changes `closed_` -/

@[simp] theorem trySendWith_closed (value : T) (used : Option T) :
    (channel.trySendWith value used).channel.closed = channel.closed := by
  rcases channel.trySendWith_cases value used with
    ⟨_, hout⟩ | ⟨_, _, _, _, hout⟩ | ⟨_, _, _, hout⟩ <;> rw [hout]

@[simp] theorem tryRecv_closed (reader : A) (old : Option T) :
    (channel.tryRecv reader old).channel.closed = channel.closed := by
  rcases channel.tryRecv_cases reader old with
    ⟨_, _, _, _, _, _, hout⟩ | ⟨_, _, _, _, hout⟩ | ⟨_, _, _, _, _, hout⟩ | ⟨_, _, hout⟩ <;>
    rw [hout]

@[simp] theorem registerSendWaiter_closed (handle : H) (value : T) :
    (channel.registerSendWaiter handle value).channel.closed = channel.closed := by
  rcases channel.registerSendWaiter_cases handle value with
    ⟨_, hout⟩ | ⟨_, _, _, _, hout⟩ | ⟨_, _, hout⟩ <;> rw [hout]

@[simp] theorem registerRecvWaiter_closed (handle : H) (awaiter : A) :
    (channel.registerRecvWaiter handle awaiter).channel.closed = channel.closed := by
  rcases channel.registerRecvWaiter_cases handle awaiter with
    ⟨_, hout⟩ | ⟨_, _, _, _, hout⟩ | ⟨_, _, hout⟩ <;> rw [hout]

/-! ### The flush of `close`

The flush schedules every parked sender, then every parked receiver. -/

section Flush

variable {channel}

private theorem flatMap_none {B C : Type} (sources : List C) :
    (sources.flatMap fun _ => ([] : List B)) = [] := by
  simp

@[simp] theorem closeFlush_channel :
    channel.closeFlush.channel = { channel with sendWaiters := [], recvWaiters := [] } := rfl

@[simp] theorem closeFlush_takes : takes channel.closeFlush.effects = [] := by
  simp [closeFlush, collect_flatMap, collect_map, SendWaiter.resume, RecvWaiter.resumeWithResult]

@[simp] theorem closeFlush_accepts : accepts channel.closeFlush.effects = [] := by
  simp [closeFlush, collect_flatMap, collect_map, SendWaiter.resume, RecvWaiter.resumeWithResult]

@[simp] theorem closeFlush_delivers : delivers channel.closeFlush.effects = [] := by
  simp [closeFlush, collect_flatMap, collect_map, SendWaiter.resume, RecvWaiter.resumeWithResult]

@[simp] theorem closeFlush_discards :
    discards channel.closeFlush.effects = channel.sendWaiters.map SendWaiter.value := by
  simp [closeFlush, collect_flatMap, collect_map, SendWaiter.resume, RecvWaiter.resumeWithResult,
    flatMap_none]

@[simp] theorem closeFlush_results :
    results channel.closeFlush.effects =
      channel.recvWaiters.map fun waiter => (waiter.awaiter, false) := by
  simp [closeFlush, collect_flatMap, collect_map, SendWaiter.resume, RecvWaiter.resumeWithResult,
    flatMap_none, ← List.map_eq_flatMap]

@[simp] theorem closeFlush_schedules :
    schedules channel.closeFlush.effects =
      channel.sendWaiters.map SendWaiter.handle ++ channel.recvWaiters.map RecvWaiter.handle := by
  simp [closeFlush, collect_flatMap, collect_map, SendWaiter.resume, RecvWaiter.resumeWithResult,
    ← List.map_eq_flatMap]

end Flush

/-! ## The capacity never changes -/

@[simp] theorem trySendWith_capacity (value : T) (used : Option T) :
    (channel.trySendWith value used).channel.capacity = channel.capacity := by
  rcases channel.trySendWith_cases value used with
    ⟨_, hout⟩ | ⟨_, _, _, _, hout⟩ | ⟨_, _, _, hout⟩ <;> rw [hout]

@[simp] theorem tryRecv_capacity (reader : A) (old : Option T) :
    (channel.tryRecv reader old).channel.capacity = channel.capacity := by
  rcases channel.tryRecv_cases reader old with
    ⟨_, _, _, _, _, _, hout⟩ | ⟨_, _, _, _, hout⟩ | ⟨_, _, _, _, _, hout⟩ | ⟨_, _, hout⟩ <;>
    rw [hout]

@[simp] theorem registerSendWaiter_capacity (handle : H) (value : T) :
    (channel.registerSendWaiter handle value).channel.capacity = channel.capacity := by
  rcases channel.registerSendWaiter_cases handle value with
    ⟨_, hout⟩ | ⟨_, _, _, _, hout⟩ | ⟨_, _, hout⟩ <;> rw [hout]

@[simp] theorem registerRecvWaiter_capacity (handle : H) (awaiter : A) :
    (channel.registerRecvWaiter handle awaiter).channel.capacity = channel.capacity := by
  rcases channel.registerRecvWaiter_cases handle awaiter with
    ⟨_, hout⟩ | ⟨_, _, _, _, hout⟩ | ⟨_, _, hout⟩ <;> rw [hout]

/-! ## Well-formedness

Registration looks at the opposite waiter list, and the refill of the buffer
follows a removal, so every body maintains well-formedness. -/

namespace WellFormed

variable {channel}

theorem recvWaiters_nil (hwf : channel.WellFormed) {waiter : SendWaiter H T}
    {rest : List (SendWaiter H T)} (hwaiters : channel.sendWaiters = waiter :: rest) :
    channel.recvWaiters = [] :=
  hwf.oneSided.resolve_left (by simp [hwaiters])

theorem sendWaiters_nil (hwf : channel.WellFormed) {waiter : RecvWaiter H A}
    {rest : List (RecvWaiter H A)} (hwaiters : channel.recvWaiters = waiter :: rest) :
    channel.sendWaiters = [] :=
  hwf.oneSided.resolve_right (by simp [hwaiters])

theorem trySendWith (hwf : channel.WellFormed) (value : T) (used : Option T) :
    (channel.trySendWith value used).channel.WellFormed := by
  rcases channel.trySendWith_cases value used with
    ⟨_, hout⟩ | ⟨waiter, rest, _, hwaiters, hout⟩ | ⟨_, hwaiters, hroom, hout⟩
  · rw [hout]
    exact hwf
  · rw [hout]
    exact ⟨hwf.bounded, Or.inl (hwf.sendWaiters_nil hwaiters)⟩
  · rw [hout]
    refine ⟨?_, Or.inr hwaiters⟩
    simp only [List.length_append, List.length_singleton]
    omega

theorem tryRecv (hwf : channel.WellFormed) (reader : A) (old : Option T) :
    (channel.tryRecv reader old).channel.WellFormed := by
  have hbounded := hwf.bounded
  rcases channel.tryRecv_cases reader old with
    ⟨front, buffer, waiter, rest, hbuffer, hwaiters, hout⟩ |
      ⟨front, buffer, hbuffer, hwaiters, hout⟩ | ⟨waiter, rest, _, hbuffer, hwaiters, hout⟩ |
      ⟨_, _, hout⟩
  · rw [hbuffer, List.length_cons] at hbounded
    rw [hout]
    refine ⟨?_, Or.inr (hwf.recvWaiters_nil hwaiters)⟩
    simpa using hbounded
  · rw [hbuffer, List.length_cons] at hbounded
    rw [hout]
    exact ⟨by dsimp only; omega, hwf.oneSided⟩
  · rw [hout]
    exact ⟨hbounded, Or.inr (hwf.recvWaiters_nil hwaiters)⟩
  · rw [hout]
    exact hwf

theorem registerSendWaiter (hwf : channel.WellFormed) (handle : H) (value : T) :
    (channel.registerSendWaiter handle value).channel.WellFormed := by
  rcases channel.registerSendWaiter_cases handle value with
    ⟨_, hout⟩ | ⟨waiter, rest, _, hwaiters, hout⟩ | ⟨_, hwaiters, hout⟩
  · rw [hout]
    exact hwf
  · rw [hout]
    exact ⟨hwf.bounded, Or.inl (hwf.sendWaiters_nil hwaiters)⟩
  · rw [hout]
    exact ⟨hwf.bounded, Or.inr hwaiters⟩

theorem registerRecvWaiter (hwf : channel.WellFormed) (handle : H) (awaiter : A) :
    (channel.registerRecvWaiter handle awaiter).channel.WellFormed := by
  rcases channel.registerRecvWaiter_cases handle awaiter with
    ⟨_, hout⟩ | ⟨waiter, rest, _, hwaiters, hout⟩ | ⟨_, hwaiters, hout⟩
  · rw [hout]
    exact hwf
  · rw [hout]
    exact ⟨hwf.bounded, Or.inr (hwf.recvWaiters_nil hwaiters)⟩
  · rw [hout]
    exact ⟨hwf.bounded, Or.inl hwaiters⟩

theorem closeExchange (hwf : channel.WellFormed) : channel.closeExchange.channel.WellFormed :=
  ⟨hwf.bounded, hwf.oneSided⟩

theorem closeFlush (hwf : channel.WellFormed) : channel.closeFlush.channel.WellFormed :=
  ⟨hwf.bounded, Or.inl rfl⟩

end WellFormed

end Channel

end Tang
