import Tang.Channel.Laws

/-! # What a critical section conserves

Three balance laws of the channel bodies. Handles: what leaves a waiter list is
passed to `runtime::schedule`. Values: what the channel takes from a sender is
accepted, parked or discarded, and what it accepts is delivered or buffered.
Answers: a receiver that gets a value gets the result true, and one that leaves
the waiter list gets a result. The first law has one exception, the direct
hand-over in `register_send_waiter`.
-/

namespace Tang

open Effect

variable {H A T R : Type}

namespace Channel

/-- How often a handle occurs in the two waiter lists. -/
def stored [DecidableEq H] (channel : Channel H A T) (handle : H) : Nat :=
  (channel.sendWaiters.map SendWaiter.handle).count handle +
    (channel.recvWaiters.map RecvWaiter.handle).count handle

end Channel

/-! ## Handles -/

/-- Registered handles and handles that leave a waiter list are scheduled, and
no others. -/
def Outcome.KeepsHandles [DecidableEq H] (channel : Channel H A T) (registered : List H)
    (out : Outcome H A T R) : Prop :=
  ∀ handle, out.channel.stored handle + (schedules out.effects).count handle =
    channel.stored handle + registered.count handle

namespace Channel

variable [DecidableEq H] (channel : Channel H A T)

theorem trySendWith_keepsHandles (value : T) (used : Option T) :
    (channel.trySendWith value used).KeepsHandles channel [] := by
  intro handle
  rcases channel.trySendWith_cases value used with
    ⟨_, hout⟩ | ⟨waiter, rest, _, hwaiters, hout⟩ | ⟨_, _, _, hout⟩
  · simp [hout]
  · simp [hout, stored, hwaiters, List.count_cons]
    omega
  · simp [hout, stored]

theorem tryRecv_keepsHandles (reader : A) (old : Option T) :
    (channel.tryRecv reader old).KeepsHandles channel [] := by
  intro handle
  rcases channel.tryRecv_cases reader old with
    ⟨front, buffer, waiter, rest, hbuffer, hwaiters, hout⟩ |
      ⟨front, buffer, hbuffer, hwaiters, hout⟩ | ⟨waiter, rest, _, hbuffer, hwaiters, hout⟩ |
      ⟨_, _, hout⟩
  · simp [hout, stored, hwaiters, List.count_cons]
    omega
  · simp [hout, stored]
  · simp [hout, stored, hwaiters, List.count_cons]
    omega
  · simp [hout]

/-- The registering sender is parked or scheduled, unless its value is handed
to a parked receiver. -/
theorem registerSendWaiter_keepsHandles (handle : H) (value : T)
    (hreceivers : channel.closed = false → channel.recvWaiters = []) :
    (channel.registerSendWaiter handle value).KeepsHandles channel [handle] := by
  intro other
  rcases channel.registerSendWaiter_cases handle value with
    ⟨_, hout⟩ | ⟨waiter, rest, hclosed, hwaiters, hout⟩ | ⟨_, hwaiters, hout⟩
  · simp [hout]
  · simp [hreceivers hclosed] at hwaiters
  · simp [hout, stored, List.count_cons]
    omega

/-- In the direct hand-over the registering sender is neither parked nor
scheduled: only the receiver's handle moves. -/
theorem registerSendWaiter_drops (handle : H) (value : T) (hclosed : channel.closed = false)
    (hreceivers : channel.recvWaiters ≠ []) :
    (channel.registerSendWaiter handle value).KeepsHandles channel [] := by
  intro other
  rcases channel.registerSendWaiter_cases handle value with
    ⟨hclosed', _⟩ | ⟨waiter, rest, _, hwaiters, hout⟩ | ⟨_, hwaiters, _⟩
  · simp [hclosed] at hclosed'
  · simp [hout, stored, hwaiters, List.count_cons]
    omega
  · exact absurd hwaiters hreceivers

theorem registerRecvWaiter_keepsHandles (handle : H) (awaiter : A) :
    (channel.registerRecvWaiter handle awaiter).KeepsHandles channel [handle] := by
  intro other
  rcases channel.registerRecvWaiter_cases handle awaiter with
    ⟨_, hout⟩ | ⟨waiter, rest, _, hwaiters, hout⟩ | ⟨_, hwaiters, hout⟩
  · simp [hout]
  · simp [hout, stored, hwaiters, List.count_cons]
    omega
  · simp [hout, stored, List.count_cons]
    omega

theorem closeExchange_keepsHandles : channel.closeExchange.KeepsHandles channel [] := by
  intro handle
  simp [closeExchange, stored]

theorem closeFlush_keepsHandles : channel.closeFlush.KeepsHandles channel [] := by
  intro handle
  simp [stored]

end Channel

/-! ## Values -/

/-- Values taken from senders are accepted, parked or discarded; accepted
values are delivered or buffered. -/
structure Outcome.KeepsValues [DecidableEq T] (channel : Channel H A T)
    (out : Outcome H A T R) : Prop where
  taken : ∀ value, (takes out.effects).count value +
      (channel.sendWaiters.map SendWaiter.value).count value =
    (accepts out.effects).count value +
      (out.channel.sendWaiters.map SendWaiter.value).count value +
      (discards out.effects).count value
  accepted : ∀ value, (accepts out.effects).count value + channel.buffer.count value =
    ((delivers out.effects).map Prod.snd).count value + out.channel.buffer.count value

namespace Channel

variable [DecidableEq T] (channel : Channel H A T)

theorem trySendWith_keepsValues (value : T) (used : Option T) :
    (channel.trySendWith value used).KeepsValues channel := by
  rcases channel.trySendWith_cases value used with
    ⟨_, hout⟩ | ⟨waiter, rest, _, hwaiters, hout⟩ | ⟨_, _, _, hout⟩
  · constructor <;> intro other <;> simp [hout]
  · constructor <;> intro other <;> simp [hout]
  · constructor <;> intro other <;> simp [hout, Nat.add_comm]

theorem tryRecv_keepsValues (reader : A) (old : Option T) :
    (channel.tryRecv reader old).KeepsValues channel := by
  rcases channel.tryRecv_cases reader old with
    ⟨front, buffer, waiter, rest, hbuffer, hwaiters, hout⟩ |
      ⟨front, buffer, hbuffer, hwaiters, hout⟩ | ⟨waiter, rest, _, hbuffer, hwaiters, hout⟩ |
      ⟨_, _, hout⟩
  · constructor <;> intro other <;>
      simp [hout, hbuffer, hwaiters, List.count_cons] <;> omega
  · constructor <;> intro other <;> simp [hout, hbuffer, List.count_cons]
    omega
  · constructor <;> intro other <;> simp [hout, hbuffer, hwaiters, List.count_cons]
    omega
  · constructor <;> intro other <;> simp [hout]

theorem registerSendWaiter_keepsValues (handle : H) (value : T) :
    (channel.registerSendWaiter handle value).KeepsValues channel := by
  rcases channel.registerSendWaiter_cases handle value with
    ⟨_, hout⟩ | ⟨waiter, rest, _, hwaiters, hout⟩ | ⟨_, hwaiters, hout⟩
  · constructor <;> intro other <;> simp [hout]
  · constructor <;> intro other <;> simp [hout]
  · constructor <;> intro other <;> simp [hout, Nat.add_comm]

theorem registerRecvWaiter_keepsValues (handle : H) (awaiter : A) :
    (channel.registerRecvWaiter handle awaiter).KeepsValues channel := by
  rcases channel.registerRecvWaiter_cases handle awaiter with
    ⟨_, hout⟩ | ⟨waiter, rest, _, hwaiters, hout⟩ | ⟨_, hwaiters, hout⟩
  · constructor <;> intro other <;> simp [hout]
  · constructor <;> intro other <;> simp [hout, hwaiters, List.count_cons]
    omega
  · constructor <;> intro other <;> simp [hout]

theorem closeFlush_keepsValues : channel.closeFlush.KeepsValues channel := by
  constructor <;> intro value <;> simp

end Channel

/-! ## Answers -/

/-- A receiver other than the readers of `try_recv` gets a value exactly when it
gets the result true, and a receiver gets a result exactly when it leaves the
waiter list or registers without being parked. -/
structure Outcome.KeepsAnswers [DecidableEq A] (channel : Channel H A T) (readers : List A)
    (registered : List A) (out : Outcome H A T R) : Prop where
  delivered : ∀ awaiter, ((delivers out.effects).map Prod.fst).count awaiter =
    (results out.effects).count (awaiter, true) + readers.count awaiter
  answered : ∀ awaiter, (out.channel.recvWaiters.map RecvWaiter.awaiter).count awaiter +
      (results out.effects).count (awaiter, true) + (results out.effects).count (awaiter, false) =
    (channel.recvWaiters.map RecvWaiter.awaiter).count awaiter + registered.count awaiter

namespace Channel

variable [DecidableEq A] (channel : Channel H A T)

theorem trySendWith_keepsAnswers (value : T) (used : Option T) :
    (channel.trySendWith value used).KeepsAnswers channel [] [] := by
  rcases channel.trySendWith_cases value used with
    ⟨_, hout⟩ | ⟨waiter, rest, _, hwaiters, hout⟩ | ⟨_, _, _, hout⟩
  · constructor <;> intro other <;> simp [hout]
  · constructor <;> intro other <;> simp [hout, hwaiters, List.count_cons]
  · constructor <;> intro other <;> simp [hout]

theorem tryRecv_keepsAnswers (reader : A) (old : Option T) :
    (channel.tryRecv reader old).KeepsAnswers channel
      (if (channel.tryRecv reader old).result.1 then [reader] else []) [] := by
  rcases channel.tryRecv_cases reader old with
    ⟨front, buffer, waiter, rest, hbuffer, hwaiters, hout⟩ |
      ⟨front, buffer, hbuffer, hwaiters, hout⟩ | ⟨waiter, rest, _, hbuffer, hwaiters, hout⟩ |
      ⟨_, _, hout⟩
  · constructor <;> intro other <;> simp [hout, List.count_cons]
  · constructor <;> intro other <;> simp [hout, List.count_cons]
  · constructor <;> intro other <;> simp [hout, List.count_cons]
  · constructor <;> intro other <;> simp [hout]

theorem registerSendWaiter_keepsAnswers (handle : H) (value : T) :
    (channel.registerSendWaiter handle value).KeepsAnswers channel [] [] := by
  rcases channel.registerSendWaiter_cases handle value with
    ⟨_, hout⟩ | ⟨waiter, rest, _, hwaiters, hout⟩ | ⟨_, hwaiters, hout⟩
  · constructor <;> intro other <;> simp [hout]
  · constructor <;> intro other <;> simp [hout, hwaiters, List.count_cons]
  · constructor <;> intro other <;> simp [hout]

theorem registerRecvWaiter_keepsAnswers (handle : H) (awaiter : A) :
    (channel.registerRecvWaiter handle awaiter).KeepsAnswers channel [] [awaiter] := by
  rcases channel.registerRecvWaiter_cases handle awaiter with
    ⟨_, hout⟩ | ⟨waiter, rest, _, hwaiters, hout⟩ | ⟨_, hwaiters, hout⟩
  · constructor <;> intro other <;> simp [hout, List.count_cons]
  · constructor <;> intro other <;> simp [hout, List.count_cons]
  · constructor <;> intro other <;> simp [hout]

theorem closeFlush_keepsAnswers : channel.closeFlush.KeepsAnswers channel [] [] := by
  have htrue : ∀ awaiter, (channel.recvWaiters.map fun waiter =>
      (waiter.awaiter, false)).count (awaiter, true) = 0 := by
    intro awaiter
    exact List.count_eq_zero.mpr (by simp)
  have hfalse : ∀ awaiter, (channel.recvWaiters.map fun waiter =>
      (waiter.awaiter, false)).count (awaiter, false) =
        (channel.recvWaiters.map RecvWaiter.awaiter).count awaiter := by
    intro awaiter
    rw [← List.count_map_of_injective (channel.recvWaiters.map RecvWaiter.awaiter)
      (fun other => (other, false)) (fun _ _ heq => (Prod.mk.inj heq).1), List.map_map]
    rfl
  constructor
  · intro awaiter
    simp [htrue]
  · intro awaiter
    simp [htrue, hfalse]

end Channel

end Tang
