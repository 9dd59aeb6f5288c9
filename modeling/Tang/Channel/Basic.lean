import Mathlib.Data.List.Basic

/-! # The channel, one critical section at a time

`channel<T>` with the bodies its mutex protects, one definition for each. A
body returns what the source returns, the channel it leaves behind, and the
effects it has outside the channel in program order: writes through the
pointers of a waiter, and calls of `runtime::schedule`. Two further effects
mark the moments a value changes hands and write nothing: `take` when the
channel takes a value from its sender, `accept` when the value enters
`buffer_` or goes to a receiver.
-/

namespace Tang

variable {H A T : Type}

/-- `send_waiter<T>`: a suspended sender and the value moved into it. -/
structure SendWaiter (H T : Type) where
  handle : H
  value : T
  deriving DecidableEq

/-- `recv_waiter<T>`: a suspended receiver. `value_ptr_`, `result_ptr_` and
`awaiter_ptr_` all point into one `channel_recv_awaiter`, named here by
`awaiter`; a write of `*result_ptr_` and `set_result` store the same member. -/
structure RecvWaiter (H A : Type) where
  handle : H
  awaiter : A
  deriving DecidableEq

/-- What a channel operation does outside the channel. -/
inductive Effect (H A T : Type)
  /-- The channel took the value from its sender. -/
  | take (value : T)
  /-- The value entered `buffer_` or was assigned to a receiver. -/
  | accept (value : T)
  /-- `*value_ptr = value`, or the assignment to the out-parameter of `try_recv`. -/
  | deliver (awaiter : A) (value : T)
  /-- `*result_ptr = success`. -/
  | result (awaiter : A) (success : Bool)
  /-- A waiter's value destroyed by `send_waiters_.clear()`. -/
  | discard (value : T)
  /-- `runtime::schedule(handle)`. -/
  | schedule (handle : H)
  deriving DecidableEq

/-- The members of `channel<T>`. The mutex is implicit: a body is one step. -/
@[ext] structure Channel (H A T : Type) where
  capacity : Nat
  buffer : List T
  closed : Bool
  sendWaiters : List (SendWaiter H T)
  recvWaiters : List (RecvWaiter H A)
  deriving DecidableEq

/-- A return value, the channel left behind, and the effects in program order. -/
structure Outcome (H A T R : Type) where
  result : R
  channel : Channel H A T
  effects : List (Effect H A T)
  deriving DecidableEq

/-- `send_waiter::resume`, and `resume_with_result`, which ignores its argument. -/
def SendWaiter.resume (waiter : SendWaiter H T) : List (Effect H A T) :=
  [.schedule waiter.handle]

/-- `recv_waiter::resume_with_result`. -/
def RecvWaiter.resumeWithResult (waiter : RecvWaiter H A) (success : Bool) :
    List (Effect H A T) :=
  [.result waiter.awaiter success, .schedule waiter.handle]

/-- `recv_waiter::resume`. -/
def RecvWaiter.resume (waiter : RecvWaiter H A) : List (Effect H A T) :=
  waiter.resumeWithResult true

namespace Channel

/-- The constructor. -/
def new (capacity : Nat) : Channel H A T where
  capacity := capacity
  buffer := []
  closed := false
  sendWaiters := []
  recvWaiters := []

/-- The body shared by the two overloads of `try_send`. They differ in what the
caller's variable holds after the value was used, `used`; `none` stands for a
moved-from variable. -/
def trySendWith (channel : Channel H A T) (value : T) (used : Option T) :
    Outcome H A T (Bool × Option T) :=
  if channel.closed then
    ⟨(false, some value), channel, []⟩
  else
    match channel.recvWaiters with
    | waiter :: rest =>
        ⟨(true, used), { channel with recvWaiters := rest },
          [.take value, .accept value, .deliver waiter.awaiter value] ++ waiter.resume⟩
    | [] =>
        if channel.capacity = 0 ∨ channel.capacity ≤ channel.buffer.length then
          ⟨(false, some value), channel, []⟩
        else
          ⟨(true, used), { channel with buffer := channel.buffer ++ [value] },
            [.take value, .accept value]⟩

/-- `try_send(const T& value)`, which copies. -/
def trySend (channel : Channel H A T) (value : T) : Outcome H A T (Bool × Option T) :=
  channel.trySendWith value (some value)

/-- `try_send(T&& value)`, which moves out of the caller's variable. -/
def trySendMove (channel : Channel H A T) (value : T) : Outcome H A T (Bool × Option T) :=
  channel.trySendWith value none

/-- `try_recv(T& value)` for the out-parameter `reader`, whose content before
the call is `old`; the result carries its content afterwards. -/
def tryRecv (channel : Channel H A T) (reader : A) (old : Option T) :
    Outcome H A T (Bool × Option T) :=
  if channel.closed && channel.buffer.isEmpty then
    ⟨(false, old), channel, []⟩
  else
    match channel.buffer with
    | front :: buffer =>
        match channel.sendWaiters with
        | waiter :: rest =>
            ⟨(true, some front),
              { channel with buffer := buffer ++ [waiter.value], sendWaiters := rest },
              [.deliver reader front, .accept waiter.value] ++ waiter.resume⟩
        | [] => ⟨(true, some front), { channel with buffer := buffer }, [.deliver reader front]⟩
    | [] =>
        match channel.sendWaiters with
        | waiter :: rest =>
            ⟨(true, some waiter.value), { channel with sendWaiters := rest },
              [.accept waiter.value, .deliver reader waiter.value] ++ waiter.resume⟩
        | [] => ⟨(false, old), channel, []⟩

/-- `register_send_waiter(handle, value)`. The direct hand-over resumes the
receiver and returns without scheduling `handle`. -/
def registerSendWaiter (channel : Channel H A T) (handle : H) (value : T) :
    Outcome H A T Unit :=
  if channel.closed then
    ⟨(), channel, [.schedule handle]⟩
  else
    match channel.recvWaiters with
    | waiter :: rest =>
        ⟨(), { channel with recvWaiters := rest },
          [.take value, .accept value, .deliver waiter.awaiter value] ++ waiter.resume⟩
    | [] =>
        ⟨(), { channel with sendWaiters := channel.sendWaiters ++ [⟨handle, value⟩] },
          [.take value]⟩

/-- `register_recv_waiter(handle, &value_, &result_, this)`. -/
def registerRecvWaiter (channel : Channel H A T) (handle : H) (awaiter : A) :
    Outcome H A T Unit :=
  if channel.closed then
    ⟨(), channel, [.result awaiter false, .schedule handle]⟩
  else
    match channel.sendWaiters with
    | waiter :: rest =>
        ⟨(), { channel with sendWaiters := rest },
          [.accept waiter.value, .deliver awaiter waiter.value, .result awaiter true,
            .schedule handle] ++ waiter.resume⟩
    | [] =>
        ⟨(), { channel with recvWaiters := channel.recvWaiters ++ [⟨handle, awaiter⟩] }, []⟩

/-- `closed_.exchange(true)`, the first step of `close`; returns `was_closed`. -/
def closeExchange (channel : Channel H A T) : Outcome H A T Bool :=
  ⟨channel.closed, { channel with closed := true }, []⟩

/-- The mutex-protected rest of `close`. -/
def closeFlush (channel : Channel H A T) : Outcome H A T Unit :=
  ⟨(), { channel with sendWaiters := [], recvWaiters := [] },
    channel.sendWaiters.flatMap SendWaiter.resume ++
      channel.sendWaiters.map (fun waiter => .discard waiter.value) ++
      channel.recvWaiters.flatMap fun waiter => waiter.resumeWithResult false⟩

/-- `is_closed()`. -/
def isClosed (channel : Channel H A T) : Bool :=
  channel.closed

/-- `is_empty()`. -/
def isEmpty (channel : Channel H A T) : Bool :=
  channel.buffer.isEmpty

/-- `is_full()`. -/
def isFull (channel : Channel H A T) : Bool :=
  if channel.capacity = 0 then true else channel.capacity ≤ channel.buffer.length

/-- What every interleaving of the operations maintains: `buffer_` never
outgrows the capacity, and one of the two waiter lists is empty. -/
structure WellFormed (channel : Channel H A T) : Prop where
  bounded : channel.buffer.length ≤ channel.capacity
  oneSided : channel.sendWaiters = [] ∨ channel.recvWaiters = []

theorem new_wellFormed (capacity : Nat) : (new capacity : Channel H A T).WellFormed :=
  ⟨Nat.zero_le _, Or.inl rfl⟩

end Channel

end Tang
