import Tang.Channel.Laws

/-! # How a waiter leaves its list

The waiters a body removes, and those that register without being parked, are
the ones it serves: a sender has its value accepted unless the channel is
closed, a receiver gets an answer, true with a value or false on a closed
channel. Nobody else is written to, except by the calls of `try_send` and
`try_recv` themselves.
-/

namespace Tang

open Effect

variable {H A T R : Type}

/-- `servedSenders` and `servedReceivers` leave the channel, out of the waiters
it had and those that register; `items` and `readers` belong to the caller. -/
structure Outcome.Serves (channel : Channel H A T) (senders : List (SendWaiter H T))
    (receivers : List (RecvWaiter H A)) (items : List T) (readers : List A)
    (servedSenders : List (SendWaiter H T)) (servedReceivers : List (RecvWaiter H A))
    (out : Outcome H A T R) : Prop where
  senders : (servedSenders ++ out.channel.sendWaiters).Perm (channel.sendWaiters ++ senders)
  receivers : (servedReceivers ++ out.channel.recvWaiters).Perm (channel.recvWaiters ++ receivers)
  closed : channel.closed = true → out.channel.closed = true
  accepted : ∀ item ∈ accepts out.effects,
    item ∈ items ∨ item ∈ servedSenders.map SendWaiter.value
  delivered : ∀ awaiter ∈ (delivers out.effects).map Prod.fst,
    awaiter ∈ readers ∨ awaiter ∈ servedReceivers.map RecvWaiter.awaiter
  answered : ∀ awaiter ∈ (results out.effects).map Prod.fst,
    awaiter ∈ servedReceivers.map RecvWaiter.awaiter
  freed : ∀ waiter ∈ servedSenders, channel.closed = true ∨ waiter.value ∈ accepts out.effects
  served : ∀ waiter ∈ servedReceivers, waiter.awaiter ∈ (results out.effects).map Prod.fst
  verdict : (∀ answer ∈ results out.effects,
      answer.2 = true ∧ answer.1 ∈ (delivers out.effects).map Prod.fst) ∨
    (channel.closed = true ∧ ∀ answer ∈ results out.effects, answer.2 = false)

/-- The body serves some of the waiters. -/
def Outcome.ServesSome (channel : Channel H A T) (senders : List (SendWaiter H T))
    (receivers : List (RecvWaiter H A)) (items : List T) (readers : List A)
    (out : Outcome H A T R) : Prop :=
  ∃ servedSenders servedReceivers,
    out.Serves channel senders receivers items readers servedSenders servedReceivers

/-- Whoever waits afterwards waited before or registered. -/
theorem Outcome.ServesSome.mem_sendWaiters {channel : Channel H A T}
    {senders : List (SendWaiter H T)} {receivers : List (RecvWaiter H A)} {items : List T}
    {readers : List A} {out : Outcome H A T R}
    (hserves : out.ServesSome channel senders receivers items readers)
    {waiter : SendWaiter H T} (hwaiter : waiter ∈ out.channel.sendWaiters) :
    waiter ∈ channel.sendWaiters ∨ waiter ∈ senders := by
  obtain ⟨_, _, hserves⟩ := hserves
  exact List.mem_append.mp (hserves.senders.subset (List.mem_append_right _ hwaiter))

theorem Outcome.ServesSome.mem_recvWaiters {channel : Channel H A T}
    {senders : List (SendWaiter H T)} {receivers : List (RecvWaiter H A)} {items : List T}
    {readers : List A} {out : Outcome H A T R}
    (hserves : out.ServesSome channel senders receivers items readers)
    {waiter : RecvWaiter H A} (hwaiter : waiter ∈ out.channel.recvWaiters) :
    waiter ∈ channel.recvWaiters ∨ waiter ∈ receivers := by
  obtain ⟨_, _, hserves⟩ := hserves
  exact List.mem_append.mp (hserves.receivers.subset (List.mem_append_right _ hwaiter))

/-- A body that does nothing serves nobody. -/
theorem Outcome.servesSome_of_idle {channel : Channel H A T} {out : Outcome H A T R}
    {items : List T} {readers : List A} (hchannel : out.channel = channel)
    (heffects : out.effects = []) : out.ServesSome channel [] [] items readers :=
  ⟨[], [], by constructor <;> simp [hchannel, heffects]⟩

namespace Channel

variable (channel : Channel H A T)

theorem trySendWith_serves (value : T) (used : Option T) :
    (channel.trySendWith value used).ServesSome channel [] [] [value] [] := by
  rcases channel.trySendWith_cases value used with
    ⟨_, hout⟩ | ⟨waiter, rest, hclosed, hwaiters, hout⟩ | ⟨hclosed, _, _, hout⟩
  · exact Outcome.servesSome_of_idle (by rw [hout]) (by rw [hout])
  · refine ⟨[], [waiter], ?_⟩
    constructor <;> simp [hout, hwaiters, hclosed]
  · refine ⟨[], [], ?_⟩
    constructor <;> simp [hout, hclosed]

theorem tryRecv_serves (reader : A) (old : Option T) :
    (channel.tryRecv reader old).ServesSome channel [] [] [] [reader] := by
  rcases channel.tryRecv_cases reader old with
    ⟨front, buffer, waiter, rest, hbuffer, hwaiters, hout⟩ |
      ⟨front, buffer, hbuffer, hwaiters, hout⟩ |
      ⟨waiter, rest, hclosed, hbuffer, hwaiters, hout⟩ | ⟨_, _, hout⟩
  · refine ⟨[waiter], [], ?_⟩
    constructor <;> simp [hout, hwaiters]
  · refine ⟨[], [], ?_⟩
    constructor <;> simp [hout, hwaiters]
  · refine ⟨[waiter], [], ?_⟩
    constructor <;> simp [hout, hwaiters, hclosed]
  · exact Outcome.servesSome_of_idle (by rw [hout]) (by rw [hout])

/-- The sender itself is served in the direct hand-over and on a closed
channel. -/
theorem registerSendWaiter_serves (handle : H) (value : T) :
    (channel.registerSendWaiter handle value).ServesSome channel [⟨handle, value⟩] [] [] [] := by
  rcases channel.registerSendWaiter_cases handle value with
    ⟨hclosed, hout⟩ | ⟨waiter, rest, hclosed, hwaiters, hout⟩ | ⟨hclosed, _, hout⟩
  · refine ⟨[⟨handle, value⟩], [], ?_⟩
    constructor <;> simp [hout, hclosed]
    exact (List.perm_append_singleton _ _).symm
  · refine ⟨[⟨handle, value⟩], [waiter], ?_⟩
    constructor <;> simp [hout, hwaiters, hclosed]
    exact (List.perm_append_singleton _ _).symm
  · refine ⟨[], [], ?_⟩
    constructor <;> simp [hout, hclosed]

theorem registerRecvWaiter_serves (handle : H) (awaiter : A) :
    (channel.registerRecvWaiter handle awaiter).ServesSome channel [] [⟨handle, awaiter⟩]
      [] [] := by
  rcases channel.registerRecvWaiter_cases handle awaiter with
    ⟨hclosed, hout⟩ | ⟨waiter, rest, hclosed, hwaiters, hout⟩ | ⟨hclosed, _, hout⟩
  · refine ⟨[], [⟨handle, awaiter⟩], ?_⟩
    constructor <;> simp [hout, hclosed]
    exact (List.perm_append_singleton _ _).symm
  · refine ⟨[waiter], [⟨handle, awaiter⟩], ?_⟩
    constructor <;> simp [hout, hwaiters, hclosed]
    exact (List.perm_append_singleton _ _).symm
  · refine ⟨[], [], ?_⟩
    constructor <;> simp [hout, hclosed]

theorem closeExchange_serves : channel.closeExchange.ServesSome channel [] [] [] [] :=
  ⟨[], [], by constructor <;> simp [closeExchange]⟩

/-- The flush serves every waiter, on a channel that is closed. -/
theorem closeFlush_serves (hclosed : channel.closed = true) :
    channel.closeFlush.ServesSome channel [] [] [] [] := by
  refine ⟨channel.sendWaiters, channel.recvWaiters, ?_⟩
  constructor <;> simp [hclosed]
  exact fun waiter hwaiter => ⟨waiter, hwaiter, rfl⟩

end Channel

end Tang
