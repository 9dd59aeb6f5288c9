import Tang.Foundation.Transducer
import Tang.Channel.Laws

/-! # A channel used by one operation at a time is a FIFO

When nothing runs between the two steps of an awaiter, the buffer and the
values of the parked senders form one queue, of which the first `capacity_`
positions are the buffer. `Fifo` is that queue with its parked receivers; the
conditions that make it a channel state are part of the type.
-/

namespace Tang

open Foundation Effect

variable {H A T : Type}

/-! ## Calls and replies -/

/-- One operation on a channel, with both steps of an awaiter taken together. -/
inductive Call (H A T : Type)
  /-- `co_await ch.send(value)` by the coroutine `handle`. -/
  | send (handle : H) (value : T)
  /-- `co_await ch.recv(x)` by the coroutine `handle`. -/
  | recv (handle : H) (awaiter : A)
  | trySend (value : T)
  | trySendMove (value : T)
  | tryRecv (reader : A)
  | close
  deriving DecidableEq

/-- What a call does: whether `await_ready` or the call itself returned true,
the assignments, the result members written, and the handles scheduled. -/
structure Reply (H A T : Type) where
  completed : Bool
  delivered : List (A × T)
  results : List (A × Bool)
  scheduled : List H
  deriving DecidableEq

namespace Channel

/-- The reply that an effect list amounts to. -/
def reply (completed : Bool) (effects : List (Effect H A T)) : Reply H A T where
  completed := completed
  delivered := delivers effects
  results := results effects
  scheduled := schedules effects

/-- `await_ready`, and `await_suspend` if it returned false. -/
def send (channel : Channel H A T) (handle : H) (value : T) : Reply H A T × Channel H A T :=
  let ready := channel.trySend value
  if ready.result.1 then (reply true ready.effects, ready.channel)
  else
    let registered := ready.channel.registerSendWaiter handle value
    (reply false (ready.effects ++ registered.effects), registered.channel)

/-- `await_ready`, and `await_suspend` if it returned false. -/
def recv (channel : Channel H A T) (handle : H) (awaiter : A) :
    Reply H A T × Channel H A T :=
  let ready := channel.tryRecv awaiter none
  if ready.result.1 then (reply true ready.effects, ready.channel)
  else
    let registered := ready.channel.registerRecvWaiter handle awaiter
    (reply false (ready.effects ++ registered.effects), registered.channel)

/-- Both steps of `close`. -/
def close (channel : Channel H A T) : Reply H A T × Channel H A T :=
  let exchanged := channel.closeExchange
  if exchanged.result then (reply true exchanged.effects, exchanged.channel)
  else
    let flushed := exchanged.channel.closeFlush
    (reply true (exchanged.effects ++ flushed.effects), flushed.channel)

/-- The channel as a system that answers calls. -/
def system (H A T : Type) : Transducer (Channel H A T) (Call H A T) (Reply H A T) where
  step channel
    | .send handle value => channel.send handle value
    | .recv handle awaiter => channel.recv handle awaiter
    | .trySend value =>
        let out := channel.trySend value
        (reply out.result.1 out.effects, out.channel)
    | .trySendMove value =>
        let out := channel.trySendMove value
        (reply out.result.1 out.effects, out.channel)
    | .tryRecv reader =>
        let out := channel.tryRecv reader none
        (reply out.result.1 out.effects, out.channel)
    | .close => channel.close

end Channel

/-! ## The queue -/

/-- A queued value. `sender` is the coroutine that sends it with `co_await`. -/
structure Entry (H T : Type) where
  value : T
  sender : Option H
  deriving DecidableEq

/-- The coroutine parked with the value. -/
def Entry.waiter? (entry : Entry H T) : Option (SendWaiter H T) :=
  entry.sender.map fun handle => ⟨handle, entry.value⟩

/-- One queue of values, the parked receivers and the closed flag. Values past
the first `capacity` positions were sent with `co_await`; receivers wait for an
empty queue only; a closed channel holds neither parked senders nor receivers. -/
structure Fifo (H A T : Type) where
  capacity : Nat
  queue : List (Entry H T)
  receivers : List (RecvWaiter H A)
  closed : Bool
  awaited : ∀ entry ∈ queue.drop capacity, entry.sender.isSome
  starved : receivers ≠ [] → queue = []
  shut : closed = true → queue.length ≤ capacity ∧ receivers = []

/-- What a call does to the queue. Released senders and woken receivers are
kept apart. -/
structure Answer (H A T : Type) where
  completed : Bool
  delivered : List (A × T) := []
  results : List (A × Bool) := []
  released : List H := []
  woken : List H := []

/-- On the channel both kinds of handle go to `runtime::schedule`. -/
def Answer.toReply (answer : Answer H A T) : Reply H A T where
  completed := answer.completed
  delivered := answer.delivered
  results := answer.results
  scheduled := answer.released ++ answer.woken

namespace Fifo

def new (capacity : Nat) : Fifo H A T where
  capacity := capacity
  queue := []
  receivers := []
  closed := false
  awaited := by simp
  starved _ := rfl
  shut := nofun

/-- The senders whose values lie past the first `capacity` positions. -/
def parked (fifo : Fifo H A T) : List H :=
  (fifo.queue.drop fifo.capacity).filterMap Entry.sender

/-- The buffer is the first `capacity` positions of the queue. -/
def toChannel (fifo : Fifo H A T) : Channel H A T where
  capacity := fifo.capacity
  buffer := (fifo.queue.take fifo.capacity).map Entry.value
  closed := fifo.closed
  sendWaiters := (fifo.queue.drop fifo.capacity).filterMap Entry.waiter?
  recvWaiters := fifo.receivers

/-- The oldest parked receiver leaves. -/
def serve (fifo : Fifo H A T) (waiter : RecvWaiter H A) (rest : List (RecvWaiter H A))
    (hreceivers : fifo.receivers = waiter :: rest) : Fifo H A T where
  capacity := fifo.capacity
  queue := fifo.queue
  receivers := rest
  closed := fifo.closed
  awaited := fifo.awaited
  starved _ := fifo.starved (by simp [hreceivers])
  shut hclosed := by simpa [hreceivers] using (fifo.shut hclosed).2

/-- A value joins the end of the queue of an open channel nobody waits at. -/
def append (fifo : Fifo H A T) (entry : Entry H T)
    (hentry : fifo.capacity ≤ fifo.queue.length → entry.sender.isSome) : Fifo H A T where
  capacity := fifo.capacity
  queue := fifo.queue ++ [entry]
  receivers := []
  closed := false
  awaited := by
    intro other hother
    rw [List.drop_append, List.mem_append] at hother
    rcases hother with hother | hother
    · exact fifo.awaited other hother
    · by_cases hfull : fifo.capacity ≤ fifo.queue.length
      · obtain rfl : other = entry := by simpa using List.mem_of_mem_drop hother
        exact hentry hfull
      · rw [List.drop_of_length_le (by simp; omega)] at hother
        exact absurd hother List.not_mem_nil
  starved := nofun
  shut := nofun

/-- The head of the queue leaves. -/
def advance (fifo : Fifo H A T) (head : Entry H T) (tail : List (Entry H T))
    (hqueue : fifo.queue = head :: tail) : Fifo H A T where
  capacity := fifo.capacity
  queue := tail
  receivers := fifo.receivers
  closed := fifo.closed
  awaited := by
    intro entry hentry
    apply fifo.awaited entry
    have htail : tail.drop fifo.capacity = (fifo.queue.drop fifo.capacity).tail := by
      rw [hqueue, List.tail_drop, List.drop_succ_cons]
    rw [htail] at hentry
    exact List.mem_of_mem_tail hentry
  starved hreceivers := by simpa [hqueue] using fifo.starved hreceivers
  shut hclosed := by
    have hshut := fifo.shut hclosed
    rw [hqueue, List.length_cons] at hshut
    exact ⟨by omega, hshut.2⟩

/-- A receiver parks at the empty queue of an open channel. -/
def wait (fifo : Fifo H A T) (waiter : RecvWaiter H A) : Fifo H A T where
  capacity := fifo.capacity
  queue := []
  receivers := fifo.receivers ++ [waiter]
  closed := false
  awaited := by simp
  starved _ := rfl
  shut := nofun

/-- The queue is truncated to the buffer, and nobody is parked any more. -/
def shutDown (fifo : Fifo H A T) : Fifo H A T where
  capacity := fifo.capacity
  queue := fifo.queue.take fifo.capacity
  receivers := []
  closed := true
  awaited := by simp
  starved := nofun
  shut _ := ⟨List.length_take_le _ _, rfl⟩

/-- The sender whose value enters the first `capacity` positions when the head
of the queue leaves, or whose value is that head if there are none. -/
def next (fifo : Fifo H A T) : List H :=
  (fifo.queue[fifo.capacity]?.bind Entry.sender).toList

/-- On an open channel a value goes to the oldest parked receiver, or to the end
of the queue; its sender goes on exactly if its position is below `capacity`. -/
def send (fifo : Fifo H A T) (handle : H) (value : T) : Answer H A T × Fifo H A T :=
  if fifo.closed then ({ completed := false, released := [handle] }, fifo)
  else
    match hreceivers : fifo.receivers with
    | waiter :: rest =>
        ({ completed := true, delivered := [(waiter.awaiter, value)],
           results := [(waiter.awaiter, true)], woken := [waiter.handle] },
          fifo.serve waiter rest hreceivers)
    | [] =>
        ({ completed := decide (fifo.queue.length < fifo.capacity) },
          fifo.append ⟨value, some handle⟩ fun _ => rfl)

/-- As `send`, but a value that would have to wait is refused. -/
def trySend (fifo : Fifo H A T) (value : T) : Answer H A T × Fifo H A T :=
  if fifo.closed then ({ completed := false }, fifo)
  else
    match hreceivers : fifo.receivers with
    | waiter :: rest =>
        ({ completed := true, delivered := [(waiter.awaiter, value)],
           results := [(waiter.awaiter, true)], woken := [waiter.handle] },
          fifo.serve waiter rest hreceivers)
    | [] =>
        if hroom : fifo.queue.length < fifo.capacity then
          ({ completed := true }, fifo.append ⟨value, none⟩ fun hfull => by omega)
        else ({ completed := false }, fifo)

/-- The head of a non-empty queue is received. -/
def tryRecv (fifo : Fifo H A T) (reader : A) : Answer H A T × Fifo H A T :=
  match hqueue : fifo.queue with
  | head :: tail =>
      ({ completed := true, delivered := [(reader, head.value)], released := fifo.next },
        fifo.advance head tail hqueue)
  | [] => ({ completed := false }, fifo)

/-- As `tryRecv`; at an empty queue the receiver parks, or fails if the channel
is closed. -/
def recv (fifo : Fifo H A T) (handle : H) (awaiter : A) : Answer H A T × Fifo H A T :=
  match hqueue : fifo.queue with
  | head :: tail =>
      ({ completed := true, delivered := [(awaiter, head.value)], released := fifo.next },
        fifo.advance head tail hqueue)
  | [] =>
      if fifo.closed then
        ({ completed := false, results := [(awaiter, false)], woken := [handle] }, fifo)
      else ({ completed := false }, fifo.wait ⟨handle, awaiter⟩)

/-- The queue is truncated, parked senders are released and parked receivers
fail. A second `close` does nothing. -/
def close (fifo : Fifo H A T) : Answer H A T × Fifo H A T :=
  if fifo.closed then ({ completed := true }, fifo)
  else
    ({ completed := true, results := fifo.receivers.map fun waiter => (waiter.awaiter, false),
       released := fifo.parked, woken := fifo.receivers.map RecvWaiter.handle },
      fifo.shutDown)

/-- The queue as a system that answers calls. -/
def system (H A T : Type) : Transducer (Fifo H A T) (Call H A T) (Answer H A T) where
  step fifo
    | .send handle value => fifo.send handle value
    | .recv handle awaiter => fifo.recv handle awaiter
    | .trySend value => fifo.trySend value
    | .trySendMove value => fifo.trySend value
    | .tryRecv reader => fifo.tryRecv reader
    | .close => fifo.close

/-! ## The channel is the queue, cut at the capacity -/

variable (fifo : Fifo H A T)

/-- A call on the represented channel does what the call on the queue does. -/
def Matches (concrete : Reply H A T × Channel H A T) (abstract : Answer H A T × Fifo H A T) :
    Prop :=
  concrete = Prod.map Answer.toReply toChannel abstract

@[simp] theorem toChannel_closed : fifo.toChannel.closed = fifo.closed := rfl

@[simp] theorem toChannel_recvWaiters : fifo.toChannel.recvWaiters = fifo.receivers := rfl

/-- The represented buffer is full exactly if the queue reaches the capacity. -/
theorem toChannel_full :
    fifo.toChannel.capacity ≤ fifo.toChannel.buffer.length ↔
      fifo.capacity ≤ fifo.queue.length := by
  simp only [toChannel, List.length_map, List.length_take]
  omega

/-- A value appended to a queue with room enters the represented buffer. -/
theorem append_toChannel_of_room (entry : Entry H T) (hclosed : fifo.closed = false)
    (hreceivers : fifo.receivers = []) (hroom : fifo.queue.length < fifo.capacity)
    (hentry : fifo.capacity ≤ fifo.queue.length → entry.sender.isSome) :
    (fifo.append entry hentry).toChannel =
      { fifo.toChannel with buffer := fifo.toChannel.buffer ++ [entry.value] } := by
  have hbuffer : (fifo.queue ++ [entry]).take fifo.capacity = fifo.queue ++ [entry] :=
    List.take_of_length_le (by simp; omega)
  have hsenders : (fifo.queue ++ [entry]).drop fifo.capacity = [] :=
    List.drop_of_length_le (by simp; omega)
  have hbefore : fifo.queue.take fifo.capacity = fifo.queue := List.take_of_length_le (by omega)
  have hnone : fifo.queue.drop fifo.capacity = [] := List.drop_of_length_le (by omega)
  simp [append, toChannel, hclosed, hreceivers, hbuffer, hsenders, hbefore, hnone]

/-- A value appended to a queue without room is parked with its sender. -/
theorem append_toChannel_of_full (handle : H) (value : T) (hclosed : fifo.closed = false)
    (hreceivers : fifo.receivers = []) (hfull : fifo.capacity ≤ fifo.queue.length) :
    (fifo.append ⟨value, some handle⟩ fun _ => rfl).toChannel =
      { fifo.toChannel with
        sendWaiters := fifo.toChannel.sendWaiters ++ [⟨handle, value⟩] } := by
  have hzero : fifo.capacity - fifo.queue.length = 0 := by omega
  simp [append, toChannel, hclosed, hreceivers, List.take_append, List.drop_append, hzero,
    Entry.waiter?]

/-- A send attempt on the represented channel, read off the queue. -/
theorem toChannel_trySendWith_cases (value : T) (used : Option T) :
    ((fifo.closed = true ∨ fifo.receivers = [] ∧ fifo.capacity ≤ fifo.queue.length) ∧
        fifo.toChannel.trySendWith value used = ⟨(false, some value), fifo.toChannel, []⟩) ∨
      (∃ waiter rest, ∃ hreceivers : fifo.receivers = waiter :: rest, fifo.closed = false ∧
        fifo.toChannel.trySendWith value used =
          ⟨(true, used), (fifo.serve waiter rest hreceivers).toChannel,
            [.take value, .accept value, .deliver waiter.awaiter value,
              .result waiter.awaiter true, .schedule waiter.handle]⟩) ∨
      (fifo.closed = false ∧ fifo.receivers = [] ∧ fifo.queue.length < fifo.capacity ∧
        fifo.toChannel.trySendWith value used =
          ⟨(true, used),
            { fifo.toChannel with buffer := fifo.toChannel.buffer ++ [value] },
            [.take value, .accept value]⟩) := by
  rcases fifo.toChannel.trySendWith_cases value used with
    ⟨hblocked, hout⟩ | ⟨waiter, rest, hclosed, hwaiters, hout⟩ | ⟨hclosed, hwaiters, hroom, hout⟩
  · rw [toChannel_full] at hblocked
    exact Or.inl ⟨hblocked, hout⟩
  · exact Or.inr (Or.inl ⟨waiter, rest, hwaiters, hclosed, hout⟩)
  · have hnotFull := mt fifo.toChannel_full.mpr (Nat.not_le.mpr hroom)
    exact Or.inr (Or.inr ⟨hclosed, hwaiters, Nat.not_le.mp hnotFull, hout⟩)

theorem trySend_matches (value : T) (used : Option T) :
    Matches
      (Channel.reply (fifo.toChannel.trySendWith value used).result.1
        (fifo.toChannel.trySendWith value used).effects,
        (fifo.toChannel.trySendWith value used).channel)
      (fifo.trySend value) := by
  unfold Matches Fifo.trySend
  rcases fifo.toChannel_trySendWith_cases value used with
    ⟨hblocked, hout⟩ | ⟨waiter, rest, hwaiters, hclosed, hout⟩ | ⟨hclosed, hwaiters, hroom, hout⟩
  · rw [hout]
    split
    next => rfl
    next hopen =>
      obtain ⟨hwaiters, hfull⟩ := hblocked.resolve_left hopen
      split
      next waiter rest hreceivers => simp [hwaiters] at hreceivers
      next => rw [dif_neg (by omega)]; rfl
  · rw [hout, if_neg (by simp [hclosed])]
    split
    next other others hreceivers =>
      obtain ⟨rfl, rfl⟩ := List.cons.inj (hwaiters.symm.trans hreceivers)
      rfl
    next hreceivers => simp [hreceivers] at hwaiters
  · rw [hout, if_neg (by simp [hclosed])]
    split
    next other others hreceivers => simp [hreceivers] at hwaiters
    next =>
      rw [dif_pos hroom]
      exact Prod.ext rfl (fifo.append_toChannel_of_room ⟨value, none⟩ hclosed hwaiters hroom
        fun hfull => absurd hroom (by omega)).symm

theorem send_matches (handle : H) (value : T) :
    Matches (fifo.toChannel.send handle value) (fifo.send handle value) := by
  unfold Matches Fifo.send Channel.send Channel.trySend
  rcases fifo.toChannel_trySendWith_cases value (some value) with
    ⟨hblocked, hout⟩ | ⟨waiter, rest, hwaiters, hclosed, hout⟩ | ⟨hclosed, hwaiters, hroom, hout⟩
  · simp only [hout, Bool.false_eq_true, if_false, List.nil_append]
    rcases fifo.toChannel.registerSendWaiter_cases handle value with
      ⟨hclosed, hreg⟩ | ⟨waiter, rest, hclosed, hwaiters, hreg⟩ | ⟨hclosed, hwaiters, hreg⟩
    · rw [hreg, if_pos (by simpa using hclosed)]
      rfl
    · have hopen : ¬ fifo.closed = true := by simpa using hclosed
      have hnone := (hblocked.resolve_left hopen).1
      simp [hnone] at hwaiters
    · have hopen : ¬ fifo.closed = true := by simpa using hclosed
      have hfull := (hblocked.resolve_left hopen).2
      rw [hreg, if_neg hopen]
      split
      next other others hreceivers => simp [hreceivers] at hwaiters
      next hreceivers =>
        have hlength : ¬ fifo.queue.length < fifo.capacity := by omega
        refine Prod.ext ?_ (fifo.append_toChannel_of_full handle value hclosed hreceivers
          hfull).symm
        simp [Channel.reply, Answer.toReply, hlength]
  · simp only [hout, if_true]
    rw [if_neg (by simp [hclosed])]
    split
    next other others hreceivers =>
      obtain ⟨rfl, rfl⟩ := List.cons.inj (hwaiters.symm.trans hreceivers)
      rfl
    next hreceivers => simp [hreceivers] at hwaiters
  · simp only [hout, if_true]
    rw [if_neg (by simp [hclosed])]
    split
    next other others hreceivers => simp [hreceivers] at hwaiters
    next =>
      refine Prod.ext ?_ (fifo.append_toChannel_of_room ⟨value, some handle⟩ hclosed hwaiters
        hroom fun _ => rfl).symm
      simp [Channel.reply, Answer.toReply, hroom]

/-- The entry at the capacity is the oldest parked sender. -/
theorem drop_capacity_cases :
    (fifo.queue[fifo.capacity]? = none ∧ fifo.toChannel.sendWaiters = []) ∨
      ∃ handle value, fifo.queue[fifo.capacity]? = some ⟨value, some handle⟩ ∧
        fifo.toChannel.sendWaiters = ⟨handle, value⟩ ::
          (fifo.queue.drop (fifo.capacity + 1)).filterMap Entry.waiter? := by
  rcases Nat.lt_or_ge fifo.capacity fifo.queue.length with hlength | hlength
  · have hdrop := List.drop_eq_getElem_cons hlength
    have hsender := fifo.awaited fifo.queue[fifo.capacity] (hdrop ▸ List.mem_cons_self)
    obtain ⟨handle, hhandle⟩ := Option.isSome_iff_exists.mp hsender
    refine Or.inr ⟨handle, fifo.queue[fifo.capacity].value, ?_, ?_⟩
    · rw [List.getElem?_eq_getElem hlength, ← hhandle]
    · change (fifo.queue.drop fifo.capacity).filterMap Entry.waiter? = _
      rw [hdrop]
      simp only [List.filterMap_cons, Entry.waiter?, hhandle, Option.map_some]
  · refine Or.inl ⟨List.getElem?_eq_none hlength, ?_⟩
    simp [toChannel, List.drop_of_length_le hlength]

/-- Receiving from a non-empty queue takes its head and releases the sender
whose value moves below the capacity. -/
theorem toChannel_tryRecv_cons (head : Entry H T) (tail : List (Entry H T))
    (hqueue : fifo.queue = head :: tail) (reader : A) (old : Option T) :
    (fifo.toChannel.tryRecv reader old).result.1 = true ∧
      Channel.reply true (fifo.toChannel.tryRecv reader old).effects =
        ⟨true, [(reader, head.value)], [], fifo.next⟩ ∧
      (fifo.toChannel.tryRecv reader old).channel = (fifo.advance head tail hqueue).toChannel := by
  have hsenders : (fifo.advance head tail hqueue).toChannel.sendWaiters =
      (fifo.queue.drop (fifo.capacity + 1)).filterMap Entry.waiter? := by
    rw [hqueue, List.drop_succ_cons]
    rfl
  have hrest : fifo.queue[fifo.capacity]? = none →
      fifo.queue.drop (fifo.capacity + 1) = [] := by
    intro hnone
    have hlength := List.getElem?_eq_none_iff.mp hnone
    exact List.drop_of_length_le (by omega)
  cases hcapacity : fifo.capacity with
  | zero =>
      -- Without a buffer the head of the queue is the value of the oldest parked sender.
      have hbuffer : fifo.toChannel.buffer = [] := by simp [toChannel, hcapacity]
      have hafter : (fifo.advance head tail hqueue).toChannel.buffer = [] := by
        simp [toChannel, advance, hcapacity]
      have hopen : fifo.closed = false := by
        by_contra hclosed
        have hshort := (fifo.shut (by simpa using hclosed)).1
        simp [hqueue, hcapacity] at hshort
      have hhead : fifo.queue[fifo.capacity]? = some head := by simp [hcapacity, hqueue]
      rcases fifo.drop_capacity_cases with ⟨hnone, _⟩ | ⟨handle, value, hentry, hwaiters⟩
      · simp [hhead] at hnone
      obtain rfl : head = ⟨value, some handle⟩ := Option.some.inj (hhead.symm.trans hentry)
      rcases fifo.toChannel.tryRecv_cases reader old with
        ⟨_, _, _, _, hfront, _⟩ | ⟨_, _, hfront, _⟩ | ⟨waiter, rest, _, _, hfirst, hout⟩ |
          ⟨_, hnobody, _⟩
      · simp [hbuffer] at hfront
      · simp [hbuffer] at hfront
      · obtain ⟨rfl, rfl⟩ := List.cons.inj (hwaiters.symm.trans hfirst)
        rw [hout]
        refine ⟨rfl, by simp [Channel.reply, next, hentry], ?_⟩
        exact Channel.ext rfl (hbuffer.trans hafter.symm) rfl hsenders.symm rfl
      · simp [hopen, hwaiters] at hnobody
  | succ count =>
      -- The head is the front of the buffer, and the entry at the capacity moves up into it.
      have hbuffer : fifo.toChannel.buffer = head.value :: (tail.take count).map Entry.value := by
        simp [toChannel, hcapacity, hqueue]
      have hentry : fifo.queue[fifo.capacity]? = tail[count]? := by simp [hcapacity, hqueue]
      have hafter : (fifo.advance head tail hqueue).toChannel.buffer =
          (tail.take count).map Entry.value ++
            (fifo.queue[fifo.capacity]?.toList).map Entry.value := by
        rw [hentry]
        simp [toChannel, advance, hcapacity, List.take_add_one]
      rcases fifo.toChannel.tryRecv_cases reader old with
        ⟨front, buffer, waiter, rest, hfront, hfirst, hout⟩ |
          ⟨front, buffer, hfront, hfirst, hout⟩ | ⟨_, _, _, hempty, _⟩ | ⟨hempty, _⟩
      · obtain ⟨rfl, rfl⟩ := List.cons.inj (hbuffer.symm.trans hfront)
        rcases fifo.drop_capacity_cases with ⟨_, hwaiters⟩ | ⟨handle, value, hsome, hwaiters⟩
        · simp [hwaiters] at hfirst
        · obtain ⟨rfl, rfl⟩ := List.cons.inj (hwaiters.symm.trans hfirst)
          rw [hout]
          refine ⟨rfl, by simp [Channel.reply, next, hsome], ?_⟩
          exact Channel.ext rfl (by rw [hafter, hsome]; rfl) rfl hsenders.symm rfl
      · obtain ⟨rfl, rfl⟩ := List.cons.inj (hbuffer.symm.trans hfront)
        rcases fifo.drop_capacity_cases with ⟨hnone, _⟩ | ⟨handle, value, _, hwaiters⟩
        · rw [hout]
          refine ⟨rfl, by simp [Channel.reply, next, hnone], ?_⟩
          refine Channel.ext rfl (by simp [hafter, hnone]) rfl ?_ rfl
          rw [hsenders, hrest hnone]
          exact hfirst
        · simp [hwaiters] at hfirst
      · simp [hbuffer] at hempty
      · simp [hbuffer] at hempty

/-- Receiving from an empty queue fails and changes nothing. -/
theorem toChannel_tryRecv_nil (hqueue : fifo.queue = []) (reader : A) (old : Option T) :
    fifo.toChannel.tryRecv reader old = ⟨(false, old), fifo.toChannel, []⟩ := by
  simp [Channel.tryRecv, toChannel, hqueue]

theorem tryRecv_matches (reader : A) (old : Option T) :
    Matches
      (Channel.reply (fifo.toChannel.tryRecv reader old).result.1
        (fifo.toChannel.tryRecv reader old).effects,
        (fifo.toChannel.tryRecv reader old).channel)
      (fifo.tryRecv reader) := by
  unfold Matches Fifo.tryRecv
  split
  next head tail hqueue =>
    obtain ⟨hsuccess, hreply, hchannel⟩ := fifo.toChannel_tryRecv_cons head tail hqueue reader old
    rw [hsuccess, hreply, hchannel]
    simp [Answer.toReply]
  next hqueue =>
    rw [fifo.toChannel_tryRecv_nil hqueue]
    rfl

theorem recv_matches (handle : H) (awaiter : A) :
    Matches (fifo.toChannel.recv handle awaiter) (fifo.recv handle awaiter) := by
  unfold Matches Fifo.recv Channel.recv
  split
  next head tail hqueue =>
    obtain ⟨hsuccess, hreply, hchannel⟩ :=
      fifo.toChannel_tryRecv_cons head tail hqueue awaiter none
    simp only [hsuccess, if_true, hreply, hchannel]
    simp [Answer.toReply]
  next hqueue =>
    have hwaiters : fifo.toChannel.sendWaiters = [] := by simp [toChannel, hqueue]
    simp only [fifo.toChannel_tryRecv_nil hqueue, Bool.false_eq_true, if_false, List.nil_append]
    rcases fifo.toChannel.registerRecvWaiter_cases handle awaiter with
      ⟨hclosed, hreg⟩ | ⟨_, _, _, hsome, _⟩ | ⟨hclosed, _, hreg⟩
    · rw [hreg, if_pos (by simpa using hclosed)]
      rfl
    · simp [hwaiters] at hsome
    · have hopen : fifo.closed = false := hclosed
      rw [hreg, if_neg (by simp [hopen])]
      refine Prod.ext rfl (Channel.ext rfl ?_ hclosed ?_ rfl)
      · simp [toChannel, wait, hqueue]
      · simp [toChannel, wait, hqueue]

theorem toChannel_sendWaiters_handles :
    fifo.toChannel.sendWaiters.map SendWaiter.handle = fifo.parked := by
  have hsender : ∀ entry : Entry H T,
      (entry.waiter?).map SendWaiter.handle = entry.sender := by
    intro entry
    cases hentry : entry.sender <;> simp [Entry.waiter?, hentry]
  simp only [toChannel, parked, List.map_filterMap, hsender]

theorem close_matches : Matches fifo.toChannel.close fifo.close := by
  unfold Matches Fifo.close Channel.close
  cases hclosed : fifo.closed with
  | true =>
      simp only [Channel.closeExchange, toChannel_closed, hclosed, if_true]
      exact Prod.ext rfl (Channel.ext rfl rfl hclosed.symm rfl rfl)
  | false =>
      simp only [Channel.closeExchange, toChannel_closed, hclosed, Bool.false_eq_true, if_false,
        List.nil_append]
      refine Prod.ext ?_ (Channel.ext rfl ?_ rfl ?_ rfl)
      · simp only [Channel.reply, Channel.closeFlush_delivers, Channel.closeFlush_results,
          Channel.closeFlush_schedules, toChannel_sendWaiters_handles]
        rfl
      · simp [toChannel, shutDown, List.take_take]
      · simp [toChannel, shutDown]

/-- One call on the channel is one call on the queue. -/
theorem system_simulates :
    (Channel.system H A T).Simulates (system H A T) toChannel Answer.toReply := by
  intro fifo call
  cases call with
  | send handle value => exact fifo.send_matches handle value
  | recv handle awaiter => exact fifo.recv_matches handle awaiter
  | trySend value => exact fifo.trySend_matches value (some value)
  | trySendMove value => exact fifo.trySend_matches value none
  | tryRecv reader => exact fifo.tryRecv_matches reader none
  | close => exact fifo.close_matches

/-! ## Who is released -/

/-- The handle of a send that does not complete in `await_ready`. -/
def joining : Call H A T → Answer H A T → List H
  | .send handle _, answer => if answer.completed then [] else [handle]
  | .recv _ _, _ | .trySend _, _ | .trySendMove _, _ | .tryRecv _, _ | .close, _ => []

theorem parked_of_short (hshort : fifo.queue.length ≤ fifo.capacity) : fifo.parked = [] := by
  simp [parked, List.drop_of_length_le hshort]

theorem parked_advance (head : Entry H T) (tail : List (Entry H T))
    (hqueue : fifo.queue = head :: tail) :
    fifo.parked = fifo.next ++ (fifo.advance head tail hqueue).parked := by
  have hdrop : fifo.queue.drop fifo.capacity =
      fifo.queue[fifo.capacity]?.toList ++ tail.drop fifo.capacity := by
    have htail : tail.drop fifo.capacity = fifo.queue.drop (fifo.capacity + 1) := by
      rw [hqueue, List.drop_succ_cons]
    rw [htail]
    exact List.drop_eq_getElem?_toList_append
  simp only [parked, hdrop, List.filterMap_append]
  congr 1
  cases hentry : fifo.queue[fifo.capacity]? with
  | none => simp [next, hentry]
  | some entry => cases hsender : entry.sender <;> simp [next, hentry, hsender]

theorem parked_append (handle : H) (value : T) :
    (fifo.append ⟨value, some handle⟩ fun _ => rfl).parked = fifo.parked ++
      if fifo.queue.length < fifo.capacity then [] else [handle] := by
  simp only [parked, append, List.drop_append, List.filterMap_append]
  split
  next hroom =>
    have hlong : [(⟨value, some handle⟩ : Entry H T)].length ≤
        fifo.capacity - fifo.queue.length := by
      rw [List.length_singleton]
      omega
    rw [List.drop_of_length_le hlong]
    rfl
  next hfull =>
    rw [Nat.sub_eq_zero_of_le (by omega)]
    rfl

theorem parked_trySend (value : T) :
    fifo.parked = (fifo.trySend value).1.released ++ (fifo.trySend value).2.parked := by
  unfold trySend
  split
  next => rfl
  next =>
    split
    next => rfl
    next =>
      split
      next hroom =>
        rw [fifo.parked_of_short (by omega)]
        exact (parked_of_short _ (by simp [append]; omega)).symm
      next => rfl

/-- A sender that does not complete at once is released exactly when it is no
longer past the first `capacity` positions. -/
theorem parked_step (call : Call H A T) :
    fifo.parked ++ joining call ((system H A T).step fifo call).1 =
      ((system H A T).step fifo call).1.released ++ ((system H A T).step fifo call).2.parked := by
  cases call with
  | send handle value =>
      simp only [system, send]
      split
      next hclosed =>
        rw [fifo.parked_of_short (fifo.shut hclosed).1]
        rfl
      next =>
        split
        next => exact List.append_nil _
        next =>
          rw [parked_append]
          simp [joining]
  | recv handle awaiter =>
      simp only [system, recv]
      split
      next head tail hqueue => simpa [joining] using fifo.parked_advance head tail hqueue
      next hqueue =>
        split
        next => exact List.append_nil _
        next => simp [joining, parked, wait, hqueue]
  | trySend value => exact (List.append_nil _).trans (fifo.parked_trySend value)
  | trySendMove value => exact (List.append_nil _).trans (fifo.parked_trySend value)
  | tryRecv reader =>
      simp only [system, tryRecv]
      split
      next head tail hqueue => simpa [joining] using fifo.parked_advance head tail hqueue
      next => exact List.append_nil _
  | close =>
      simp only [system, close]
      split
      next => exact List.append_nil _
      next => simp [joining, parked, shutDown]

/-- An attempt to send succeeds exactly when a send completes without parking. -/
theorem trySend_completed (handle : H) (value : T) :
    (fifo.trySend value).1.completed = (fifo.send handle value).1.completed := by
  unfold trySend send
  split
  next => rfl
  next =>
    split
    next => rfl
    next => split <;> simp_all

/-- On a channel of any capacity, every sequence of undisturbed operations gets
the replies of the queue and leaves the queue cut at the capacity. On the queue
a sender is released exactly when its value is no longer past the capacity, and
an attempt to send succeeds exactly when a send would not park. -/
theorem channel_run_eq (capacity : Nat) (calls : List (Call H A T)) :
    (Channel.system H A T).run (.new capacity) calls =
        Prod.map (List.map Answer.toReply) toChannel ((system H A T).run (new capacity) calls) ∧
      ∀ fifo : Fifo H A T,
        (∀ call, fifo.parked ++ joining call ((system H A T).step fifo call).1 =
          ((system H A T).step fifo call).1.released ++
            ((system H A T).step fifo call).2.parked) ∧
        ∀ handle value,
          (fifo.trySend value).1.completed = (fifo.send handle value).1.completed := by
  have hstart : (Channel.new capacity : Channel H A T) = toChannel (new capacity) := by
    simp [Channel.new, toChannel, new]
  rw [hstart]
  exact ⟨system_simulates.run (new capacity) calls,
    fun fifo => ⟨fifo.parked_step, fifo.trySend_completed⟩⟩

end Fifo

end Tang
