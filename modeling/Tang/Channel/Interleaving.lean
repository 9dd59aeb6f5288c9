import Tang.Foundation.Machine
import Tang.Channel.Laws

/-! # Any number of parties on one channel

An operation is one `try_send`, `try_recv`, `co_await ch.send(v)`,
`co_await ch.recv(x)` or `close()`. Every critical section is one step, and the
two steps of an awaiter (`await_ready`, then `await_suspend`) and of `close`
(the exchange, then the flush) may be separated by steps of other operations.
Values are tagged with the operation that sends them, so that each occurrence
of a value can be followed; the channel never looks at a tag.
-/

namespace Tang

/-- One occurrence of a value: the send operation and what it sends. -/
structure Item (Op V : Type) where
  op : Op
  value : V
  deriving DecidableEq

namespace Interleaving

open Foundation

variable {Op V : Type}

/-- How far an operation has come. -/
inductive Phase (V : Type)
  | fresh
  /-- `await_ready` of a send returned false; the awaiter still holds the value. -/
  | sendTried (value : V)
  /-- `await_ready` of a receive returned false. -/
  | recvTried
  /-- `close` performed the exchange and found the channel open. -/
  | closing
  /-- `await_suspend` returned. -/
  | suspended
  /-- The call returned, or the `co_await` completed without suspending. -/
  | returned
  deriving DecidableEq

/-- What the steps leave in the history. -/
inductive Event (Op V : Type)
  | beganSend (op : Op) (value : V)
  | beganRecv (op : Op)
  | beganClose (op : Op)
  | registered (op : Op)
  | effect (emitted : Effect Op Op (Item Op V))
  | sendReturned (op : Op) (success : Bool)
  | recvReturned (op : Op) (success : Bool)
  | closeReturned (op : Op)
  deriving DecidableEq

structure State (Op V : Type) where
  channel : Channel Op Op (Item Op V)
  phase : Op → Phase V
  log : List (Event Op V)

inductive Action (Op V : Type)
  | trySend (op : Op) (value : V)
  | trySendMove (op : Op) (value : V)
  | tryRecv (op : Op)
  | sendReady (op : Op) (value : V)
  | sendSuspend (op : Op)
  | recvReady (op : Op)
  | recvSuspend (op : Op)
  | closeExchange (op : Op)
  | closeFlush (op : Op)
  deriving DecidableEq

@[simp] def Event.effect? : Event Op V → Option (Effect Op Op (Item Op V))
  | .effect emitted => some emitted
  | .beganSend _ _ | .beganRecv _ | .beganClose _ | .registered _ => none
  | .sendReturned _ _ | .recvReturned _ _ | .closeReturned _ => none

/-- The effects recorded in a history. -/
def effects (log : List (Event Op V)) : List (Effect Op Op (Item Op V)) :=
  log.filterMap Event.effect?

@[simp] theorem effects_nil : effects ([] : List (Event Op V)) = [] := rfl

@[simp] theorem effects_cons (event : Event Op V) (log : List (Event Op V)) :
    effects (event :: log) = event.effect?.toList ++ effects log := by
  cases hevent : event.effect? <;> simp only [effects, List.filterMap_cons, hevent] <;> rfl

@[simp] theorem effects_append (first second : List (Event Op V)) :
    effects (first ++ second) = effects first ++ effects second :=
  List.filterMap_append

@[simp] theorem effects_map_effect (list : List (Effect Op Op (Item Op V))) :
    effects (list.map .effect) = list := by
  induction list with
  | nil => rfl
  | cons effect rest ih => simp [ih]

def initial (capacity : Nat) : State Op V where
  channel := .new capacity
  phase _ := .fresh
  log := []

variable [DecidableEq Op]

/-- One operation moves to a phase, leaves a channel and adds to the history. -/
def State.advance (state : State Op V) (op : Op) (phase : Phase V)
    (channel : Channel Op Op (Item Op V)) (events : List (Event Op V)) : State Op V where
  channel := channel
  phase := Function.update state.phase op phase
  log := state.log ++ events

/-- A call of one of the two `try_send` overloads, given its outcome. -/
def State.sendReturns (state : State Op V) (op : Op) (value : V)
    (out : Outcome Op Op (Item Op V) (Bool × Option (Item Op V))) : State Op V :=
  state.advance op .returned out.channel
    (.beganSend op value :: out.effects.map .effect ++ [.sendReturned op out.result.1])

/-- A call of `try_recv`, given its outcome. -/
def State.recvReturns (state : State Op V) (op : Op)
    (out : Outcome Op Op (Item Op V) (Bool × Option (Item Op V))) : State Op V :=
  state.advance op .returned out.channel
    (.beganRecv op :: out.effects.map .effect ++ [.recvReturned op out.result.1])

/-- `channel_send_awaiter::await_ready`, given the outcome of `try_send`. -/
def State.sendAwaits (state : State Op V) (op : Op) (value : V)
    (out : Outcome Op Op (Item Op V) (Bool × Option (Item Op V))) : State Op V :=
  if out.result.1 then state.sendReturns op value out
  else state.advance op (.sendTried value) out.channel
    (.beganSend op value :: out.effects.map .effect)

/-- `channel_recv_awaiter::await_ready`, given the outcome of `try_recv`. -/
def State.recvAwaits (state : State Op V) (op : Op)
    (out : Outcome Op Op (Item Op V) (Bool × Option (Item Op V))) : State Op V :=
  if out.result.1 then state.recvReturns op out
  else state.advance op .recvTried out.channel (.beganRecv op :: out.effects.map .effect)

/-- `await_suspend`, given the outcome of the registration it calls. -/
def State.suspends (state : State Op V) (op : Op)
    (out : Outcome Op Op (Item Op V) Unit) : State Op V :=
  state.advance op .suspended out.channel (.registered op :: out.effects.map .effect)

/-- The first step of `close`: a call that finds the channel closed returns. -/
def State.exchanges (state : State Op V) (op : Op)
    (out : Outcome Op Op (Item Op V) Bool) : State Op V :=
  if out.result then
    state.advance op .returned out.channel [.beganClose op, .closeReturned op]
  else state.advance op .closing out.channel [.beganClose op]

/-- The second step of `close`. -/
def State.flushes (state : State Op V) (op : Op)
    (out : Outcome Op Op (Item Op V) Unit) : State Op V :=
  state.advance op .returned out.channel (out.effects.map .effect ++ [.closeReturned op])

/-- One step of one operation. -/
def step (state : State Op V) : Action Op V → Option (State Op V)
  | .trySend op value =>
      match state.phase op with
      | .fresh => some (state.sendReturns op value (state.channel.trySend ⟨op, value⟩))
      | _ => none
  | .trySendMove op value =>
      match state.phase op with
      | .fresh => some (state.sendReturns op value (state.channel.trySendMove ⟨op, value⟩))
      | _ => none
  | .tryRecv op =>
      match state.phase op with
      | .fresh => some (state.recvReturns op (state.channel.tryRecv op none))
      | _ => none
  | .sendReady op value =>
      match state.phase op with
      | .fresh => some (state.sendAwaits op value (state.channel.trySend ⟨op, value⟩))
      | _ => none
  | .sendSuspend op =>
      match state.phase op with
      | .sendTried value =>
          some (state.suspends op (state.channel.registerSendWaiter op ⟨op, value⟩))
      | _ => none
  | .recvReady op =>
      match state.phase op with
      | .fresh => some (state.recvAwaits op (state.channel.tryRecv op none))
      | _ => none
  | .recvSuspend op =>
      match state.phase op with
      | .recvTried => some (state.suspends op (state.channel.registerRecvWaiter op op))
      | _ => none
  | .closeExchange op =>
      match state.phase op with
      | .fresh => some (state.exchanges op state.channel.closeExchange)
      | _ => none
  | .closeFlush op =>
      match state.phase op with
      | .closing => some (state.flushes op state.channel.closeFlush)
      | _ => none

/-- The interleavings of all operations on a channel of the given capacity. -/
def machine (Op V : Type) [DecidableEq Op] (capacity : Nat) :
    Machine (State Op V) (Action Op V) where
  start := initial capacity
  step := step

/-! ## Inversion of a step -/

/-- What a step can be. The two overloads of `try_send` share a case, and so do
an awaiter whose attempt succeeds and a bare call that succeeds. -/
inductive Moves (state : State Op V) : Action Op V → State Op V → Prop
  | send (action : Action Op V) (op : Op) (value : V) (used : Option (Item Op V))
      (haction : action = .trySend op value ∨ action = .trySendMove op value ∨
        action = .sendReady op value)
      (hphase : state.phase op = .fresh) :
      Moves state action
        (state.sendReturns op value (state.channel.trySendWith ⟨op, value⟩ used))
  | sendFails (op : Op) (value : V) (hphase : state.phase op = .fresh)
      (hclosed : state.channel.closed = true ∨ state.channel.recvWaiters = [] ∧
        state.channel.capacity ≤ state.channel.buffer.length) :
      Moves state (.sendReady op value)
        (state.advance op (.sendTried value) state.channel [.beganSend op value])
  | recv (action : Action Op V) (op : Op)
      (haction : action = .tryRecv op ∨ action = .recvReady op)
      (hphase : state.phase op = .fresh) :
      Moves state action (state.recvReturns op (state.channel.tryRecv op none))
  | recvFails (op : Op) (hphase : state.phase op = .fresh)
      (hempty : state.channel.buffer = [])
      (hclosed : state.channel.closed = true ∨ state.channel.sendWaiters = []) :
      Moves state (.recvReady op) (state.advance op .recvTried state.channel [.beganRecv op])
  | sendSuspend (op : Op) (value : V) (hphase : state.phase op = .sendTried value) :
      Moves state (.sendSuspend op)
        (state.suspends op (state.channel.registerSendWaiter op ⟨op, value⟩))
  | recvSuspend (op : Op) (hphase : state.phase op = .recvTried) :
      Moves state (.recvSuspend op)
        (state.suspends op (state.channel.registerRecvWaiter op op))
  | exchange (op : Op) (hphase : state.phase op = .fresh)
      (hclosed : state.channel.closed = false) :
      Moves state (.closeExchange op)
        (state.advance op .closing { state.channel with closed := true } [.beganClose op])
  | exchangeClosed (op : Op) (hphase : state.phase op = .fresh)
      (hclosed : state.channel.closed = true) :
      Moves state (.closeExchange op)
        (state.advance op .returned state.channel [.beganClose op, .closeReturned op])
  | flush (op : Op) (hphase : state.phase op = .closing) :
      Moves state (.closeFlush op) (state.flushes op state.channel.closeFlush)

theorem moves_of_step {capacity : Nat} {state next : State Op V} {action : Action Op V}
    (hstep : (machine Op V capacity).step state action = some next) :
    Moves state action next := by
  change step state action = some next at hstep
  cases action with
  | trySend op value =>
      simp only [step] at hstep
      split at hstep
      next hphase => cases hstep; exact .send _ op value _ (Or.inl rfl) hphase
      next => cases hstep
  | trySendMove op value =>
      simp only [step] at hstep
      split at hstep
      next hphase => cases hstep; exact .send _ op value _ (Or.inr (Or.inl rfl)) hphase
      next => cases hstep
  | tryRecv op =>
      simp only [step] at hstep
      split at hstep
      next hphase => cases hstep; exact .recv _ op (Or.inl rfl) hphase
      next => cases hstep
  | sendReady op value =>
      simp only [step] at hstep
      split at hstep
      next hphase =>
        cases hstep
        unfold State.sendAwaits
        split
        next => exact .send _ op value _ (Or.inr (Or.inr rfl)) hphase
        next hfailed =>
          -- Only the refused attempt failed; a refusal leaves the channel as it was.
          rcases state.channel.trySendWith_cases ⟨op, value⟩ (some ⟨op, value⟩) with
            ⟨hclosed, hout⟩ | ⟨waiter, rest, _, _, hout⟩ | ⟨_, _, _, hout⟩
          · rw [Channel.trySend, hout]
            exact .sendFails op value hphase hclosed
          · simp [Channel.trySend, hout] at hfailed
          · simp [Channel.trySend, hout] at hfailed
      next => cases hstep
  | sendSuspend op =>
      simp only [step] at hstep
      split at hstep
      next value hphase => cases hstep; exact .sendSuspend op value hphase
      next => cases hstep
  | recvReady op =>
      simp only [step] at hstep
      split at hstep
      next hphase =>
        cases hstep
        unfold State.recvAwaits
        split
        next => exact .recv _ op (Or.inr rfl) hphase
        next hfailed =>
          rcases state.channel.tryRecv_cases op none with
            ⟨_, _, _, _, _, _, hout⟩ | ⟨_, _, _, _, hout⟩ | ⟨_, _, _, _, _, hout⟩ |
              ⟨hempty, hclosed, hout⟩
          · simp [hout] at hfailed
          · simp [hout] at hfailed
          · simp [hout] at hfailed
          · rw [hout]
            exact .recvFails op hphase hempty hclosed
      next => cases hstep
  | recvSuspend op =>
      simp only [step] at hstep
      split at hstep
      next hphase => cases hstep; exact .recvSuspend op hphase
      next => cases hstep
  | closeExchange op =>
      simp only [step] at hstep
      split at hstep
      next hphase =>
        cases hstep
        cases hclosed : state.channel.closed with
        | true =>
            simp only [State.exchanges, Channel.closeExchange, hclosed, if_true]
            rw [show ({ state.channel with closed := true } : Channel Op Op (Item Op V)) =
              state.channel by rw [← hclosed]]
            exact .exchangeClosed op hphase hclosed
        | false =>
            simp only [State.exchanges, Channel.closeExchange, hclosed]
            exact .exchange op hphase hclosed
      next => cases hstep
  | closeFlush op =>
      simp only [step] at hstep
      split at hstep
      next hphase => cases hstep; exact .flush op hphase
      next => cases hstep

/-! ## What a step leaves behind -/

section Fields

variable {state : State Op V} {op : Op} {value : V}

@[simp] theorem State.advance_channel (phase : Phase V) (channel : Channel Op Op (Item Op V))
    (events : List (Event Op V)) :
    (state.advance op phase channel events).channel = channel := rfl

@[simp] theorem State.advance_phase (phase : Phase V) (channel : Channel Op Op (Item Op V))
    (events : List (Event Op V)) :
    (state.advance op phase channel events).phase = Function.update state.phase op phase := rfl

@[simp] theorem State.advance_log (phase : Phase V) (channel : Channel Op Op (Item Op V))
    (events : List (Event Op V)) :
    (state.advance op phase channel events).log = state.log ++ events := rfl

section Attempts

variable (out : Outcome Op Op (Item Op V) (Bool × Option (Item Op V)))

@[simp] theorem State.sendReturns_channel :
    (state.sendReturns op value out).channel = out.channel := rfl

@[simp] theorem State.sendReturns_phase :
    (state.sendReturns op value out).phase = Function.update state.phase op .returned := rfl

@[simp] theorem State.sendReturns_effects :
    effects (state.sendReturns op value out).log = effects state.log ++ out.effects := by
  simp [State.sendReturns]

@[simp] theorem State.recvReturns_channel :
    (state.recvReturns op out).channel = out.channel := rfl

@[simp] theorem State.recvReturns_phase :
    (state.recvReturns op out).phase = Function.update state.phase op .returned := rfl

@[simp] theorem State.recvReturns_effects :
    effects (state.recvReturns op out).log = effects state.log ++ out.effects := by
  simp [State.recvReturns]

end Attempts

section Calls

variable (out : Outcome Op Op (Item Op V) Unit)

@[simp] theorem State.suspends_channel : (state.suspends op out).channel = out.channel := rfl

@[simp] theorem State.suspends_phase :
    (state.suspends op out).phase = Function.update state.phase op .suspended := rfl

@[simp] theorem State.suspends_effects :
    effects (state.suspends op out).log = effects state.log ++ out.effects := by
  simp [State.suspends]

@[simp] theorem State.flushes_channel : (state.flushes op out).channel = out.channel := rfl

@[simp] theorem State.flushes_phase :
    (state.flushes op out).phase = Function.update state.phase op .returned := rfl

@[simp] theorem State.flushes_effects :
    effects (state.flushes op out).log = effects state.log ++ out.effects := by
  simp [State.flushes]

end Calls

end Fields

/-! ## The channel stays well formed -/

theorem Moves.wellFormed {state next : State Op V} {action : Action Op V}
    (hmoves : Moves state action next) (hwf : state.channel.WellFormed) :
    next.channel.WellFormed := by
  cases hmoves with
  | send _ op value used _ _ => exact hwf.trySendWith ⟨op, value⟩ used
  | sendFails op value _ _ => exact hwf
  | recv _ op _ _ => exact hwf.tryRecv op none
  | recvFails op _ _ _ => exact hwf
  | sendSuspend op value _ => exact hwf.registerSendWaiter op ⟨op, value⟩
  | recvSuspend op _ => exact hwf.registerRecvWaiter op op
  | exchange op _ _ => exact hwf.closeExchange
  | exchangeClosed op _ _ => exact hwf
  | flush op _ => exact hwf.closeFlush

theorem Moves.capacity {state next : State Op V} {action : Action Op V}
    (hmoves : Moves state action next) : next.channel.capacity = state.channel.capacity := by
  cases hmoves <;> simp

/-- A sender and a receiver never wait for each other, and `buffer_` holds no
more than the capacity, nothing at all when the channel is unbuffered. -/
structure Exclusive (capacity : Nat) (channel : Channel Op Op (Item Op V)) : Prop where
  oneSided : channel.sendWaiters = [] ∨ channel.recvWaiters = []
  bounded : channel.buffer.length ≤ capacity
  unbuffered : capacity = 0 → channel.buffer = []

/-- In every interleaving, on a channel of any capacity, at most one of
`send_waiters_` and `recv_waiters_` is occupied and `buffer_` stays within the
capacity. -/
theorem exclusive_along (capacity : Nat) (actions : List (Action Op V)) :
    (machine Op V capacity).Along (fun state => Exclusive capacity state.channel)
      (initial capacity) actions := by
  apply Machine.along_of_invariant fun state =>
    state.channel.WellFormed ∧ state.channel.capacity = capacity
  · rintro state action next ⟨hwf, hcapacity⟩ hstep
    have hmoves := moves_of_step hstep
    exact ⟨hmoves.wellFormed hwf, hmoves.capacity.trans hcapacity⟩
  · rintro state ⟨hwf, rfl⟩
    constructor
    case oneSided => exact hwf.oneSided
    case bounded => exact hwf.bounded
    case unbuffered =>
      intro hunbuffered
      have hbounded := hwf.bounded
      rw [hunbuffered] at hbounded
      exact List.length_eq_zero_iff.mp (Nat.le_zero.mp hbounded)
  · exact ⟨Channel.new_wellFormed capacity, rfl⟩

end Interleaving

end Tang
