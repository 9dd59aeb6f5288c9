import Tang.Foundation.Machine
import Tang.Foundation.Linearizability
import Tang.Channel.Drain

/-! # The calls that never wait

`try_send`, `try_recv`, `is_empty`, `is_full`, `is_closed` and `close`, called
by any number of threads, at a finer grain: `mutex_` is taken and released
explicitly, and each read of `closed_` and the exchange of `close` are steps of
their own. A `try_send` that read `closed_` as false goes on to append its value
even if the channel is closed meanwhile.
-/

namespace Tang.NonBlocking

open Foundation

variable {Id V : Type}

inductive Call (V : Type)
  | trySend (value : V)
  | trySendMove (value : V)
  | tryRecv
  | isEmpty
  | isFull
  | isClosed
  | close
  deriving DecidableEq

inductive Reply (V : Type)
  | sent (success : Bool)
  /-- The value received, or none when `try_recv` returned false. -/
  | received (value : Option V)
  | flag (value : Bool)
  | closed
  deriving DecidableEq

/-! ## The sequential queue -/

/-- A first-in first-out queue with a closed flag. -/
structure Queue (V : Type) where
  items : List V
  closed : Bool
  deriving DecidableEq

/-- What the calls do one at a time. A send fails exactly if the queue is closed
or full, a receive exactly if it is empty; closing keeps the contents. -/
def boundedQueue (V : Type) (capacity : Nat) : Transducer (Queue V) (Call V) (Reply V) where
  step queue
    | .trySend value | .trySendMove value =>
        if queue.closed ∨ capacity ≤ queue.items.length then (.sent false, queue)
        else (.sent true, { queue with items := queue.items ++ [value] })
    | .tryRecv =>
        match queue.items with
        | [] => (.received none, queue)
        | front :: items => (.received (some front), { queue with items := items })
    | .isEmpty => (.flag queue.items.isEmpty, queue)
    | .isFull => (.flag (capacity ≤ queue.items.length), queue)
    | .isClosed => (.flag queue.closed, queue)
    | .close => (.closed, { queue with closed := true })

/-! ## The interleavings of the calls -/

/-- Where a call stands. -/
inductive Pc (V : Type)
  | idle
  /-- Before the first step of the body. -/
  | called (call : Call V)
  /-- Holding `mutex_`. -/
  | locked (call : Call V)
  /-- Holding `mutex_`, after the read of `closed_`. -/
  | read (call : Call V) (closed : Bool)
  /-- `close` after an exchange that found the channel open. -/
  | exchanged
  /-- `close` holding `mutex_`. -/
  | flushing
  | answering (reply : Reply V)
  | returned
  deriving DecidableEq

structure State (Id V : Type) where
  channel : Channel Id Id V
  /-- Who holds `mutex_`. -/
  owner : Option Id
  pc : Id → Pc V
  history : List (CallEvent Id (Call V) (Reply V))

inductive Action (Id V : Type)
  | call (id : Id) (call : Call V)
  | advance (id : Id)
  deriving DecidableEq

def initial (capacity : Nat) : State Id V where
  channel := .new capacity
  owner := none
  pc _ := .idle
  history := []

/-- The channel as a body sees it that has read `closed_` before. -/
def seen (channel : Channel Id Id V) (closed : Bool) : Channel Id Id V :=
  { channel with closed := closed }

variable [DecidableEq Id]

def State.move (state : State Id V) (id : Id) (pc : Pc V) : State Id V :=
  { state with pc := Function.update state.pc id pc }

/-- Take `mutex_`, which has to be free. -/
def State.acquire (state : State Id V) (id : Id) (pc : Pc V) : Option (State Id V) :=
  match state.owner with
  | none => some { state.move id pc with owner := some id }
  | some _ => none

/-- Leave the body with a reply, and `mutex_` with it. -/
def State.release (state : State Id V) (id : Id) (channel : Channel Id Id V) (reply : Reply V) :
    State Id V :=
  { state.move id (.answering reply) with channel := channel, owner := none }

/-- The first step of a body. -/
def State.enter (state : State Id V) (id : Id) (call : Call V) : Option (State Id V) :=
  match call with
  | .trySend _ | .trySendMove _ | .tryRecv | .isEmpty => state.acquire id (.locked call)
  | .isFull =>
      if state.channel.capacity = 0 then some (state.move id (.answering (.flag true)))
      else state.acquire id (.locked call)
  | .isClosed => some (state.move id (.answering (.flag state.channel.isClosed)))
  | .close =>
      let out := state.channel.closeExchange
      if out.result then some (state.move id (.answering .closed))
      else some { state.move id .exchanged with channel := out.channel }

/-- A step of a body that holds `mutex_`, up to the read of `closed_`. -/
def State.inspect (state : State Id V) (id : Id) (call : Call V) : Option (State Id V) :=
  match call with
  | .trySend _ | .trySendMove _ | .tryRecv =>
      some (state.move id (.read call state.channel.closed))
  | .isEmpty => some (state.release id state.channel (.flag state.channel.isEmpty))
  | .isFull => some (state.release id state.channel (.flag state.channel.isFull))
  | .isClosed | .close => none

/-- The rest of an attempt that has read `closed_`. -/
def State.attempt (state : State Id V) (id : Id) (call : Call V) (closed : Bool) :
    Option (State Id V) :=
  let channel := seen state.channel closed
  match call with
  | .trySend value =>
      let out := channel.trySend value
      some (state.release id (seen out.channel state.channel.closed) (.sent out.result.1))
  | .trySendMove value =>
      let out := channel.trySendMove value
      some (state.release id (seen out.channel state.channel.closed) (.sent out.result.1))
  | .tryRecv =>
      let out := channel.tryRecv id none
      some (state.release id (seen out.channel state.channel.closed) (.received out.result.2))
  | .isEmpty | .isFull | .isClosed | .close => none

/-- One step of one call. -/
def step (state : State Id V) : Action Id V → Option (State Id V)
  | .call id call =>
      match state.pc id with
      | .idle => some { state.move id (.called call) with
          history := state.history ++ [.called id call] }
      | _ => none
  | .advance id =>
      match state.pc id with
      | .called call => state.enter id call
      | .locked call => state.inspect id call
      | .read call closed => state.attempt id call closed
      | .exchanged => state.acquire id .flushing
      | .flushing => some (state.release id state.channel.closeFlush.channel .closed)
      | .answering reply => some { state.move id .returned with
          history := state.history ++ [.returned id reply] }
      | .idle | .returned => none

/-- The interleavings of any number of calls on a channel of the given capacity. -/
def machine (Id V : Type) [DecidableEq Id] (capacity : Nat) :
    Machine (State Id V) (Action Id V) where
  start := initial capacity
  step := step

/-! ## Inversion of a step -/

/-- The calls that read `closed_` under the mutex. -/
def Call.attempts : Call V → Bool
  | .trySend _ | .trySendMove _ | .tryRecv => true
  | .isEmpty | .isFull | .isClosed | .close => false

/-- The value a call sends. -/
def Call.sends? : Call V → Option V
  | .trySend value | .trySendMove value => some value
  | .tryRecv | .isEmpty | .isFull | .isClosed | .close => none

/-- What a step can be. -/
inductive Moves (state : State Id V) : Action Id V → State Id V → Prop
  | call (id : Id) (call : Call V) (hpc : state.pc id = .idle) :
      Moves state (.call id call) { state.move id (.called call) with
        history := state.history ++ [.called id call] }
  | acquire (id : Id) (call : Call V) (hpc : state.pc id = .called call)
      (hfree : state.owner = none) :
      Moves state (.advance id) { state.move id (.locked call) with owner := some id }
  | peek (id : Id) (call : Call V) (reply : Reply V) (hpc : state.pc id = .called call)
      (hreply : call = .isFull ∧ state.channel.capacity = 0 ∧ reply = .flag true ∨
        call = .isClosed ∧ reply = .flag state.channel.closed ∨
        call = .close ∧ state.channel.closed = true ∧ reply = .closed) :
      Moves state (.advance id) (state.move id (.answering reply))
  | exchange (id : Id) (hpc : state.pc id = .called .close)
      (hopen : state.channel.closed = false) :
      Moves state (.advance id)
        { state.move id .exchanged with channel := seen state.channel true }
  | read (id : Id) (call : Call V) (hpc : state.pc id = .locked call)
      (hattempts : call.attempts = true) :
      Moves state (.advance id) (state.move id (.read call state.channel.closed))
  | inspect (id : Id) (call : Call V) (reply : Reply V) (hpc : state.pc id = .locked call)
      (hreply : call = .isEmpty ∧ reply = .flag state.channel.isEmpty ∨
        call = .isFull ∧ reply = .flag state.channel.isFull) :
      Moves state (.advance id) (state.release id state.channel reply)
  | send (id : Id) (call : Call V) (value : V) (used : Option V) (closed : Bool)
      (hpc : state.pc id = .read call closed) (hsends : call.sends? = some value) :
      Moves state (.advance id) (state.release id
        (seen ((seen state.channel closed).trySendWith value used).channel state.channel.closed)
        (.sent ((seen state.channel closed).trySendWith value used).result.1))
  | recv (id : Id) (closed : Bool) (hpc : state.pc id = .read .tryRecv closed) :
      Moves state (.advance id) (state.release id
        (seen ((seen state.channel closed).tryRecv id none).channel state.channel.closed)
        (.received ((seen state.channel closed).tryRecv id none).result.2))
  | lockFlush (id : Id) (hpc : state.pc id = .exchanged) (hfree : state.owner = none) :
      Moves state (.advance id) { state.move id .flushing with owner := some id }
  | flush (id : Id) (hpc : state.pc id = .flushing) :
      Moves state (.advance id) (state.release id state.channel.closeFlush.channel .closed)
  | answer (id : Id) (reply : Reply V) (hpc : state.pc id = .answering reply) :
      Moves state (.advance id) { state.move id .returned with
        history := state.history ++ [.returned id reply] }

theorem State.acquire_eq_some {state next : State Id V} {id : Id} {pc : Pc V}
    (hacquire : state.acquire id pc = some next) :
    state.owner = none ∧ next = { state.move id pc with owner := some id } := by
  unfold State.acquire at hacquire
  split at hacquire
  next hfree => exact ⟨hfree, (Option.some.inj hacquire).symm⟩
  next => cases hacquire

theorem moves_of_enter {state next : State Id V} {id : Id} {call : Call V}
    (hpc : state.pc id = .called call) (henter : state.enter id call = some next) :
    Moves state (.advance id) next := by
  have hlocks : ∀ other, other = call → state.acquire id (.locked other) = some next →
      Moves state (.advance id) next := by
    rintro other rfl hacquire
    obtain ⟨hfree, rfl⟩ := State.acquire_eq_some hacquire
    exact .acquire id other hpc hfree
  cases call with
  | trySend | trySendMove | tryRecv | isEmpty => exact hlocks _ rfl henter
  | isFull =>
      simp only [State.enter] at henter
      split at henter
      next hzero =>
        cases henter
        exact .peek id .isFull _ hpc (Or.inl ⟨rfl, hzero, rfl⟩)
      next => exact hlocks _ rfl henter
  | isClosed =>
      cases henter
      exact .peek id .isClosed _ hpc (Or.inr (Or.inl ⟨rfl, rfl⟩))
  | close =>
      cases hclosed : state.channel.closed with
      | true =>
          simp only [State.enter, Channel.closeExchange, hclosed, if_true] at henter
          cases henter
          exact .peek id .close _ hpc (Or.inr (Or.inr ⟨rfl, hclosed, rfl⟩))
      | false =>
          simp only [State.enter, Channel.closeExchange, hclosed, Bool.false_eq_true,
            if_false] at henter
          cases henter
          exact .exchange id hpc hclosed

theorem moves_of_step {capacity : Nat} {state next : State Id V} {action : Action Id V}
    (hstep : (machine Id V capacity).step state action = some next) :
    Moves state action next := by
  change step state action = some next at hstep
  cases action with
  | call id call =>
      simp only [step] at hstep
      split at hstep
      next hpc =>
        cases hstep
        exact .call id call hpc
      next => cases hstep
  | advance id =>
      simp only [step] at hstep
      split at hstep
      next call hpc => exact moves_of_enter hpc hstep
      next call hpc =>
        cases call with
        | trySend | trySendMove | tryRecv =>
            cases hstep
            exact .read id _ hpc rfl
        | isEmpty =>
            cases hstep
            exact .inspect id .isEmpty _ hpc (Or.inl ⟨rfl, rfl⟩)
        | isFull =>
            cases hstep
            exact .inspect id .isFull _ hpc (Or.inr ⟨rfl, rfl⟩)
        | isClosed | close => cases hstep
      next call closed hpc =>
        cases call with
        | trySend value =>
            cases hstep
            exact .send id (.trySend value) value _ closed hpc rfl
        | trySendMove value =>
            cases hstep
            exact .send id (.trySendMove value) value _ closed hpc rfl
        | tryRecv =>
            cases hstep
            exact .recv id closed hpc
        | isEmpty | isFull | isClosed | close => cases hstep
      next hpc =>
        obtain ⟨hfree, rfl⟩ := State.acquire_eq_some hstep
        exact .lockFlush id hpc hfree
      next hpc =>
        cases hstep
        exact .flush id hpc
      next reply hpc =>
        cases hstep
        exact .answer id reply hpc
      next => cases hstep
      next => cases hstep

end Tang.NonBlocking
