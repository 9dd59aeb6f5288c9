import Tang.Channel.Backpressure

/-! # The operators of a channel

`ch << v` and `ch >> x` are coroutines of type `task<bool>`. `initial_suspend`
never suspends and the body makes one attempt, so the coroutine is at its final
suspension when the call returns. The result is in the promise; the conversion
to `bool` asks whether the coroutine is still running.
-/

namespace Tang

open Effect

variable {H A T : Type}

/-- A `task<bool>`: whether `handle` is not null, `handle.done()`, and
`promise.result`. The bodies below throw nothing, so the promise holds no
exception. -/
structure BoolTask where
  handle : Bool
  done : Bool
  result : Option Bool
  deriving DecidableEq

namespace BoolTask

/-- `co_return success` in a body that never suspended: `return_value`, then
`final_suspend`. -/
def coReturn (success : Bool) : BoolTask where
  handle := true
  done := true
  result := some success

/-- `await_ready()`. -/
def awaitReady (task : BoolTask) : Bool :=
  !task.handle || task.done

/-- `await_resume()`; `none` stands for the exception on a null handle. -/
def awaitResume (task : BoolTask) : Option Bool :=
  if task.handle then task.result else none

/-- `operator bool()`. -/
def toBool (task : BoolTask) : Bool :=
  task.handle && !task.done

@[simp] theorem coReturn_toBool (success : Bool) : (coReturn success).toBool = false := rfl

end BoolTask

namespace Channel

/-- The body the operators share: `while (!attempt) co_return false;` and then
`co_return true`. -/
def attempt (out : Outcome H A T (Bool × Option T)) : Outcome H A T (BoolTask × Option T) :=
  if out.result.1 then ⟨(.coReturn true, out.result.2), out.channel, out.effects⟩
  else ⟨(.coReturn false, out.result.2), out.channel, out.effects⟩

/-- `operator<<(const T& value)`. -/
def shiftLeft (channel : Channel H A T) (value : T) : Outcome H A T (BoolTask × Option T) :=
  attempt (channel.trySend value)

/-- `operator<<(T&& value)`. -/
def shiftLeftMove (channel : Channel H A T) (value : T) :
    Outcome H A T (BoolTask × Option T) :=
  attempt (channel.trySendMove value)

/-- `operator>>(T& value)`. -/
def shiftRight (channel : Channel H A T) (reader : A) (old : Option T) :
    Outcome H A T (BoolTask × Option T) :=
  attempt (channel.tryRecv reader old)

/-- A send can complete at once. -/
def SendReady (channel : Channel H A T) : Prop :=
  channel.closed = false ∧
    (channel.recvWaiters ≠ [] ∨ channel.buffer.length < channel.capacity)

/-- A receive can complete at once. -/
def RecvReady (channel : Channel H A T) : Prop :=
  channel.buffer ≠ [] ∨ channel.closed = false ∧ channel.sendWaiters ≠ []

instance (channel : Channel H A T) : Decidable channel.SendReady :=
  inferInstanceAs (Decidable (_ ∧ (¬ (channel.recvWaiters = []) ∨ _)))

section Ready

variable (channel : Channel H A T)

theorem attempt_eq (out : Outcome H A T (Bool × Option T)) :
    attempt out = ⟨(.coReturn out.result.1, out.result.2), out.channel, out.effects⟩ := by
  unfold attempt
  split
  next hsuccess => rw [hsuccess]
  next hfailed => rw [Bool.eq_false_iff.mpr hfailed]

theorem trySendWith_ready (value : T) (used : Option T) :
    (channel.trySendWith value used).result.1 = true ↔ channel.SendReady := by
  rcases channel.trySendWith_cases value used with
    ⟨hcases, hout⟩ | ⟨waiter, rest, hopen, hwaiters, hout⟩ | ⟨hopen, hwaiters, hroom, hout⟩
  · rcases hcases with hclosed | ⟨hwaiters, hfull⟩
    · simp [hout, SendReady, hclosed]
    · simp [hout, SendReady, hwaiters, hfull]
  · simp [hout, SendReady, hopen, hwaiters]
  · simp [hout, SendReady, hopen, hroom]

theorem tryRecv_ready (reader : A) (old : Option T) :
    (channel.tryRecv reader old).result.1 = true ↔ channel.RecvReady := by
  rcases channel.tryRecv_cases reader old with
    ⟨front, buffer, _, _, hbuffer, _, hout⟩ | ⟨front, buffer, hbuffer, _, hout⟩ |
      ⟨waiter, rest, hopen, _, hwaiters, hout⟩ | ⟨hempty, hcases, hout⟩
  · simp [hout, RecvReady, hbuffer]
  · simp [hout, RecvReady, hbuffer]
  · simp [hout, RecvReady, hopen, hwaiters]
  · rcases hcases with hclosed | hnone
    · simp [hout, RecvReady, hempty, hclosed]
    · simp [hout, RecvReady, hempty, hnone]

/-- A send attempt takes and accepts the value exactly when it returns true. -/
theorem trySendWith_accepts (value : T) (used : Option T) :
    value ∈ accepts (channel.trySendWith value used).effects ↔ channel.SendReady := by
  rw [← channel.trySendWith_ready value used]
  rcases channel.trySendWith_cases value used with
    ⟨_, hout⟩ | ⟨waiter, rest, _, _, hout⟩ | ⟨_, _, _, hout⟩ <;> simp [hout]

/-- A receive attempt assigns a value exactly when it returns true. -/
theorem tryRecv_delivers (reader : A) (old : Option T) :
    (∃ value, (reader, value) ∈ delivers (channel.tryRecv reader old).effects) ↔
      channel.RecvReady := by
  rw [← channel.tryRecv_ready reader old]
  rcases channel.tryRecv_cases reader old with
    ⟨front, buffer, _, _, _, _, hout⟩ | ⟨front, buffer, _, _, hout⟩ |
      ⟨waiter, rest, _, _, _, hout⟩ | ⟨_, _, hout⟩ <;> simp [hout]

end Ready

/-! ## The loop `while (ch >> x)` -/

/-- What a loop did: the values its bodies ran with, the values its calls took
from the channel, and the channel it left. -/
structure LoopTrace (H A T : Type) where
  bodies : List T
  received : List T
  final : Channel H A T
  deriving DecidableEq

/-- `while (ch >> x) body(x);` by one coroutine alone, for so many calls at most. -/
def whileRecv (reader : A) : Nat → Channel H A T → Option T → Option (LoopTrace H A T)
  | 0, _, _ => none
  | calls + 1, channel, old =>
      let out := channel.shiftRight reader old
      let received := (delivers out.effects).map Prod.snd
      if out.result.1.toBool then
        (whileRecv reader calls out.channel out.result.2).map fun trace =>
          ⟨out.result.2.toList ++ trace.bodies, received ++ trace.received, trace.final⟩
      else some ⟨[], received, out.channel⟩

/-- The values successive receives would get. Once `buffer_` is empty, a closed
channel gives nothing, whoever is still parked on it. -/
def held (channel : Channel H A T) : Nat :=
  if channel.closed && channel.buffer.isEmpty then 0
  else channel.buffer.length + channel.sendWaiters.length

/-- The loop ends after one body for each value held, and loses none. -/
def LoopExact (channel : Channel H A T) (reader : A) (old : Option T) : Prop :=
  ∃ calls trace, whileRecv reader calls channel old = some trace ∧
    trace.bodies.length = channel.held ∧ trace.bodies = trace.received

section Loop

variable (channel : Channel H A T)

theorem held_eq_zero_iff : channel.held = 0 ↔ ¬ channel.RecvReady := by
  unfold held RecvReady
  split
  next hclosed =>
    simp only [Bool.and_eq_true, List.isEmpty_iff] at hclosed
    simp [hclosed.1, hclosed.2]
  next hopen =>
    simp only [Bool.and_eq_true, List.isEmpty_iff, not_and] at hopen
    simp only [Nat.add_eq_zero_iff, List.length_eq_zero_iff, not_or, not_and, not_not]
    refine ⟨fun hnone => ⟨hnone.1, fun _ => hnone.2⟩, fun hnone => ⟨hnone.1, ?_⟩⟩
    cases hclosed : channel.closed with
    | true => exact absurd hnone.1 (hopen hclosed)
    | false => exact hnone.2 hclosed

/-- The conversion is false after any call, so the loop makes one call and runs
no body. -/
theorem whileRecv_eq (reader : A) (calls : Nat) (old : Option T) :
    whileRecv reader (calls + 1) channel old =
      some ⟨[], (delivers (channel.tryRecv reader old).effects).map Prod.snd,
        (channel.tryRecv reader old).channel⟩ := by
  simp [whileRecv, shiftRight, attempt_eq]

theorem loopExact_iff (reader : A) (old : Option T) :
    channel.LoopExact reader old ↔ channel.held = 0 := by
  constructor
  · rintro ⟨calls, trace, htrace, hbodies, _⟩
    cases calls with
    | zero => cases htrace
    | succ calls =>
        rw [whileRecv_eq] at htrace
        cases htrace
        exact hbodies.symm
  · intro hheld
    refine ⟨1, _, channel.whileRecv_eq reader 0 old, hheld.symm, ?_⟩
    have hfailed : (channel.tryRecv reader old).result.1 = false := by
      rw [← Bool.not_eq_true, tryRecv_ready]
      exact channel.held_eq_zero_iff.mp hheld
    rw [channel.failed_attempt_keeps.2.2 reader old hfailed]
    rfl

end Loop

/-- The conversion of the returned task tells whether the call did something
exactly when it did nothing, and the loop is exact exactly when the channel
holds nothing: the conversion is false after every call. -/
theorem conversion_iff (channel : Channel H A T) :
    (∀ value : T, ((channel.shiftLeft value).result.1.toBool = true ↔
        value ∈ accepts (channel.shiftLeft value).effects) ↔ ¬ channel.SendReady) ∧
      (∀ value : T, ((channel.shiftLeftMove value).result.1.toBool = true ↔
        value ∈ accepts (channel.shiftLeftMove value).effects) ↔ ¬ channel.SendReady) ∧
      (∀ (reader : A) (old : Option T),
        ((channel.shiftRight reader old).result.1.toBool = true ↔
          ∃ value, (reader, value) ∈ delivers (channel.shiftRight reader old).effects) ↔
            ¬ channel.RecvReady) ∧
      ∀ (reader : A) (old : Option T), channel.LoopExact reader old ↔ channel.held = 0 := by
  refine ⟨fun value => ?_, fun value => ?_, fun reader old => ?_, channel.loopExact_iff⟩
  · simp only [shiftLeft, attempt_eq, BoolTask.coReturn_toBool, Bool.false_eq_true, false_iff]
    exact not_congr (channel.trySendWith_accepts value _)
  · simp only [shiftLeftMove, attempt_eq, BoolTask.coReturn_toBool, Bool.false_eq_true,
      false_iff]
    exact not_congr (channel.trySendWith_accepts value _)
  · simp only [shiftRight, attempt_eq, BoolTask.coReturn_toBool, Bool.false_eq_true, false_iff]
    exact not_congr (channel.tryRecv_delivers reader old)

/-- A call takes the only value of a channel and converts to false, and the loop
drops that value without running its body. -/
theorem dropped_value_run :
    let channel : Channel Nat Nat Nat := { (new 1 : Channel Nat Nat Nat) with buffer := [7] }
    ¬ ((channel.shiftRight 0 none).result.1.toBool = true ↔
        ∃ value, (0, value) ∈ delivers (channel.shiftRight 0 none).effects) ∧
      whileRecv 0 1 channel none = some ⟨[], [7], new 1⟩ ∧ ¬ channel.LoopExact 0 none := by
  refine ⟨fun hiff => ?_, by decide, fun hexact => ?_⟩
  · exact absurd (hiff.mpr ⟨7, by decide⟩) (by decide)
  · exact absurd ((loopExact_iff _ 0 none).mp hexact) (by decide)

end Channel

/-! ## Operators among other operations -/

namespace Operators

open Foundation Interleaving

variable {Op V : Type}

/-- A step of an awaiter, an attempt or a `close`, or `co_await` on an operator. -/
inductive Action (Op V : Type)
  | plain (action : Interleaving.Action Op V)
  /-- `co_await (ch << value)` with an lvalue. -/
  | shiftLeft (op : Op) (value : V)
  /-- `co_await (ch << std::move(value))`. -/
  | shiftLeftMove (op : Op) (value : V)
  /-- `co_await (ch >> x)`. -/
  | shiftRight (op : Op)
  deriving DecidableEq

/-- `co_await` on the returned task: it does not suspend when the task is ready,
and returns its result. -/
def awaited (out : Outcome Op Op (Item Op V) (BoolTask × Option (Item Op V))) :
    Option (Outcome Op Op (Item Op V) (Bool × Option (Item Op V))) :=
  if out.result.1.awaitReady then
    out.result.1.awaitResume.map fun success => ⟨(success, out.result.2), out.channel, out.effects⟩
  else none

/-- The attempt an operator makes. -/
def Action.attempt : Action Op V → Interleaving.Action Op V
  | .plain action => action
  | .shiftLeft op value => .trySend op value
  | .shiftLeftMove op value => .trySendMove op value
  | .shiftRight op => .tryRecv op

/-- The operation a step belongs to. -/
def actor : Interleaving.Action Op V → Op
  | .trySend op _ | .trySendMove op _ | .tryRecv op | .sendReady op _ | .sendSuspend op => op
  | .recvReady op | .recvSuspend op | .closeExchange op | .closeFlush op => op

variable [DecidableEq Op]

def step (state : State Op V) : Action Op V → Option (State Op V)
  | .plain action => Interleaving.step state action
  | .shiftLeft op value =>
      match state.phase op with
      | .fresh => (awaited (state.channel.shiftLeft ⟨op, value⟩)).map (state.sendReturns op value)
      | _ => none
  | .shiftLeftMove op value =>
      match state.phase op with
      | .fresh =>
          (awaited (state.channel.shiftLeftMove ⟨op, value⟩)).map (state.sendReturns op value)
      | _ => none
  | .shiftRight op =>
      match state.phase op with
      | .fresh => (awaited (state.channel.shiftRight op none)).map (state.recvReturns op)
      | _ => none

/-- Operators and awaiters of any number of parties on one channel. -/
def machine (Op V : Type) [DecidableEq Op] (capacity : Nat) :
    Machine (State Op V) (Action Op V) where
  start := initial capacity
  step := step

omit [DecidableEq Op] in
/-- Awaiting an operator gives the answer of its attempt at once. -/
theorem awaited_attempt (out : Outcome Op Op (Item Op V) (Bool × Option (Item Op V))) :
    awaited (Channel.attempt out) = some out := by
  rw [Channel.attempt_eq]
  rfl

/-- An operator is the attempt it makes. -/
theorem step_eq (state : State Op V) (action : Action Op V) :
    step state action = Interleaving.step state action.attempt := by
  cases action with
  | plain action => rfl
  | shiftLeft op value => simp only [step, Channel.shiftLeft, awaited_attempt]; rfl
  | shiftLeftMove op value => simp only [step, Channel.shiftLeftMove, awaited_attempt]; rfl
  | shiftRight op => simp only [step, Channel.shiftRight, awaited_attempt]; rfl

theorem reachable_plain {capacity : Nat} {state : State Op V}
    (hstate : (machine Op V capacity).Reachable state) :
    (Interleaving.machine Op V capacity).Reachable state := by
  induction hstate with
  | start => exact .start
  | step action _ hstep ih => exact ih.step action.attempt ((step_eq _ action).symm.trans hstep)

/-! ### How the two kinds of operation end -/

/-- What a send of the operation returned. -/
def sent? (op : Op) : Event Op V → Option Bool
  | .sendReturned other success => if other = op then some success else none
  | _ => none

/-- How a send ended: what the call returned, or, for a parked sender that was
scheduled, whether its value was accepted. -/
def sendEnding (state : State Op V) (op : Op) : Option Bool :=
  if op ∈ schedules (effects state.log) then
    some ((accepts (effects state.log)).any fun item => item.op = op)
  else state.log.findSome? (sent? op)

/-- How a receive ended. -/
def recvEnding (state : State Op V) (op : Op) : Option Bool :=
  (answers state.log).findSome? fun answer =>
    if answer.1 = op then some answer.2 else none

/-- Started in the same state and followed by the same steps of the other
operations, an operator and an awaiter leave the same channel and end alike.
The awaiter takes its second step at any time, or not yet. -/
def Agrees (capacity : Nat) (ending : State Op V → Op → Option Bool) (state : State Op V)
    (op : Op) (operator awaiter : Action Op V) : Prop :=
  ∀ later final other,
    (machine Op V capacity).exec state
      (operator :: later.filter fun action => actor action.attempt ≠ op) = some final →
    (machine Op V capacity).exec state (awaiter :: later) = some other →
    final.channel = other.channel ∧ ending final op = ending other op

/-- A value sent with an operator on an open channel enters `buffer_` or goes to
a receiver. -/
def LosesNothing (state : State Op V) (action : Action Op V) (next : State Op V) : Prop :=
  ∀ op value, action = .shiftLeft op value ∨ action = .shiftLeftMove op value →
    state.channel.closed = false → ⟨op, value⟩ ∈ accepts (effects next.log)

/-- A send operator on an open channel meets a parked receiver or room in
`buffer_`. -/
def OperatesReady (state : State Op V) : Action Op V → Prop
  | .shiftLeft _ _ | .shiftLeftMove _ _ =>
      state.channel.closed = false → state.channel.SendReady
  | .plain _ | .shiftRight _ => True

/-! ### Agreement -/

section Agreement

variable {capacity : Nat} {state next final : State Op V}

theorem moves_of_attempt {action : Interleaving.Action Op V}
    (hstep : Interleaving.step state action = some next) : Moves state action next :=
  moves_of_step (show (Interleaving.machine Op V 0).step state action = some next from hstep)

/-- A step is taken by an operation that is not over, and changes the phase of
no other. -/
theorem step_phase {action : Interleaving.Action Op V}
    (hstep : Interleaving.step state action = some next) :
    (state.phase (actor action)).finished = false ∧
      ∃ phase, next.phase = Function.update state.phase (actor action) phase := by
  cases moves_of_attempt hstep with
  | send _ op value used haction hphase =>
      have hactor : actor action = op := by rcases haction with rfl | rfl | rfl <;> rfl
      rw [hactor]
      exact ⟨by simp [hphase], _, rfl⟩
  | sendFails op value hphase _ => exact ⟨by simp [actor, hphase], _, rfl⟩
  | recv _ op haction hphase =>
      have hactor : actor action = op := by rcases haction with rfl | rfl <;> rfl
      rw [hactor]
      exact ⟨by simp [hphase], _, rfl⟩
  | recvFails op hphase _ _ => exact ⟨by simp [actor, hphase], _, rfl⟩
  | sendSuspend op value hphase => exact ⟨by simp [actor, hphase], _, rfl⟩
  | recvSuspend op hphase => exact ⟨by simp [actor, hphase], _, rfl⟩
  | exchange op hphase _ => exact ⟨by simp [actor, hphase], _, rfl⟩
  | exchangeClosed op hphase _ => exact ⟨by simp [actor, hphase], _, rfl⟩
  | flush op hphase => exact ⟨by simp [actor, hphase], _, rfl⟩

/-- An operation that is over takes no step of a run. -/
theorem not_actor_of_finished {op : Op} {later : List (Action Op V)}
    (hfinished : (state.phase op).finished = true)
    (hfinal : (machine Op V capacity).exec state later = some final) :
    ∀ action ∈ later, actor action.attempt ≠ op := by
  induction later generalizing state with
  | nil => exact List.forall_mem_nil _
  | cons action rest ih =>
      obtain ⟨next, hnext, hrest⟩ := Option.bind_eq_some_iff.mp hfinal
      obtain ⟨hactive, phase, hphase⟩ := step_phase ((step_eq state action).symm.trans hnext)
      have hne : actor action.attempt ≠ op := by
        intro heq
        rw [heq] at hactive
        exact Bool.false_ne_true (hactive.symm.trans hfinished)
      refine List.forall_mem_cons.mpr ⟨hne, ih ?_ hrest⟩
      rwa [hphase, Function.update_of_ne hne.symm]

/-- When both first steps lead to the same state and the operation is over, the
two runs are one. -/
theorem Agrees.of_same {ending : State Op V → Op → Option Bool} {op : Op}
    {operator awaiter : Action Op V} (hoperator : step state operator = some next)
    (hawaiter : step state awaiter = some next) (hfinished : (next.phase op).finished = true) :
    Agrees capacity ending state op operator awaiter := by
  intro later final other hfinal hother
  obtain ⟨first, hfirst, hrest⟩ := Option.bind_eq_some_iff.mp hfinal
  obtain ⟨second, hsecond, hlater⟩ := Option.bind_eq_some_iff.mp hother
  obtain rfl := Option.some.inj (hoperator.symm.trans hfirst)
  obtain rfl := Option.some.inj (hawaiter.symm.trans hsecond)
  have hothers := not_actor_of_finished hfinished hlater
  rw [List.filter_eq_self.mpr (by simpa using hothers), hlater] at hrest
  obtain rfl := Option.some.inj hrest
  exact ⟨rfl, rfl⟩

/-- An operation that has not begun has no ending. -/
theorem endings_of_fresh (hstate : (machine Op V capacity).Reachable state) {op : Op}
    (hfresh : state.phase op = .fresh) :
    sendEnding state op = none ∧ recvEnding state op = none ∧
      op ∉ schedules (effects state.log) := by
  classical
  have hplain := reachable_plain hstate
  have hapart : SendersApart state :=
    hplain.invariant (initial_sendersApart capacity) fun _ _ _ hapart hstep =>
      (moves_of_step hstep).sendersApart hapart
  have hanswered : AnsweredOnce state :=
    hplain.invariant ⟨fun _ => rfl, fun _ => Nat.zero_le _⟩ fun _ _ _ hanswered hstep =>
      (moves_of_step hstep).answeredOnce hanswered
  have hscheduled : op ∉ schedules (effects state.log) := by
    intro hmem
    have hsuspended := hapart.suspended_of_scheduled hmem
    rw [hfresh] at hsuspended
    cases hsuspended
  refine ⟨?_, ?_, hscheduled⟩
  · rw [sendEnding, if_neg hscheduled, List.findSome?_eq_none_iff]
    intro event hevent
    unfold sent?
    split
    next other success =>
      rw [if_neg]
      rintro rfl
      have hreturned := hapart.returned _ _ hevent
      rw [hfresh] at hreturned
      cases hreturned
    next => rfl
  · rw [recvEnding, List.findSome?_eq_none_iff]
    rintro ⟨other, success⟩ hanswer
    rw [if_neg]
    rintro rfl
    have honce := hanswered.once other
    have hcount := List.count_pos_iff.mpr hanswer
    simp only [hfresh, Phase.finished, Bool.false_eq_true, if_false, receipts] at honce
    cases success <;> omega

/-- What an operation that had not begun adds to the history is its ending. -/
theorem sendEnding_append {op : Op} {events : List (Event Op V)}
    (hnone : sendEnding state op = none) (hlog : next.log = state.log ++ events)
    (heffects : effects events = []) : sendEnding next op = events.findSome? (sent? op) := by
  have hsame : effects next.log = effects state.log := by simp [hlog, heffects]
  unfold sendEnding at hnone ⊢
  rw [hsame]
  split at hnone
  next => cases hnone
  next hscheduled =>
    rw [if_neg hscheduled, hlog, List.findSome?_append, hnone]
    rfl

omit [DecidableEq Op] in
/-- A send attempt that cannot complete does nothing. -/
theorem trySendWith_of_not_ready {channel : Channel Op Op (Item Op V)}
    (hnot : ¬ channel.SendReady) (item : Item Op V) (used : Option (Item Op V)) :
    channel.trySendWith item used = ⟨(false, some item), channel, []⟩ := by
  have hfailed := mt (channel.trySendWith_ready item used).mp hnot
  rcases channel.trySendWith_cases item used with
    ⟨_, hout⟩ | ⟨waiter, rest, _, _, hout⟩ | ⟨_, _, _, hout⟩
  · exact hout
  · simp [hout] at hfailed
  · simp [hout] at hfailed

/-- What the caller's variable holds afterwards does not matter to the others. -/
theorem sendReturns_used (op : Op) (value : V) (used other : Option (Item Op V)) :
    state.sendReturns op value (state.channel.trySendWith ⟨op, value⟩ used) =
      state.sendReturns op value (state.channel.trySendWith ⟨op, value⟩ other) := by
  unfold Channel.trySendWith
  split
  next => rfl
  next =>
    split
    next => rfl
    next => split <;> rfl

theorem exec_singleton {action : Action Op V} (hstep : step state action = some next) :
    (machine Op V capacity).exec state [action] = some next := by
  change (step state action).bind some = some next
  rw [hstep]
  rfl

/-- A send operator agrees with the awaiter exactly where the send can complete
at once. -/
theorem send_agrees_iff (hstate : (machine Op V capacity).Reachable state) {op : Op} {value : V}
    (hfresh : state.phase op = .fresh) {operator : Action Op V}
    (hoperator : operator = .shiftLeft op value ∨ operator = .shiftLeftMove op value) :
    Agrees capacity sendEnding state op operator (.plain (.sendReady op value)) ↔
      state.channel.SendReady := by
  obtain ⟨used, hstep⟩ : ∃ used, step state operator = some (state.sendReturns op value
      (state.channel.trySendWith ⟨op, value⟩ used)) := by
    rcases hoperator with rfl | rfl
    · exact ⟨some ⟨op, value⟩, by
        simp [step_eq, Action.attempt, Interleaving.step, hfresh, Channel.trySend]⟩
    · exact ⟨none, by
        simp [step_eq, Action.attempt, Interleaving.step, hfresh, Channel.trySendMove]⟩
  have hready : step state (.plain (.sendReady op value)) =
      some (state.sendAwaits op value (state.channel.trySend ⟨op, value⟩)) := by
    simp [step, Interleaving.step, hfresh]
  obtain ⟨hnone, _, _⟩ := endings_of_fresh hstate hfresh
  constructor
  · intro hagrees
    by_contra hnot
    -- The operator has ended with false, the awaiter has not ended.
    obtain ⟨_, hend⟩ := hagrees [] _ _ (exec_singleton hstep) (exec_singleton hready)
    rw [State.sendAwaits, Channel.trySend, trySendWith_of_not_ready hnot,
      trySendWith_of_not_ready hnot, if_neg Bool.false_ne_true,
      sendEnding_append hnone rfl (by simp), sendEnding_append hnone rfl (by simp)] at hend
    simp [sent?] at hend
  · intro hcan
    have hsuccess := (state.channel.trySendWith_ready ⟨op, value⟩ (some ⟨op, value⟩)).mpr hcan
    refine Agrees.of_same hstep ?_ (by simp)
    rw [hready, State.sendAwaits, Channel.trySend, if_pos hsuccess]
    exact congrArg some (sendReturns_used op value _ _)

/-- A receive operator agrees with the awaiter exactly where the receive can
complete at once. -/
theorem recv_agrees_iff (hstate : (machine Op V capacity).Reachable state) {op : Op}
    (hfresh : state.phase op = .fresh) :
    Agrees capacity recvEnding state op (.shiftRight op) (.plain (.recvReady op)) ↔
      state.channel.RecvReady := by
  have hstep : step state (.shiftRight op) =
      some (state.recvReturns op (state.channel.tryRecv op none)) := by
    simp [step_eq, Action.attempt, Interleaving.step, hfresh]
  have hready : step state (.plain (.recvReady op)) =
      some (state.recvAwaits op (state.channel.tryRecv op none)) := by
    simp [step, Interleaving.step, hfresh]
  obtain ⟨_, hnone, _⟩ := endings_of_fresh hstate hfresh
  constructor
  · intro hagrees
    by_contra hnot
    obtain ⟨_, hend⟩ := hagrees [] _ _ (exec_singleton hstep) (exec_singleton hready)
    have hfailed : (state.channel.tryRecv op none).result.1 = false := by
      rwa [← Bool.not_eq_true, Channel.tryRecv_ready]
    rw [State.recvAwaits, state.channel.failed_attempt_keeps.2.2 op none hfailed,
      if_neg Bool.false_ne_true] at hend
    simp only [recvEnding] at hnone
    simp [recvEnding, State.recvReturns, hnone] at hend
  · intro hcan
    have hsuccess := (state.channel.tryRecv_ready op none).mpr hcan
    refine Agrees.of_same hstep ?_ (by simp)
    rw [hready, State.recvAwaits, if_pos hsuccess]

/-- An operator call loses nothing exactly if it can complete at once. -/
theorem losesNothing_iff [DecidableEq V] (hledger : Ledger state) {action : Action Op V}
    (hnext : step state action = some next) :
    LosesNothing state action next ↔ OperatesReady state action := by
  have hexact : ∀ {op : Op} {value : V} {used : Option (Item Op V)}, state.phase op = .fresh →
      (⟨op, value⟩ ∈ accepts (effects (state.sendReturns op value
        (state.channel.trySendWith ⟨op, value⟩ used)).log) ↔ state.channel.SendReady) := by
    intro op value used hfresh
    rw [State.sendReturns_effects, accepts, collect_append, List.mem_append,
      state.channel.trySendWith_accepts]
    exact or_iff_right (hledger.not_accepted_of_active (by simp [hfresh]))
  rw [step_eq] at hnext
  cases action with
  | plain action => simp [LosesNothing, OperatesReady]
  | shiftRight op => simp [LosesNothing, OperatesReady]
  | shiftLeft op value =>
      simp only [Action.attempt, Interleaving.step] at hnext
      split at hnext
      next hfresh =>
        cases hnext
        refine ⟨fun hkeeps hopen => (hexact hfresh).mp (hkeeps op value (Or.inl rfl) hopen), ?_⟩
        intro hready other sent heq hopen
        obtain ⟨rfl, rfl⟩ : op = other ∧ value = sent := by simpa using heq
        exact (hexact hfresh).mpr (hready hopen)
      next => cases hnext
  | shiftLeftMove op value =>
      simp only [Action.attempt, Interleaving.step] at hnext
      split at hnext
      next hfresh =>
        cases hnext
        refine ⟨fun hkeeps hopen => (hexact hfresh).mp (hkeeps op value (Or.inr rfl) hopen), ?_⟩
        intro hready other sent heq hopen
        obtain ⟨rfl, rfl⟩ : op = other ∧ value = sent := by simpa using heq
        exact (hexact hfresh).mpr (hready hopen)
      next => cases hnext

end Agreement

/-- In every reachable state with an open channel, an operator and the awaiter
of the same operation agree in all later runs exactly if the operation can
complete at once; and the send operators of a run lose no value exactly if each
of them can. -/
theorem operators_agree_iff (capacity : Nat) :
    (∀ state : State Op V, (machine Op V capacity).Reachable state → ∀ op value,
      state.phase op = .fresh → state.channel.closed = false →
        (Agrees capacity sendEnding state op (.shiftLeft op value)
            (.plain (.sendReady op value)) ↔ state.channel.SendReady) ∧
          (Agrees capacity sendEnding state op (.shiftLeftMove op value)
            (.plain (.sendReady op value)) ↔ state.channel.SendReady) ∧
          (Agrees capacity recvEnding state op (.shiftRight op) (.plain (.recvReady op)) ↔
            state.channel.RecvReady)) ∧
      ∀ actions, (machine Op V capacity).Throughout LosesNothing (initial capacity) actions ↔
        (machine Op V capacity).Meets OperatesReady (initial capacity) actions := by
  classical
  constructor
  · intro state hstate op value hfresh _
    exact ⟨send_agrees_iff hstate hfresh (Or.inl rfl), send_agrees_iff hstate hfresh (Or.inr rfl),
      recv_agrees_iff hstate hfresh⟩
  · intro actions
    refine Machine.throughout_iff_meets Ledger ?_ ?_ (initial_ledger capacity)
    · intro state action next hledger hnext
      exact (moves_of_attempt ((step_eq state action).symm.trans hnext)).ledger hledger
    · intro state action next hledger hnext
      exact losesNothing_iff hledger hnext

/-- On an open channel without a buffer an operator returns false at once and
its value is gone, while the awaiter waits for a receiver. -/
theorem unbuffered_send_run :
    (((machine Nat Nat 0).exec (initial 0) [.shiftLeft 0 7]).map fun final =>
        (sendEnding final 0, final.channel)) = some (some false, .new 0) ∧
      (((machine Nat Nat 0).exec (initial 0)
        [.plain (.sendReady 0 7), .plain (.sendSuspend 0), .plain (.tryRecv 1)]).map fun final =>
          (sendEnding final 0, received final)) = some (some true, [⟨0, 7⟩]) ∧
      ¬ Agrees 0 sendEnding (initial 0 : State Nat Nat) 0 (.shiftLeft 0 7)
        (.plain (.sendReady 0 7)) := by
  refine ⟨by decide, by decide, fun hagrees => ?_⟩
  obtain ⟨_, hend⟩ := hagrees [] _ _ (exec_singleton rfl) (exec_singleton rfl)
  exact absurd hend (by decide)

/-- The equivalences at a buffered channel that has just been created. -/
theorem operators_agree_buffered :
    (Agrees 1 sendEnding (initial 1 : State Nat Nat) 0 (.shiftLeft 0 7)
        (.plain (.sendReady 0 7)) ↔ (initial 1 : State Nat Nat).channel.SendReady) ∧
      (Agrees 1 recvEnding (initial 1 : State Nat Nat) 0 (.shiftRight 0)
        (.plain (.recvReady 0)) ↔ (initial 1 : State Nat Nat).channel.RecvReady) := by
  obtain ⟨hsend, _, hrecv⟩ := (operators_agree_iff 1).1 (initial 1 : State Nat Nat) .start 0 7
    rfl rfl
  exact ⟨hsend, hrecv⟩

end Operators

end Tang
