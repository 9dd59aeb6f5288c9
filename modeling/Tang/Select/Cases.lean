import Mathlib.Logic.Function.Basic
import Tang.Channel.Drain

/-! # The cases of a `select`

A case answers two questions about its channel: `try_ready` whether it could
run now, and `try_execute` by running. `try_ready` is put together from
`is_empty`, `is_full` and `is_closed`, which do not look at the waiter lists,
while `try_execute` is `try_recv` or `try_send`. The channels of a `select` may
carry values of different types.
-/

namespace Tang.Select

open Effect

variable {Chan H A : Type} {T : Chan → Type}

/-- `recv_case<T>`, `send_case<T>` and `default_case_class`. A receive case
names the variable behind `value_ptr_`, or the temporary that stands in for a
null pointer; `callback` says whether `callback_` is set. -/
inductive SelectCase (Chan A : Type) (T : Chan → Type)
  | recv (source : Chan) (reader : A) (callback : Bool)
  | send (target : Chan) (value : T target) (callback : Bool)
  | defaultCase (callback : Bool)

/-- The channels the cases refer to. -/
abbrev Channels (Chan H A : Type) (T : Chan → Type) := (chan : Chan) → Channel H A (T chan)

/-- What `try_execute` returns, the channels it leaves, and whom it schedules. -/
structure Attempt (Chan H A : Type) (T : Chan → Type) where
  result : Bool
  channels : Channels Chan H A T
  scheduled : List H

namespace SelectCase

/-- `type() == select_case_type::default_case`. -/
def isDefault : SelectCase Chan A T → Bool
  | .recv _ _ _ | .send _ _ _ => false
  | .defaultCase _ => true

/-- `callback_` is set. -/
def hasCallback : SelectCase Chan A T → Bool
  | .recv _ _ callback | .send _ _ callback | .defaultCase callback => callback

/-- The channel of a case. -/
def channel? : SelectCase Chan A T → Option Chan
  | .recv source _ _ => some source
  | .send target _ _ => some target
  | .defaultCase _ => none

/-- The first operand of `try_ready`, the one that takes the mutex. -/
def available (case : SelectCase Chan A T) (channels : Channels Chan H A T) : Bool :=
  match case with
  | .recv source _ _ => !(channels source).isEmpty
  | .send target _ _ => !(channels target).isFull
  | .defaultCase _ => true

/-- The second operand of `try_ready`, read when the first one is false. -/
def closed (case : SelectCase Chan A T) (channels : Channels Chan H A T) : Bool :=
  match case with
  | .recv source _ _ => (channels source).isClosed
  | .send target _ _ => (channels target).isClosed
  | .defaultCase _ => false

/-- `try_ready()`. -/
def tryReady (case : SelectCase Chan A T) (channels : Channels Chan H A T) : Bool :=
  case.available channels || case.closed channels

/-- `try_execute()` up to its callback, which runs when it returns true. -/
def tryExecute [DecidableEq Chan] (case : SelectCase Chan A T) (channels : Channels Chan H A T) :
    Attempt Chan H A T :=
  match case with
  | .recv source reader _ =>
      let out := (channels source).tryRecv reader none
      ⟨out.result.1, Function.update channels source out.channel, schedules out.effects⟩
  | .send target value _ =>
      let out := (channels target).trySend value
      ⟨out.result.1, Function.update channels target out.channel, schedules out.effects⟩
  | .defaultCase _ => ⟨true, channels, []⟩

/-- The operation of the case could succeed: there is a value to receive, or
room or a receiver for a value to send. -/
def Executable (case : SelectCase Chan A T) (channels : Channels Chan H A T) : Prop :=
  match case with
  | .recv source _ _ =>
      (channels source).buffer ≠ [] ∨
        (channels source).closed = false ∧ (channels source).sendWaiters ≠ []
  | .send target _ _ =>
      (channels target).closed = false ∧
        ((channels target).recvWaiters ≠ [] ∨
          (channels target).buffer.length < (channels target).capacity)
  | .defaultCase _ => True

instance (case : SelectCase Chan A T) (channels : Channels Chan H A T) :
    Decidable (case.Executable channels) :=
  match case with
  | .recv _ _ _ => inferInstanceAs (Decidable (_ ∨ _))
  | .send _ _ _ => inferInstanceAs (Decidable (_ ∧ _))
  | .defaultCase _ => inferInstanceAs (Decidable True)

/-! ## What `try_execute` does -/

section Execute

variable [DecidableEq Chan] (case : SelectCase Chan A T) (channels : Channels Chan H A T)

/-- `try_execute` succeeds exactly on an executable case. -/
theorem tryExecute_result_iff :
    (case.tryExecute channels).result = true ↔ case.Executable channels := by
  cases case with
  | recv source reader callback =>
      simp only [tryExecute, Executable]
      rcases (channels source).tryRecv_cases reader none with
        ⟨front, buffer, waiter, rest, hbuffer, _, hout⟩ | ⟨front, buffer, hbuffer, _, hout⟩ |
          ⟨waiter, rest, hopen, _, hwaiters, hout⟩ | ⟨hbuffer, hclosed, hout⟩
      · simp [hout, hbuffer]
      · simp [hout, hbuffer]
      · simp [hout, hopen, hwaiters]
      · rcases hclosed with hclosed | hwaiters
        · simp [hout, hbuffer, hclosed]
        · simp [hout, hbuffer, hwaiters]
  | send target value callback =>
      simp only [tryExecute, Executable]
      rcases (channels target).trySendWith_cases value (some value) with
        ⟨hfails, hout⟩ | ⟨waiter, rest, hopen, hwaiters, hout⟩ | ⟨hopen, _, hroom, hout⟩
      · rcases hfails with hclosed | ⟨hwaiters, hfull⟩
        · simp [Channel.trySend, hout, hclosed]
        · simp [Channel.trySend, hout, hwaiters, hfull]
      · simp [Channel.trySend, hout, hopen, hwaiters]
      · simp [Channel.trySend, hout, hopen, hroom]
  | defaultCase callback => simp [tryExecute, Executable]

/-- A `try_execute` that fails leaves everything as it was. -/
theorem tryExecute_of_not_executable (hblocked : ¬ case.Executable channels) :
    case.tryExecute channels = ⟨false, channels, []⟩ := by
  rw [← tryExecute_result_iff, Bool.not_eq_true] at hblocked
  cases case with
  | recv source reader callback =>
      have hkeeps := (channels source).failed_attempt_keeps.2.2 reader none hblocked
      simp [tryExecute, hkeeps]
  | send target value callback =>
      have hkeeps := (channels target).failed_attempt_keeps.1 value hblocked
      simp [tryExecute, hkeeps]
  | defaultCase callback => simp [tryExecute] at hblocked

/-- `try_execute` touches no channel but that of its case. -/
theorem tryExecute_channels_of_ne (chan : Chan) (hother : case.channel? ≠ some chan) :
    (case.tryExecute channels).channels chan = channels chan := by
  cases case with
  | recv source reader callback =>
      exact Function.update_of_ne (fun heq => hother (by rw [heq]; rfl)) _ _
  | send target value callback =>
      exact Function.update_of_ne (fun heq => hother (by rw [heq]; rfl)) _ _
  | defaultCase callback => rfl

/-! ## When `try_ready` tells the truth -/

/-- A receive probes right when the buffer holds a value, or on an open channel
without a parked sender; a send when the channel is open, and has room or no
parked receiver. -/
def ProbesRight : Prop :=
  match case with
  | .recv source _ _ =>
      (channels source).buffer ≠ [] ∨
        (channels source).closed = false ∧ (channels source).sendWaiters = []
  | .send target _ _ =>
      (channels target).closed = false ∧
        ((channels target).recvWaiters = [] ∨
          (channels target).buffer.length < (channels target).capacity)
  | .defaultCase _ => True

omit [DecidableEq Chan] in
/-- What `try_ready` looks at. -/
theorem tryReady_iff : case.tryReady channels = true ↔
    match case with
    | .recv source _ _ => (channels source).buffer ≠ [] ∨ (channels source).closed = true
    | .send target _ _ =>
        (channels target).buffer.length < (channels target).capacity ∨
          (channels target).closed = true
    | .defaultCase _ => True := by
  cases case with
  | recv source reader callback =>
      simp [tryReady, available, closed, Channel.isEmpty, Channel.isClosed]
  | send target value callback =>
      simp only [tryReady, available, closed, Channel.isFull, Channel.isClosed]
      split
      next hzero => simp [hzero]
      next hpositive => simp
  | defaultCase callback => simp [tryReady, available]

/-- In every state of the channels, `try_ready` answers what `try_execute` would
return exactly if the case probes right. -/
theorem tryReady_eq_tryExecute_iff :
    case.tryReady channels = (case.tryExecute channels).result ↔
      case.ProbesRight channels := by
  rw [Bool.eq_iff_iff, tryExecute_result_iff, tryReady_iff]
  cases case with
  | recv source reader callback =>
      simp only [Executable, ProbesRight]
      cases hclosed : (channels source).closed with
      | true => simp
      | false =>
          by_cases hbuffer : (channels source).buffer = []
          · simp [hbuffer]
          · simp [hbuffer]
  | send target value callback =>
      simp only [Executable, ProbesRight]
      cases hclosed : (channels target).closed with
      | true => simp
      | false =>
          by_cases hroom : (channels target).buffer.length < (channels target).capacity
          · simp [hroom]
          · simp [hroom]
  | defaultCase callback => simp [Executable, ProbesRight]

end Execute

/-- One channel of tagged values. -/
abbrev single (channel : Channel Nat Nat (Item Nat Nat)) :
    Channels Unit Nat Nat fun _ => Item Nat Nat :=
  fun _ => channel

/-- On a closed empty channel both kinds of cases look ready and fail; on an
unbuffered channel with a parked sender a receive looks blocked and would
succeed. -/
theorem misjudged_probes :
    (∃ state, (Interleaving.machine Nat Nat 1).Reachable state ∧
      tryReady (.recv () 0 false) (single state.channel) = true ∧
      (tryExecute (.recv () 0 false) (single state.channel)).result = false ∧
      tryReady (.send () ⟨9, 9⟩ false) (single state.channel) = true ∧
      (tryExecute (.send () ⟨9, 9⟩ false) (single state.channel)).result = false) ∧
    ∃ state, (Interleaving.machine Nat Nat 0).Reachable state ∧
      tryReady (.recv () 1 false) (single state.channel) = false ∧
      (tryExecute (.recv () 1 false) (single state.channel)).result = true := by
  constructor
  · exact ⟨_, .exec .start [.closeExchange 0, .closeFlush 0] rfl, rfl, rfl, rfl, rfl⟩
  · exact ⟨_, .exec .start [.sendReady 0 5, .sendSuspend 0] rfl, rfl, rfl⟩

end SelectCase

end Tang.Select
