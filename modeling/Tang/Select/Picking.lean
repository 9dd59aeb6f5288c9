import Mathlib.Data.Fin.Basic
import Mathlib.Data.List.FinRange
import Tang.Foundation.Machine
import Tang.Select.Cases

/-! # `select` and `co_select` among other parties

One caller goes through its cases in a shuffled order, and other parties
operate on the channels between any two of its steps: between the two reads of
`try_ready`, between `try_ready` and `try_execute`, and between rounds. The
result of `try_execute` is ignored wherever it is called.
-/

namespace Tang.Select

open Foundation Effect

variable {Chan H A : Type} {T : Chan → Type} {n : Nat}

/-- A critical section of another party. -/
inductive Foreign (H A T : Type)
  | trySend (value : T)
  | trySendMove (value : T)
  | tryRecv (reader : A) (old : Option T)
  | registerSendWaiter (handle : H) (value : T)
  | registerRecvWaiter (handle : H) (awaiter : A)
  | closeExchange
  | closeFlush

namespace Foreign

variable {V : Type}

/-- The channel a critical section leaves, and whom it schedules. -/
def run (channel : Channel H A V) : Foreign H A V → Channel H A V × List H
  | .trySend value =>
      let out := channel.trySend value
      (out.channel, schedules out.effects)
  | .trySendMove value =>
      let out := channel.trySendMove value
      (out.channel, schedules out.effects)
  | .tryRecv reader old =>
      let out := channel.tryRecv reader old
      (out.channel, schedules out.effects)
  | .registerSendWaiter handle value =>
      let out := channel.registerSendWaiter handle value
      (out.channel, schedules out.effects)
  | .registerRecvWaiter handle awaiter =>
      let out := channel.registerRecvWaiter handle awaiter
      (out.channel, schedules out.effects)
  | .closeExchange => (channel.closeExchange.channel, [])
  | .closeFlush =>
      let out := channel.closeFlush
      (out.channel, schedules out.effects)

/-- The handle a registration parks. -/
def handle? : Foreign H A V → Option H
  | .registerSendWaiter handle _ | .registerRecvWaiter handle _ => some handle
  | .trySend _ | .trySendMove _ | .tryRecv _ _ | .closeExchange | .closeFlush => none

end Foreign

/-- The passes over the cases: the first pass and the rounds of `select`, and
those of `await_ready` and `await_suspend`. -/
inductive Pass
  | immediate
  | round
  | ready
  | suspend
  deriving DecidableEq

/-- Where the caller stands. -/
inductive Phase (n : Nat)
  /-- Before `std::shuffle`. -/
  | shuffling (pass : Pass)
  /-- About to call `try_ready` of the first of the remaining cases. -/
  | probing (pass : Pass) (rest : List (Fin n))
  /-- In `try_ready`, before the read of `closed_`. -/
  | rereading (pass : Pass) (case : Fin n) (rest : List (Fin n))
  /-- Before the loop of `select` that looks for a default case. -/
  | searching
  /-- Before the channel operation of `try_execute`. -/
  | executing (case : Fin n)
  /-- Before the callback of `try_execute`. -/
  | calling (case : Fin n)
  /-- `await_suspend` returned without having picked a case. -/
  | suspended
  /-- The call is over, or the coroutine continues after its `co_await`. -/
  | returned
  deriving DecidableEq

/-- The order `std::shuffle` leaves the cases in. -/
def Shuffle (n : Nat) := { order : List (Fin n) // order.Perm (List.finRange n) }

structure State (Chan H A : Type) (T : Chan → Type) (n : Nat) where
  channels : Channels Chan H A T
  phase : Phase n
  order : List (Fin n)
  /-- The calls of `try_execute` and what they returned. -/
  executed : List (Fin n × Bool)
  /-- The callbacks that ran. -/
  callbacks : List (Fin n)
  /-- The handles passed to `runtime::schedule`. -/
  scheduled : List H

inductive Action (Chan H A : Type) (T : Chan → Type) (n : Nat)
  | shuffle (order : Shuffle n)
  | advance
  | foreign (chan : Chan) (call : Foreign H A (T chan))

def initial (channels : Channels Chan H A T) (pass : Pass) : State Chan H A T n where
  channels := channels
  phase := .shuffling pass
  order := []
  executed := []
  callbacks := []
  scheduled := []

/-- What follows a pass in which no case was ready. `register_waiter` of every
case stands between `await_ready` and the pass of `await_suspend`; it stores
the handle in the case and leaves the channels alone. -/
def exhausted : Pass → Phase n
  | .immediate => .searching
  | .round => .shuffling .round
  | .ready => .shuffling .suspend
  | .suspend => .suspended

variable [DecidableEq Chan] (cases : Fin n → SelectCase Chan A T)

/-- The next step of the caller. -/
def advance (state : State Chan H A T n) : Option (State Chan H A T n) :=
  match state.phase with
  | .shuffling _ => none
  | .probing pass [] => some { state with phase := exhausted pass }
  | .probing pass (case :: rest) =>
      if (cases case).available state.channels then some { state with phase := .executing case }
      else some { state with phase := .rereading pass case rest }
  | .rereading pass case rest =>
      if (cases case).closed state.channels then some { state with phase := .executing case }
      else some { state with phase := .probing pass rest }
  | .searching =>
      match state.order.find? fun case => (cases case).isDefault with
      | some case => some { state with phase := .executing case }
      | none => some { state with phase := .shuffling .round }
  | .executing case =>
      let attempt := (cases case).tryExecute state.channels
      some { state with
        channels := attempt.channels
        phase := if attempt.result && (cases case).hasCallback then .calling case else .returned
        executed := state.executed ++ [(case, attempt.result)]
        scheduled := state.scheduled ++ attempt.scheduled }
  | .calling case =>
      some { state with phase := .returned, callbacks := state.callbacks ++ [case] }
  | .suspended | .returned => none

variable [DecidableEq H]

/-- A step of the caller or of another party. Other parties do not park the
caller's own handle. -/
def step (self : Option H) (state : State Chan H A T n) :
    Action Chan H A T n → Option (State Chan H A T n)
  | .shuffle order =>
      match state.phase with
      | .shuffling pass =>
          some { state with phase := .probing pass order.1, order := order.1 }
      | _ => none
  | .advance => advance cases state
  | .foreign chan call =>
      if call.handle?.isSome ∧ call.handle? = self then none
      else
        let out := call.run (state.channels chan)
        some { state with
          channels := Function.update state.channels chan out.1
          scheduled := state.scheduled ++ out.2 }

/-- The caller in one of its two forms, by its first pass. -/
def machine (self : Option H) (channels : Channels Chan H A T) (pass : Pass) :
    Machine (State Chan H A T n) (Action Chan H A T n) where
  start := initial channels pass
  step := step cases self

/-- `select(cases...)`, called by a coroutine or by a plain thread. -/
abbrev select (self : Option H) (channels : Channels Chan H A T) :=
  machine cases self channels .immediate

/-- `co_await co_select(cases...)`. -/
abbrev coSelect (self : H) (channels : Channels Chan H A T) :=
  machine cases (some self) channels .ready

/-! ## Inversion of a step -/

/-- The caller has gone past the channel operation of its case. -/
def Phase.picked : Phase n → Bool
  | .calling _ | .returned => true
  | .shuffling _ | .probing _ _ | .rereading _ _ _ | .searching | .executing _ => false
  | .suspended => false

/-- What a step can be. The steps that look for a case change nothing but the
place where the caller stands. -/
inductive Moves (self : Option H) (state : State Chan H A T n) :
    Action Chan H A T n → State Chan H A T n → Prop
  | shuffle (pass : Pass) (order : Shuffle n) (hphase : state.phase = .shuffling pass) :
      Moves self state (.shuffle order)
        { state with phase := .probing pass order.1, order := order.1 }
  | look (target : Phase n) (hsource : state.phase.picked = false)
      (hidle : ∀ case, state.phase ≠ .executing case) (htarget : target.picked = false)
      (hsuspends : target = .suspended ↔ state.phase = .probing .suspend []) :
      Moves self state .advance { state with phase := target }
  | execute (case : Fin n) (hphase : state.phase = .executing case) :
      Moves self state .advance { state with
        channels := ((cases case).tryExecute state.channels).channels
        phase := if ((cases case).tryExecute state.channels).result && (cases case).hasCallback
          then .calling case else .returned
        executed := state.executed ++ [(case, ((cases case).tryExecute state.channels).result)]
        scheduled := state.scheduled ++ ((cases case).tryExecute state.channels).scheduled }
  | call (case : Fin n) (hphase : state.phase = .calling case) :
      Moves self state .advance
        { state with phase := .returned, callbacks := state.callbacks ++ [case] }
  | foreign (chan : Chan) (call : Foreign H A (T chan))
      (hself : ∀ handle, call.handle? = some handle → self ≠ some handle) :
      Moves self state (.foreign chan call) { state with
        channels := Function.update state.channels chan (call.run (state.channels chan)).1
        scheduled := state.scheduled ++ (call.run (state.channels chan)).2 }

omit [DecidableEq H] in
theorem moves_of_advance {self : Option H} {state next : State Chan H A T n}
    (hstep : advance cases state = some next) : Moves cases self state .advance next := by
  unfold advance at hstep
  split at hstep
  next => cases hstep
  next pass hphase =>
    cases hstep
    refine .look _ (by simp [hphase, Phase.picked]) (by simp [hphase]) ?_ ?_
    · cases pass <;> rfl
    · cases pass <;> simp [exhausted, hphase]
  next pass case rest hphase =>
    split at hstep
    next =>
      cases hstep
      exact .look _ (by simp [hphase, Phase.picked]) (by simp [hphase]) rfl (by simp [hphase])
    next =>
      cases hstep
      exact .look _ (by simp [hphase, Phase.picked]) (by simp [hphase]) rfl (by simp [hphase])
  next pass case rest hphase =>
    split at hstep
    next =>
      cases hstep
      exact .look _ (by simp [hphase, Phase.picked]) (by simp [hphase]) rfl (by simp [hphase])
    next =>
      cases hstep
      exact .look _ (by simp [hphase, Phase.picked]) (by simp [hphase]) rfl (by simp [hphase])
  next hphase =>
    split at hstep
    next case _ =>
      cases hstep
      exact .look _ (by simp [hphase, Phase.picked]) (by simp [hphase]) rfl (by simp [hphase])
    next =>
      cases hstep
      exact .look _ (by simp [hphase, Phase.picked]) (by simp [hphase]) rfl (by simp [hphase])
  next case hphase =>
    cases hstep
    exact .execute case hphase
  next case hphase =>
    cases hstep
    exact .call case hphase
  next => cases hstep
  next => cases hstep

theorem moves_of_step {self : Option H} {channels : Channels Chan H A T} {pass : Pass}
    {state next : State Chan H A T n} {action : Action Chan H A T n}
    (hstep : (machine cases self channels pass).step state action = some next) :
    Moves cases self state action next := by
  change step cases self state action = some next at hstep
  cases action with
  | shuffle order =>
      simp only [step] at hstep
      split at hstep
      next pass hphase =>
        cases hstep
        exact .shuffle pass order hphase
      next => cases hstep
  | advance => exact moves_of_advance cases hstep
  | foreign chan call =>
      simp only [step] at hstep
      split at hstep
      next => cases hstep
      next hself =>
        cases hstep
        refine .foreign chan call fun handle hhandle heq => hself ?_
        simp [hhandle, heq]

end Tang.Select
