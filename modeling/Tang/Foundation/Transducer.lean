import Mathlib.Data.List.Basic

/-! # Systems that answer calls one at a time

A transducer answers every call and moves on. Two transducers over the same
calls are related by a map of states and a map of replies; when one step
respects the maps, so does every sequence of calls.
-/

namespace Foundation

universe uState uCall uReply

/-- A deterministic system with a reply to every call in every state. -/
structure Transducer (State : Type uState) (Call : Type uCall) (Reply : Type uReply) where
  step : State → Call → Reply × State

namespace Transducer

variable {State Abstract : Type uState} {Call : Type uCall} {Reply Answer : Type uReply}

/-- The replies to a sequence of calls, and the state after it. -/
def run (system : Transducer State Call Reply) : State → List Call → List Reply × State
  | state, [] => ([], state)
  | state, call :: rest =>
      let (reply, next) := system.step state call
      let (replies, final) := system.run next rest
      (reply :: replies, final)

/-- The concrete step on a represented state is the abstract step. -/
def Simulates (concrete : Transducer State Call Reply)
    (abstract : Transducer Abstract Call Answer) (represent : Abstract → State)
    (render : Answer → Reply) : Prop :=
  ∀ state call, concrete.step (represent state) call =
    Prod.map render represent (abstract.step state call)

/-- A simulation of one call is a simulation of every sequence of calls. -/
theorem Simulates.run {concrete : Transducer State Call Reply}
    {abstract : Transducer Abstract Call Answer} {represent : Abstract → State}
    {render : Answer → Reply} (hsimulates : concrete.Simulates abstract represent render)
    (state : Abstract) (calls : List Call) :
    concrete.run (represent state) calls =
      Prod.map (List.map render) represent (abstract.run state calls) := by
  induction calls generalizing state with
  | nil => rfl
  | cons call rest ih =>
      have hstep := hsimulates state call
      simp only [Transducer.run, hstep, Prod.map_fst, Prod.map_snd, ih]
      rfl

/-- The same system with its replies shown to a caller in another form. -/
def render (system : Transducer State Call Answer) (form : Answer → Reply) :
    Transducer State Call Reply where
  step state call := (form (system.step state call).1, (system.step state call).2)

end Transducer

end Foundation
