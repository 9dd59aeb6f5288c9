import Tang.Foundation.Machine

/-! # History variables

A machine whose state also records what has happened so far. The record never
disables a step and never changes one, so the recording machine has the runs of
the machine it watches.
-/

namespace Foundation

namespace Machine

universe uState uAction uHistory

variable {State : Type uState} {Action : Type uAction} {History : Type uHistory}

/-- The machine that keeps a record of its steps. -/
def recording (machine : Machine State Action) (start : History)
    (record : History → State → Action → State → History) :
    Machine (State × History) Action where
  start := (machine.start, start)
  step watched action := (machine.step watched.1 action).map fun next =>
    (next, record watched.2 watched.1 action next)

variable {machine : Machine State Action} {start : History}
  {record : History → State → Action → State → History}

/-- A step of the recording machine is a step of the machine, put on record. -/
theorem recording_step {watched after : State × History} {action : Action}
    (hstep : (machine.recording start record).step watched action = some after) :
    machine.step watched.1 action = some after.1 ∧
      after.2 = record watched.2 watched.1 action after.1 := by
  obtain ⟨next, hnext, rfl⟩ := Option.map_eq_some_iff.mp hstep
  exact ⟨hnext, rfl⟩

/-- Forgetting the record gives back the run. -/
theorem recording_exec (watched : State × History) (actions : List Action) :
    ((machine.recording start record).exec watched actions).map Prod.fst =
      machine.exec watched.1 actions := by
  induction actions generalizing watched with
  | nil => rfl
  | cons action rest ih =>
      cases hnext : machine.step watched.1 action with
      | none => simp [exec, recording, hnext]
      | some next => simpa [exec, recording, hnext] using ih (next, _)

end Machine

end Foundation
