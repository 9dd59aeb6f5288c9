import Tang.Foundation.Machine

/-! # Simulation between machines

A relation between the states of two machines is a simulation when every step of
the first is matched by a run of the second, of any length, that leads to a
related state. What holds in the reachable states of the second then carries
over to the reachable states of the first.
-/

namespace Foundation

universe uState uAction uAbstract uCommand

namespace Machine

variable {State : Type uState} {Action : Type uAction}
  {Abstract : Type uAbstract} {Command : Type uCommand}

/-- Every step of the concrete machine is a run of the abstract one. -/
def Simulates (concrete : Machine State Action) (abstract : Machine Abstract Command)
    (relation : State → Abstract → Prop) : Prop :=
  ∀ state action next view, relation state view → concrete.step state action = some next →
    ∃ commands after, abstract.exec view commands = some after ∧ relation next after

namespace Simulates

variable {concrete : Machine State Action} {abstract : Machine Abstract Command}
  {relation : State → Abstract → Prop}

/-- Along every run of the concrete machine there is a run of the abstract one
that explains it. -/
theorem along_explained (hsimulates : concrete.Simulates abstract relation) {state : State}
    {view : Abstract} (hrelated : relation state view) {seen : State → Prop}
    (hseen : ∀ state commands after, abstract.exec view commands = some after →
      relation state after → seen state) (actions : List Action) :
    concrete.Along seen state actions := by
  refine Machine.along_of_invariant
    (fun state => ∃ commands after, abstract.exec view commands = some after ∧ relation state after)
    ?_ ?_ ⟨[], view, rfl, hrelated⟩
  · rintro state action next ⟨commands, after, hexec, hafter⟩ hstep
    obtain ⟨more, final, hmore, hfinal⟩ := hsimulates state action next after hafter hstep
    refine ⟨commands ++ more, final, ?_, hfinal⟩
    rw [exec_append, hexec]
    exact hmore
  · rintro state ⟨commands, after, hexec, hafter⟩
    exact hseen state commands after hexec hafter

/-- What an invariant of the abstract machine says, seen through the relation,
holds along every run of the concrete one. -/
theorem along_of_invariant (hsimulates : concrete.Simulates abstract relation)
    (invariant : Abstract → Prop)
    (hpreserved : ∀ view command after, invariant view →
      abstract.step view command = some after → invariant after)
    {seen : State → Prop} (hseen : ∀ state view, relation state view → invariant view → seen state)
    {state : State} {view : Abstract} (hview : invariant view) (hrelated : relation state view)
    (actions : List Action) : concrete.Along seen state actions := by
  refine hsimulates.along_explained hrelated (fun state commands after hexec hafter => ?_) actions
  exact hseen state after hafter (exec_invariant invariant hpreserved hview hexec)

end Simulates

end Machine

end Foundation
