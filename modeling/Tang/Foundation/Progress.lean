import Tang.Foundation.Machine

/-! # Bounded response

A rank that no step raises, and that the steps of one party lower, bounds how
many steps this party takes. The rank may lean on an invariant, and on a
property that holds along the whole run.
-/

namespace Foundation.Machine

universe uState uAction

variable {State : Type uState} {Action : Type uAction} {machine : Machine State Action}

/-- Each step keeps the invariant, and the steps of the party cost a unit of
rank. -/
def Spends (machine : Machine State Action) (mine : Action → Bool) (property : State → Prop)
    (invariant : State → Prop) (rank : State → Nat) : Prop :=
  ∀ state action next, invariant state → property state → property next →
    machine.step state action = some next →
      invariant next ∧ rank next + (if mine action then 1 else 0) ≤ rank state

variable {mine : Action → Bool} {property invariant : State → Prop} {rank : State → Nat}
  {state final : State} {actions : List Action}

/-- What the party has left of its rank after a run. -/
theorem Spends.exec (hspends : machine.Spends mine property invariant rank)
    (hstate : invariant state) (halong : machine.Along property state actions)
    (hfinal : machine.exec state actions = some final) :
    invariant final ∧ rank final + actions.countP mine ≤ rank state := by
  induction actions generalizing state with
  | nil =>
      cases hfinal
      exact ⟨hstate, by simp⟩
  | cons action rest ih =>
      obtain ⟨next, hnext, hrest⟩ := Option.bind_eq_some_iff.mp hfinal
      have hafter := halong.2 next hnext
      obtain ⟨hinvariant, hstep⟩ := hspends state action next hstate halong.1 hafter.head hnext
      obtain ⟨hlast, hrank⟩ := ih hinvariant hafter hrest
      refine ⟨hlast, ?_⟩
      rw [List.countP_cons]
      omega

end Foundation.Machine
