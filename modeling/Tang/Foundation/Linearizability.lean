import Tang.Foundation.Order
import Tang.Foundation.Transducer

/-! # Linearizability of a history of calls

A history records when calls begin and when they return. It is linearizable
when its calls can be put in one order, consistent with their order in real
time, in which a sequential system gives the same replies. The usual proof picks
for every call the moment it takes effect; `Committed` follows the history and
the order of these moments together.
-/

namespace Foundation

universe uId uState uCall uReply

variable {Id : Type uId} {State : Type uState} {Call : Type uCall} {Reply : Type uReply}

/-- What a caller sees. Every call has an identity of its own. -/
inductive CallEvent (Id : Type uId) (Call : Type uCall) (Reply : Type uReply)
  | called (id : Id) (call : Call)
  | returned (id : Id) (reply : Reply)
  deriving DecidableEq

/-- A call together with its reply. -/
structure Operation (Id : Type uId) (Call : Type uCall) (Reply : Type uReply) where
  id : Id
  call : Call
  reply : Reply
  deriving DecidableEq

/-- `order` is a sequential run with the replies of the history. It contains
every call that returned and possibly some that did not. -/
structure Linearizes (spec : Transducer State Call Reply) (start : State)
    (history : List (CallEvent Id Call Reply)) (order : List (Operation Id Call Reply)) :
    Prop where
  once : (order.map Operation.id).Nodup
  called : ∀ operation ∈ order, .called operation.id operation.call ∈ history
  answered : ∀ id reply, .returned id reply ∈ history → ∃ call, ⟨id, call, reply⟩ ∈ order
  legal : (spec.run start (order.map Operation.call)).1 = order.map Operation.reply
  realTime : ∀ first ∈ order, ∀ second ∈ order, ∀ reply call,
    Precedes history (.returned first.id reply) (.called second.id call) →
      Precedes order first second

/-- Some sequential order explains the history. -/
def Linearizable (spec : Transducer State Call Reply) (start : State)
    (history : List (CallEvent Id Call Reply)) : Prop :=
  ∃ order : List (Operation Id Call Reply), Linearizes spec start history order

/-- A history, the calls that have taken effect in it so far, in that order, and
the state they lead to. A call takes effect once, after it begins and before it
returns. -/
inductive Committed (spec : Transducer State Call Reply) (start : State) :
    List (CallEvent Id Call Reply) → List (Operation Id Call Reply) → State → Prop
  | start : Committed spec start [] [] start
  | call {history order state} (id : Id) (call : Call)
      (hprior : Committed spec start history order state)
      (hfresh : ∀ other, .called id other ∉ history) :
      Committed spec start (history ++ [.called id call]) order state
  | commit {history order state} (id : Id) (call : Call)
      (hprior : Committed spec start history order state)
      (hcalled : .called id call ∈ history) (hfirst : id ∉ order.map Operation.id) :
      Committed spec start history (order ++ [⟨id, call, (spec.step state call).1⟩])
        (spec.step state call).2
  | answer {history order state} (id : Id) (call : Call) (reply : Reply)
      (hprior : Committed spec start history order state)
      (hcommitted : ⟨id, call, reply⟩ ∈ order) :
      Committed spec start (history ++ [.returned id reply]) order state

namespace Transducer

/-- One more call at the end of a run. -/
theorem run_append (system : Transducer State Call Reply) (state : State) (front back : List Call) :
    system.run state (front ++ back) =
      ((system.run state front).1 ++ (system.run (system.run state front).2 back).1,
        (system.run (system.run state front).2 back).2) := by
  induction front generalizing state with
  | nil => rfl
  | cons call rest ih => simp only [List.cons_append, run, ih]

end Transducer

theorem precedes_concat {α : Type uId} {list : List α} {last first second : α} :
    Precedes (list ++ [last]) first second ↔
      Precedes list first second ∨ first ∈ list ∧ second = last := by
  rw [precedes_append]
  have hsingle : ¬ Precedes [last] first second := fun h => by
    simpa using h.mem_tail
  simp [hsingle]

namespace Committed

variable {spec : Transducer State Call Reply} {start state : State}
  {history : List (CallEvent Id Call Reply)} {order : List (Operation Id Call Reply)}

/-- The commits lead to the state. -/
theorem run_eq (hcommitted : Committed spec start history order state) :
    spec.run start (order.map Operation.call) = (order.map Operation.reply, state) := by
  induction hcommitted with
  | start => rfl
  | call _ _ _ _ ih => exact ih
  | commit id call _ _ _ ih =>
      rw [List.map_append, List.map_append, Transducer.run_append, ih]
      rfl
  | answer _ _ _ _ _ ih => exact ih

theorem once (hcommitted : Committed spec start history order state) :
    (order.map Operation.id).Nodup := by
  induction hcommitted with
  | start => exact List.nodup_nil
  | call _ _ _ _ ih => exact ih
  | commit id call _ _ hfirst ih =>
      rw [List.map_append, List.map_singleton, ← List.concat_eq_append]
      exact List.Nodup.concat hfirst ih
  | answer _ _ _ _ _ ih => exact ih

theorem called (hcommitted : Committed spec start history order state) :
    ∀ operation ∈ order, .called operation.id operation.call ∈ history := by
  induction hcommitted with
  | start => exact fun _ hmem => absurd hmem List.not_mem_nil
  | call id call _ _ ih =>
      exact fun operation hmem => List.mem_append_left _ (ih operation hmem)
  | commit id call _ hcalled _ ih =>
      intro operation hmem
      rcases List.mem_append.mp hmem with hold | hnew
      · exact ih operation hold
      · rw [List.mem_singleton.mp hnew]
        exact hcalled
  | answer id call reply _ _ ih =>
      exact fun operation hmem => List.mem_append_left _ (ih operation hmem)

theorem answered (hcommitted : Committed spec start history order state) :
    ∀ id reply, .returned id reply ∈ history → ∃ call, ⟨id, call, reply⟩ ∈ order := by
  induction hcommitted with
  | start => exact fun _ _ hmem => absurd hmem List.not_mem_nil
  | call id call _ _ ih =>
      intro other reply hmem
      exact ih other reply (by simpa using hmem)
  | commit id call _ _ _ ih =>
      intro other reply hmem
      obtain ⟨call, hcall⟩ := ih other reply hmem
      exact ⟨call, List.mem_append_left _ hcall⟩
  | answer id call reply _ hmem ih =>
      intro other result hreturned
      rcases List.mem_append.mp hreturned with hold | hnew
      · exact ih other result hold
      · obtain ⟨rfl, rfl⟩ : other = id ∧ result = reply := by simpa using hnew
        exact ⟨call, hmem⟩

/-- A call that has not taken effect has not returned. -/
theorem not_returned (hcommitted : Committed spec start history order state) {id : Id}
    (hpending : id ∉ order.map Operation.id) (reply : Reply) : .returned id reply ∉ history := by
  intro hreturned
  obtain ⟨call, hmem⟩ := hcommitted.answered id reply hreturned
  exact hpending (List.mem_map_of_mem (f := Operation.id) hmem)

theorem realTime (hcommitted : Committed spec start history order state) :
    ∀ first ∈ order, ∀ second ∈ order, ∀ reply call,
      Precedes history (.returned first.id reply) (.called second.id call) →
        Precedes order first second := by
  induction hcommitted with
  | start => exact fun _ hmem => absurd hmem List.not_mem_nil
  | call id call hprior hfresh ih =>
      intro first hfirst second hsecond reply other hprecedes
      rcases precedes_concat.mp hprecedes with hold | ⟨_, hnew⟩
      · exact ih first hfirst second hsecond reply other hold
      · -- A call that begins only now has not taken effect.
        obtain ⟨heq, _⟩ : second.id = id ∧ other = call := by simpa using hnew
        have hcalled := hprior.called second hsecond
        rw [heq] at hcalled
        exact absurd hcalled (hfresh second.call)
  | commit id call hprior _ hpending ih =>
      intro first hfirst second hsecond reply other hprecedes
      rcases List.mem_append.mp hfirst with hfirst | hfirst
      · rcases List.mem_append.mp hsecond with hsecond | hsecond
        · exact (ih first hfirst second hsecond reply other hprecedes).append_right _
        · exact .of_mem_of_mem hfirst hsecond
      · -- A call that takes effect only now has not returned.
        rw [List.mem_singleton.mp hfirst] at hprecedes
        exact absurd hprecedes.mem_left (hprior.not_returned hpending reply)
  | answer id call reply hprior _ ih =>
      intro first hfirst second hsecond result other hprecedes
      rcases precedes_concat.mp hprecedes with hold | ⟨_, hnew⟩
      · exact ih first hfirst second hsecond result other hold
      · cases hnew

/-- The order of the commits linearizes the history. -/
theorem linearizes (hcommitted : Committed spec start history order state) :
    Linearizes spec start history order where
  once := hcommitted.once
  called := hcommitted.called
  answered := hcommitted.answered
  legal := by rw [hcommitted.run_eq]
  realTime := hcommitted.realTime

end Committed

end Foundation
