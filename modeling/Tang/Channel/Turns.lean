import Tang.Foundation.History
import Tang.Foundation.Turn
import Tang.Channel.Drain

/-! # Parked operations are served in turn

Six bodies take waiters off the two lists, `close` by a traversal and the
others one at a time. All of them start at the front, and a registration joins
at the back. What is done to the parked operations is therefore done in the
order in which they registered.
-/

namespace Tang.Interleaving

open Foundation Effect

variable {Op V : Type}

/-- What the channel does for an operation. -/
inductive Deed
  /-- Its handle is passed to `runtime::schedule`. -/
  | scheduled
  /-- Its result member is written. -/
  | answered
  /-- Its result member becomes false. -/
  | failed
  /-- Its variable is assigned a value. -/
  | delivered
  /-- Its value enters `buffer_` or goes to a receiver. -/
  | accepted
  /-- Its value is destroyed. -/
  | discarded
  deriving DecidableEq

/-- The operations a list of effects does the deed for, in order. -/
def Deed.collect (effects : List (Effect Op Op (Item Op V))) : Deed → List Op
  | .scheduled => schedules effects
  | .answered => (results effects).map Prod.fst
  | .failed => ((results effects).filter fun answer => !answer.2).map Prod.fst
  | .delivered => (delivers effects).map Prod.fst
  | .accepted => (accepts effects).map Item.op
  | .discarded => (discards effects).map Item.op

/-- The operations the deed was done for, in order. -/
def deeds (deed : Deed) (log : List (Event Op V)) : List Op :=
  deed.collect (effects log)

/-- The operations that parked, in the order of their registrations. -/
structure Parked (Op : Type) where
  senders : List Op := []
  receivers : List Op := []
  deriving DecidableEq

/-- A registration has parked its operation when the waiter list has grown. -/
def Parked.record (parked : Parked Op) (state : State Op V) (action : Action Op V)
    (next : State Op V) : Parked Op :=
  match action with
  | .sendSuspend op =>
      if state.channel.sendWaiters.length < next.channel.sendWaiters.length then
        { parked with senders := parked.senders ++ [op] }
      else parked
  | .recvSuspend op =>
      if state.channel.recvWaiters.length < next.channel.recvWaiters.length then
        { parked with receivers := parked.receivers ++ [op] }
      else parked
  | _ => parked

/-- The interleavings, with the registrations that parked on record. -/
def registering (Op V : Type) [DecidableEq Op] (capacity : Nat) :
    Machine (State Op V × Parked Op) (Action Op V) :=
  (machine Op V capacity).recording {} Parked.record

/-- The parked receivers leave `recv_waiters_`, are told their result, get their
value (or, after all values, their failure) and are resumed in the order of
their registrations; so are the parked senders, whose values enter `buffer_`
or go to a receiver in that order before `close` destroys the rest. -/
structure ServedInTurn [DecidableEq Op] (watched : State Op V × Parked Op) : Prop where
  onceEach : (watched.2.senders ++ watched.2.receivers).Nodup
  receiversAnswered : InTurn watched.2.receivers (deeds .answered watched.1.log)
    (watched.1.channel.recvWaiters.map RecvWaiter.awaiter)
  receiversGiven : InTurn watched.2.receivers
    (deeds .delivered watched.1.log ++ deeds .failed watched.1.log)
    (watched.1.channel.recvWaiters.map RecvWaiter.awaiter)
  receiversResumed : InTurn watched.2.receivers (deeds .scheduled watched.1.log)
    (watched.1.channel.recvWaiters.map RecvWaiter.handle)
  valuesMoved : InTurn watched.2.senders
    (deeds .accepted watched.1.log ++ deeds .discarded watched.1.log)
    (watched.1.channel.sendWaiters.map fun waiter => waiter.value.op)
  sendersResumed : InTurn watched.2.senders (deeds .scheduled watched.1.log)
    (watched.1.channel.sendWaiters.map SendWaiter.handle)

/-- When a later registration is no longer parked, no earlier one is, and what
was done for the later one was done for the earlier one before. -/
theorem ServedInTurn.earlier_first [DecidableEq Op] {watched : State Op V × Parked Op}
    (hserved : ServedInTurn watched) {first second : Op} :
    (Precedes watched.2.receivers first second →
        second ∉ watched.1.channel.recvWaiters.map RecvWaiter.awaiter →
        first ∉ watched.1.channel.recvWaiters.map RecvWaiter.awaiter ∧
          Precedes (deeds .answered watched.1.log) first second) ∧
      (Precedes watched.2.senders first second →
        second ∉ watched.1.channel.sendWaiters.map SendWaiter.handle →
        first ∉ watched.1.channel.sendWaiters.map SendWaiter.handle ∧
          Precedes (deeds .scheduled watched.1.log) first second) := by
  obtain ⟨hsenders, hreceivers, _⟩ := List.nodup_append.mp hserved.onceEach
  exact ⟨hserved.receiversAnswered.earlier_first hreceivers,
    hserved.sendersResumed.earlier_first hsenders⟩

/-! ## What a step does for the waiters -/

/-- The deeds done for waiters that leave with a value, or leave theirs. -/
@[simp] def Deed.served (senders : List (SendWaiter Op (Item Op V)))
    (receivers : List (RecvWaiter Op Op)) : Deed → List Op
  | .scheduled => senders.map SendWaiter.handle ++ receivers.map RecvWaiter.handle
  | .answered | .delivered => receivers.map RecvWaiter.awaiter
  | .accepted => senders.map fun waiter => waiter.value.op
  | .failed | .discarded => []

/-- The deeds done for waiters that `close` finds. -/
@[simp] def Deed.flushed (senders : List (SendWaiter Op (Item Op V)))
    (receivers : List (RecvWaiter Op Op)) : Deed → List Op
  | .scheduled => senders.map SendWaiter.handle ++ receivers.map RecvWaiter.handle
  | .answered | .failed => receivers.map RecvWaiter.awaiter
  | .discarded => senders.map fun waiter => waiter.value.op
  | .delivered | .accepted => []

/-- A step of an operation serves waiters from the front of the lists, flushes
both lists, parks the operation, or leaves the lists as they are. What it does
for itself comes first. -/
inductive Turns (watched after : State Op V × Parked Op) (op : Op) (phase : Phase V) : Prop
  | quiet (hdeeds : ∀ deed, deeds deed after.1.log = deeds deed watched.1.log)
      (hclosed : watched.1.channel.closed = true → after.1.channel.closed = true)
      (hsenders : after.1.channel.sendWaiters = watched.1.channel.sendWaiters)
      (hreceivers : after.1.channel.recvWaiters = watched.1.channel.recvWaiters)
      (hparked : after.2 = watched.2)
  | serve (hfinished : phase.finished = true)
      (senders : List (SendWaiter Op (Item Op V))) (receivers : List (RecvWaiter Op Op))
      (hdeeds : ∀ deed : Deed, ∃ own, (∀ other ∈ own, other = op) ∧
        deeds deed after.1.log =
          deeds deed watched.1.log ++ (own ++ deed.served senders receivers))
      (hclosed : after.1.channel.closed = watched.1.channel.closed)
      (hsenders : watched.1.channel.sendWaiters = senders ++ after.1.channel.sendWaiters)
      (hreceivers : watched.1.channel.recvWaiters = receivers ++ after.1.channel.recvWaiters)
      (hparked : after.2 = watched.2)
  | flush (hclosing : watched.1.phase op = .closing)
      (hdeeds : ∀ deed : Deed, deeds deed after.1.log = deeds deed watched.1.log ++
        deed.flushed watched.1.channel.sendWaiters watched.1.channel.recvWaiters)
      (hclosed : after.1.channel.closed = watched.1.channel.closed)
      (hsenders : after.1.channel.sendWaiters = [])
      (hreceivers : after.1.channel.recvWaiters = [])
      (hparked : after.2 = watched.2)
  | parkSender (hfinished : phase.finished = true) (value : V)
      (hdeeds : ∀ deed, deeds deed after.1.log = deeds deed watched.1.log)
      (hopen : watched.1.channel.closed = false)
      (hsenders : after.1.channel.sendWaiters =
        watched.1.channel.sendWaiters ++ [⟨op, ⟨op, value⟩⟩])
      (hreceivers : after.1.channel.recvWaiters = watched.1.channel.recvWaiters)
      (hparked : after.2 = { watched.2 with senders := watched.2.senders ++ [op] })
  | parkReceiver (hfinished : phase.finished = true)
      (hdeeds : ∀ deed, deeds deed after.1.log = deeds deed watched.1.log)
      (hopen : watched.1.channel.closed = false)
      (hsenders : after.1.channel.sendWaiters = watched.1.channel.sendWaiters)
      (hreceivers : after.1.channel.recvWaiters =
        watched.1.channel.recvWaiters ++ [⟨op, op⟩])
      (hparked : after.2 = { watched.2 with receivers := watched.2.receivers ++ [op] })

section Deeds

variable {state next : State Op V} {op : Op}

theorem deeds_append {more : List (Effect Op Op (Item Op V))}
    (heffects : effects next.log = effects state.log ++ more) (deed : Deed) :
    deeds deed next.log = deeds deed state.log ++ deed.collect more := by
  cases deed <;> simp [deeds, Deed.collect, heffects]

/-- A body that serves waiters, given what it does for its caller. -/
theorem Turns.of_serve {parked : Parked Op} {more : List (Effect Op Op (Item Op V))}
    {phase : Phase V} (own : List (Effect Op Op (Item Op V)))
    (senders : List (SendWaiter Op (Item Op V))) (receivers : List (RecvWaiter Op Op))
    (hfinished : phase.finished = true)
    (heffects : effects next.log = effects state.log ++ more)
    (hown : ∀ deed : Deed, ∀ other ∈ deed.collect own, other = op)
    (hmore : ∀ deed : Deed,
      deed.collect more = deed.collect own ++ deed.served senders receivers)
    (hclosed : next.channel.closed = state.channel.closed)
    (hsenders : state.channel.sendWaiters = senders ++ next.channel.sendWaiters)
    (hreceivers : state.channel.recvWaiters = receivers ++ next.channel.recvWaiters) :
    Turns (state, parked) (next, parked) op phase := by
  refine .serve hfinished senders receivers (fun deed => ?_) hclosed hsenders hreceivers rfl
  exact ⟨deed.collect own, hown deed, by rw [deeds_append heffects, hmore]⟩

end Deeds

variable [DecidableEq Op]

theorem Moves.turns {state next : State Op V} {action : Action Op V}
    (hmoves : Moves state action next) (parked : Parked Op) :
    ∃ op phase, (state.phase op).finished = false ∧
      next.phase = Function.update state.phase op phase ∧
      Turns (state, parked) (next, parked.record state action next) op phase := by
  cases hmoves with
  | send action op value used haction hphase =>
      have hrecord : parked.record state action (state.sendReturns op value
          (state.channel.trySendWith ⟨op, value⟩ used)) = parked := by
        rcases haction with rfl | rfl | rfl <;> rfl
      rw [hrecord]
      refine ⟨op, .returned, by simp [hphase], rfl, ?_⟩
      -- Refused, handed to the first parked receiver, or buffered: only the second serves.
      rcases state.channel.trySendWith_cases ⟨op, value⟩ used with
        ⟨_, hout⟩ | ⟨waiter, rest, _, hwaiters, hout⟩ | ⟨_, _, _, hout⟩
      · apply Turns.of_serve [] [] [] rfl (State.sendReturns_effects _)
        · intro deed
          cases deed <;> simp [Deed.collect]
        · intro deed
          cases deed <;> simp [hout, Deed.served, Deed.collect]
        all_goals simp [hout]
      · apply Turns.of_serve [.accept ⟨op, value⟩] [] [waiter] rfl (State.sendReturns_effects _)
        · intro deed
          cases deed <;> simp [Deed.collect]
        · intro deed
          cases deed <;> simp [hout, Deed.served, Deed.collect]
        all_goals simp [hout, hwaiters]
      · apply Turns.of_serve [.accept ⟨op, value⟩] [] [] rfl (State.sendReturns_effects _)
        · intro deed
          cases deed <;> simp [Deed.collect]
        · intro deed
          cases deed <;> simp [hout, Deed.served, Deed.collect]
        all_goals simp [hout]
  | sendFails op value hphase _ =>
      refine ⟨op, .sendTried value, by simp [hphase], rfl, ?_⟩
      exact .quiet (fun deed => by simp [deeds]) id rfl rfl rfl
  | recv action op haction hphase =>
      have hrecord : parked.record state action (state.recvReturns op
          (state.channel.tryRecv op none)) = parked := by
        rcases haction with rfl | rfl <;> rfl
      rw [hrecord]
      refine ⟨op, .returned, by simp [hphase], rfl, ?_⟩
      rcases state.channel.tryRecv_cases op none with
        ⟨front, buffer, waiter, rest, _, hwaiters, hout⟩ | ⟨front, buffer, _, _, hout⟩ |
          ⟨waiter, rest, _, _, hwaiters, hout⟩ | ⟨_, _, hout⟩
      · apply Turns.of_serve [.deliver op front] [waiter] [] rfl (State.recvReturns_effects _)
        · intro deed
          cases deed <;> simp [Deed.collect]
        · intro deed
          cases deed <;> simp [hout, Deed.served, Deed.collect]
        all_goals simp [hout, hwaiters]
      · apply Turns.of_serve [.deliver op front] [] [] rfl (State.recvReturns_effects _)
        · intro deed
          cases deed <;> simp [Deed.collect]
        · intro deed
          cases deed <;> simp [hout, Deed.served, Deed.collect]
        all_goals simp [hout]
      · apply Turns.of_serve [.deliver op waiter.value] [waiter] [] rfl
          (State.recvReturns_effects _)
        · intro deed
          cases deed <;> simp [Deed.collect]
        · intro deed
          cases deed <;> simp [hout, Deed.served, Deed.collect]
        all_goals simp [hout, hwaiters]
      · apply Turns.of_serve [] [] [] rfl (State.recvReturns_effects _)
        · intro deed
          cases deed <;> simp [Deed.collect]
        · intro deed
          cases deed <;> simp [hout, Deed.served, Deed.collect]
        all_goals simp [hout]
  | recvFails op hphase _ _ =>
      refine ⟨op, .recvTried, by simp [hphase], rfl, ?_⟩
      exact .quiet (fun deed => by simp [deeds]) id rfl rfl rfl
  | sendSuspend op value hphase =>
      refine ⟨op, .suspended, by simp [hphase], rfl, ?_⟩
      rcases state.channel.registerSendWaiter_cases op ⟨op, value⟩ with
        ⟨_, hout⟩ | ⟨waiter, rest, _, hwaiters, hout⟩ | ⟨hopen, _, hout⟩
      · simp only [Parked.record, State.suspends_channel, hout, Nat.lt_irrefl, if_false]
        apply Turns.of_serve [.schedule op] [] [] rfl (State.suspends_effects _)
        · intro deed
          cases deed <;> simp [Deed.collect]
        · intro deed
          cases deed <;> simp [Deed.served, Deed.collect]
        all_goals simp
      · simp only [Parked.record, State.suspends_channel, hout, Nat.lt_irrefl, if_false]
        apply Turns.of_serve [.accept ⟨op, value⟩] [] [waiter] rfl (State.suspends_effects _)
        · intro deed
          cases deed <;> simp [Deed.collect]
        · intro deed
          cases deed <;> simp [Deed.served, Deed.collect]
        all_goals simp [hwaiters]
      · refine .parkSender rfl value (fun deed => ?_) hopen ?_ ?_ ?_
        · cases deed <;> simp [deeds, hout, Deed.collect]
        all_goals simp [Parked.record, hout]
  | recvSuspend op hphase =>
      refine ⟨op, .suspended, by simp [hphase], rfl, ?_⟩
      rcases state.channel.registerRecvWaiter_cases op op with
        ⟨_, hout⟩ | ⟨waiter, rest, _, hwaiters, hout⟩ | ⟨hopen, _, hout⟩
      · simp only [Parked.record, State.suspends_channel, hout, Nat.lt_irrefl, if_false]
        apply Turns.of_serve [.result op false, .schedule op] [] [] rfl
          (State.suspends_effects _)
        · intro deed
          cases deed <;> simp [Deed.collect]
        · intro deed
          cases deed <;> simp [Deed.served, Deed.collect]
        all_goals simp
      · simp only [Parked.record, State.suspends_channel, hout, Nat.lt_irrefl, if_false]
        apply Turns.of_serve [.deliver op waiter.value, .result op true, .schedule op] [waiter] []
          rfl (State.suspends_effects _)
        · intro deed
          cases deed <;> simp [Deed.collect]
        · intro deed
          cases deed <;> simp [Deed.served, Deed.collect]
        all_goals simp [hwaiters]
      · refine .parkReceiver rfl (fun deed => ?_) hopen ?_ ?_ ?_
        · cases deed <;> simp [deeds, hout, Deed.collect]
        all_goals simp [Parked.record, hout]
  | exchange op hphase _ =>
      refine ⟨op, .closing, by simp [hphase], rfl, ?_⟩
      exact .quiet (fun deed => by simp [deeds]) (fun _ => rfl) rfl rfl rfl
  | exchangeClosed op hphase _ =>
      refine ⟨op, .returned, by simp [hphase], rfl, ?_⟩
      exact .quiet (fun deed => by simp [deeds]) id rfl rfl rfl
  | flush op hphase =>
      refine ⟨op, .returned, by simp [hphase], rfl, ?_⟩
      refine .flush hphase (fun deed => ?_) rfl rfl rfl rfl
      rw [deeds_append (State.flushes_effects _)]
      cases deed <;> simp [Deed.collect, Deed.flushed, List.filter_map, Function.comp_def]

/-! ## The order of service -/

/-- The waiters are those on record, nothing has been done for an operation that
still has a step to take, and once something parked was destroyed or failed,
`close` has emptied the lists for good. -/
structure Queued (watched : State Op V × Parked Op) : Prop where
  served : ServedInTurn watched
  ownSender : ∀ waiter ∈ watched.1.channel.sendWaiters, waiter.value.op = waiter.handle
  ownReceiver : ∀ waiter ∈ watched.1.channel.recvWaiters, waiter.awaiter = waiter.handle
  acted : ∀ deed, ∀ op ∈ deeds deed watched.1.log, (watched.1.phase op).finished = true
  parked : ∀ op ∈ watched.2.senders ++ watched.2.receivers,
    (watched.1.phase op).finished = true
  flushed : ∀ op ∈ watched.2.senders ++ watched.2.receivers,
    op ∈ deeds .discarded watched.1.log ∨ op ∈ deeds .failed watched.1.log →
      watched.1.channel.Flushed

theorem initial_queued (capacity : Nat) :
    Queued ((initial capacity : State Op V), ({} : Parked Op)) where
  served := ⟨by simp, rfl, rfl, rfl, rfl, rfl⟩
  ownSender := by simp [initial, Channel.new]
  ownReceiver := by simp [initial, Channel.new]
  acted deed op hop := by cases deed <;> simp [deeds, initial, Deed.collect] at hop
  parked := by simp
  flushed := by simp

namespace Queued

variable {watched after : State Op V × Parked Op} {op : Op} {phase : Phase V}

theorem not_parked (hqueued : Queued watched) (hactive : (watched.1.phase op).finished = false) :
    op ∉ watched.2.senders ∧ op ∉ watched.2.receivers := by
  rw [← not_or, ← List.mem_append]
  intro hparked
  exact Bool.false_ne_true (hactive.symm.trans (hqueued.parked op hparked))

theorem not_acted (hqueued : Queued watched) (hactive : (watched.1.phase op).finished = false)
    (deed : Deed) : op ∉ deeds deed watched.1.log := by
  intro hacted
  exact Bool.false_ne_true (hactive.symm.trans (hqueued.acted deed op hacted))

theorem disjoint (hqueued : Queued watched) :
    watched.2.senders.Disjoint watched.2.receivers :=
  List.disjoint_of_nodup_append hqueued.served.onceEach

/-- The waiters a step takes off the lists are on record. -/
theorem parked_of_front (hqueued : Queued watched)
    (senders : List (SendWaiter Op (Item Op V))) (receivers : List (RecvWaiter Op Op))
    (hsenders : senders ⊆ watched.1.channel.sendWaiters)
    (hreceivers : receivers ⊆ watched.1.channel.recvWaiters) :
    senders.map SendWaiter.handle ⊆ watched.2.senders ∧
      (senders.map fun waiter => waiter.value.op) ⊆ watched.2.senders ∧
      receivers.map RecvWaiter.handle ⊆ watched.2.receivers ∧
      receivers.map RecvWaiter.awaiter ⊆ watched.2.receivers := by
  have hserved := hqueued.served
  exact ⟨fun _ hmem => hserved.sendersResumed.waiting_subset (List.map_subset _ hsenders hmem),
    fun _ hmem => hserved.valuesMoved.waiting_subset (List.map_subset _ hsenders hmem),
    fun _ hmem => hserved.receiversResumed.waiting_subset (List.map_subset _ hreceivers hmem),
    fun _ hmem => hserved.receiversAnswered.waiting_subset (List.map_subset _ hreceivers hmem)⟩

/-- Among the handles resumed together, the line of one side sees its own. -/
theorem filter_resumed (hqueued : Queued watched) {own senders receivers : List Op}
    (hactive : (watched.1.phase op).finished = false) (hown : ∀ other ∈ own, other = op)
    (hsenders : senders ⊆ watched.2.senders) (hreceivers : receivers ⊆ watched.2.receivers) :
    (own ++ (senders ++ receivers)).filter (· ∈ watched.2.senders) = senders ∧
      (own ++ (senders ++ receivers)).filter (· ∈ watched.2.receivers) = receivers := by
  have hout := hqueued.not_parked hactive
  constructor
  · have hothers : receivers.filter (· ∈ watched.2.senders) = [] := by
      rw [List.filter_eq_nil_iff]
      intro other hother
      simpa using fun hsender => hqueued.disjoint hsender (hreceivers hother)
    rw [← List.append_assoc, List.filter_append, hothers, List.append_nil]
    exact filter_mem_outsiders hout.1 hown hsenders
  · have hothers : senders.filter (· ∈ watched.2.receivers) = [] := by
      rw [List.filter_eq_nil_iff]
      intro other hother
      simpa using fun hreceiver => hqueued.disjoint (hsenders hother) hreceiver
    rw [List.filter_append, List.filter_append, hothers, List.nil_append,
      ← List.filter_append]
    exact filter_mem_outsiders hout.2 hown hreceivers

end Queued

/-- Nobody's phase goes back from the end. -/
theorem finished_keep {state next : State Op V} {op other : Op} {phase : Phase V}
    (hactive : (state.phase op).finished = false)
    (hphase : next.phase = Function.update state.phase op phase)
    (hfinished : (state.phase other).finished = true) : (next.phase other).finished = true := by
  have hne : other ≠ op := by
    rintro rfl
    exact Bool.false_ne_true (hactive.symm.trans hfinished)
  rwa [hphase, Function.update_of_ne hne]

section Turns

variable {watched after : State Op V × Parked Op} {op : Op} {phase : Phase V}

section Serve

variable (hqueued : Queued watched) (hactive : (watched.1.phase op).finished = false)
  (senders : List (SendWaiter Op (Item Op V))) (receivers : List (RecvWaiter Op Op))
  (hdeeds : ∀ deed : Deed, ∃ own, (∀ other ∈ own, other = op) ∧
    deeds deed after.1.log = deeds deed watched.1.log ++ (own ++ deed.served senders receivers))
  (hsenders : watched.1.channel.sendWaiters = senders ++ after.1.channel.sendWaiters)
  (hreceivers : watched.1.channel.recvWaiters = receivers ++ after.1.channel.recvWaiters)
  (hparked : after.2 = watched.2)

include hqueued hactive hdeeds hsenders hreceivers hparked

/-- Waiters that leave from the front of their lists leave in turn. -/
theorem Queued.served_of_serve : ServedInTurn after := by
  have hserved := hqueued.served
  have hout := hqueued.not_parked hactive
  obtain ⟨hhandles, hvalues, hwoken, hawaiters⟩ :=
    hqueued.parked_of_front senders receivers (by simp [hsenders]) (by simp [hreceivers])
  have hresumed : ∀ own : List Op, (∀ other ∈ own, other = op) → _ := fun own hown =>
    hqueued.filter_resumed hactive hown hhandles hwoken
  -- Nothing parked was destroyed or failed while somebody is still waiting.
  have hkept : senders ≠ [] ∨ receivers ≠ [] →
      ∀ other ∈ watched.2.senders ++ watched.2.receivers,
        other ∉ deeds .discarded watched.1.log ∧ other ∉ deeds .failed watched.1.log := by
    intro hsome other hother
    rw [← not_or]
    intro hdone
    obtain ⟨_, hnone, hnone'⟩ := hqueued.flushed other hother hdone
    rw [hsenders] at hnone
    rw [hreceivers] at hnone'
    exact hsome.elim (· (List.append_eq_nil_iff.mp hnone).1)
      (· (List.append_eq_nil_iff.mp hnone').1)
  constructor
  case onceEach =>
    rw [hparked]
    exact hserved.onceEach
  case receiversAnswered =>
    obtain ⟨own, hown, heq⟩ := hdeeds .answered
    rw [hparked, heq]
    refine InTurn.depart ?_ (filter_mem_outsiders hout.2 hown hawaiters)
    simpa [hreceivers] using hserved.receiversAnswered
  case receiversGiven =>
    obtain ⟨own, hown, heq⟩ := hdeeds .delivered
    obtain ⟨own', hown', heq'⟩ := hdeeds .failed
    rw [hparked, heq, heq']
    refine InTurn.depart_first ?_ (filter_mem_outsiders hout.2 hown hawaiters)
      (filter_mem_outsiders hout.2 hown' (List.nil_subset _)) fun hsome other hother => ?_
    · simpa [hreceivers] using hserved.receiversGiven
    · exact (hkept (Or.inr fun hnil => hsome (by simp [hnil])) other
        (List.mem_append_right _ hother)).2
  case receiversResumed =>
    obtain ⟨own, hown, heq⟩ := hdeeds .scheduled
    rw [hparked, heq]
    refine InTurn.depart ?_ (hresumed own hown).2
    simpa [hreceivers] using hserved.receiversResumed
  case valuesMoved =>
    obtain ⟨own, hown, heq⟩ := hdeeds .accepted
    obtain ⟨own', hown', heq'⟩ := hdeeds .discarded
    rw [hparked, heq, heq']
    refine InTurn.depart_first ?_ (filter_mem_outsiders hout.1 hown hvalues)
      (filter_mem_outsiders hout.1 hown' (List.nil_subset _)) fun hsome other hother => ?_
    · simpa [hsenders] using hserved.valuesMoved
    · exact (hkept (Or.inl fun hnil => hsome (by simp [hnil])) other
        (List.mem_append_left _ hother)).1
  case sendersResumed =>
    obtain ⟨own, hown, heq⟩ := hdeeds .scheduled
    rw [hparked, heq]
    refine InTurn.depart ?_ (hresumed own hown).1
    simpa [hsenders] using hserved.sendersResumed

theorem Queued.of_serve (hphase : after.1.phase = Function.update watched.1.phase op phase)
    (hfinished : phase.finished = true)
    (hclosed : after.1.channel.closed = watched.1.channel.closed) : Queued after where
  served := hqueued.served_of_serve hactive senders receivers hdeeds hsenders hreceivers hparked
  ownSender waiter hwaiter := hqueued.ownSender waiter (by simp [hsenders, hwaiter])
  ownReceiver waiter hwaiter := hqueued.ownReceiver waiter (by simp [hreceivers, hwaiter])
  acted deed other hother := by
    obtain ⟨hhandles, hvalues, hwoken, hawaiters⟩ :=
      hqueued.parked_of_front senders receivers (by simp [hsenders]) (by simp [hreceivers])
    obtain ⟨own, hown, heq⟩ := hdeeds deed
    rw [heq, List.mem_append, List.mem_append] at hother
    rcases hother with hother | hother | hother
    · exact finished_keep hactive hphase (hqueued.acted deed other hother)
    · rwa [hown other hother, hphase, Function.update_self]
    · apply finished_keep hactive hphase (hqueued.parked other _)
      cases deed with
      | scheduled =>
          exact List.mem_append.mpr
            ((List.mem_append.mp hother).imp (fun hmem => hhandles hmem) fun hmem => hwoken hmem)
      | answered => exact List.mem_append_right _ (hawaiters hother)
      | delivered => exact List.mem_append_right _ (hawaiters hother)
      | accepted => exact List.mem_append_left _ (hvalues hother)
      | failed => exact absurd hother List.not_mem_nil
      | discarded => exact absurd hother List.not_mem_nil
  parked := by
    rw [hparked]
    exact fun other hother => finished_keep hactive hphase (hqueued.parked other hother)
  flushed := by
    rw [hparked]
    intro other hother hdone
    have hout := hqueued.not_parked hactive
    have hne : other ≠ op := by
      rintro rfl
      exact (List.mem_append.mp hother).elim hout.1 hout.2
    have hold : ∀ deed : Deed, deed.served senders receivers = [] →
        other ∈ deeds deed after.1.log → other ∈ deeds deed watched.1.log := by
      intro deed hnothing hmem
      obtain ⟨own, hown, heq⟩ := hdeeds deed
      rw [heq, hnothing, List.append_nil, List.mem_append] at hmem
      exact hmem.resolve_right fun hmine => hne (hown other hmine)
    obtain ⟨hshut, hnone, hnone'⟩ := hqueued.flushed other hother
      (hdone.imp (hold .discarded rfl) (hold .failed rfl))
    rw [hsenders] at hnone
    rw [hreceivers] at hnone'
    exact ⟨hclosed ▸ hshut, (List.append_eq_nil_iff.mp hnone).2,
      (List.append_eq_nil_iff.mp hnone').2⟩

end Serve

/-- `close` finds nobody that came after its exchange, and clears both lists. -/
theorem Queued.of_flush (hqueued : Queued watched)
    (hactive : (watched.1.phase op).finished = false)
    (hphase : after.1.phase = Function.update watched.1.phase op phase)
    (hdeeds : ∀ deed : Deed, deeds deed after.1.log = deeds deed watched.1.log ++
      deed.flushed watched.1.channel.sendWaiters watched.1.channel.recvWaiters)
    (hclosed : after.1.channel.closed = true)
    (hsenders : after.1.channel.sendWaiters = [])
    (hreceivers : after.1.channel.recvWaiters = [])
    (hparked : after.2 = watched.2) : Queued after := by
  have hserved := hqueued.served
  obtain ⟨hhandles, hvalues, hwoken, hawaiters⟩ :=
    hqueued.parked_of_front _ _ (List.Subset.refl _) (List.Subset.refl _)
  have hresumed := hqueued.filter_resumed hactive (List.forall_mem_nil _) hhandles hwoken
  have hall : ∀ {arrivals front : List Op}, front ⊆ arrivals →
      front.filter (· ∈ arrivals) = front := by
    intro arrivals front hsubset
    exact List.filter_eq_self.mpr fun other hother => by simpa using hsubset hother
  constructor
  case served =>
    constructor
    case onceEach =>
      rw [hparked]
      exact hserved.onceEach
    case receiversAnswered =>
      rw [hparked, hdeeds, hreceivers]
      refine InTurn.depart ?_ (hall hawaiters)
      simpa using hserved.receiversAnswered
    case receiversGiven =>
      have hdelivered : deeds .delivered after.1.log = deeds .delivered watched.1.log := by
        simpa using hdeeds .delivered
      rw [hparked, hdelivered, hdeeds, hreceivers, ← List.append_assoc]
      refine InTurn.depart ?_ (hall hawaiters)
      simpa using hserved.receiversGiven
    case receiversResumed =>
      rw [hparked, hdeeds, hreceivers]
      refine InTurn.depart ?_ hresumed.2
      simpa using hserved.receiversResumed
    case valuesMoved =>
      have haccepted : deeds .accepted after.1.log = deeds .accepted watched.1.log := by
        simpa using hdeeds .accepted
      rw [hparked, haccepted, hdeeds, hsenders, ← List.append_assoc]
      refine InTurn.depart ?_ (hall hvalues)
      simpa using hserved.valuesMoved
    case sendersResumed =>
      rw [hparked, hdeeds, hsenders]
      refine InTurn.depart ?_ hresumed.1
      simpa using hserved.sendersResumed
  case ownSender => simp [hsenders]
  case ownReceiver => simp [hreceivers]
  case acted =>
    intro deed other hother
    rw [hdeeds, List.mem_append] at hother
    apply finished_keep hactive hphase
    rcases hother with hother | hother
    · exact hqueued.acted deed other hother
    · apply hqueued.parked other
      cases deed with
      | scheduled =>
          exact List.mem_append.mpr
            ((List.mem_append.mp hother).imp (fun hmem => hhandles hmem) fun hmem => hwoken hmem)
      | answered => exact List.mem_append_right _ (hawaiters hother)
      | failed => exact List.mem_append_right _ (hawaiters hother)
      | discarded => exact List.mem_append_left _ (hvalues hother)
      | delivered => exact absurd hother List.not_mem_nil
      | accepted => exact absurd hother List.not_mem_nil
  case parked =>
    rw [hparked]
    exact fun other hother => finished_keep hactive hphase (hqueued.parked other hother)
  case flushed =>
    exact fun _ _ _ => ⟨hclosed, hsenders, hreceivers⟩

/-- A registration joins the end of its line. -/
theorem Queued.of_park (hqueued : Queued watched)
    (hactive : (watched.1.phase op).finished = false)
    (hphase : after.1.phase = Function.update watched.1.phase op phase)
    (hfinished : phase.finished = true)
    (hdeeds : ∀ deed, deeds deed after.1.log = deeds deed watched.1.log)
    (hopen : watched.1.channel.closed = false)
    (hparks : (∃ value, after.1.channel.sendWaiters =
          watched.1.channel.sendWaiters ++ [⟨op, ⟨op, value⟩⟩] ∧
        after.1.channel.recvWaiters = watched.1.channel.recvWaiters ∧
        after.2 = { watched.2 with senders := watched.2.senders ++ [op] }) ∨
      after.1.channel.sendWaiters = watched.1.channel.sendWaiters ∧
        after.1.channel.recvWaiters = watched.1.channel.recvWaiters ++ [⟨op, op⟩] ∧
        after.2 = { watched.2 with receivers := watched.2.receivers ++ [op] }) :
    Queued after := by
  have hserved := hqueued.served
  have hout := hqueued.not_parked hactive
  have hnone := hqueued.not_acted hactive
  have hself : (after.1.phase op).finished = true := by rwa [hphase, Function.update_self]
  -- Only the operation itself is new on record, and it has neither parked nor acted before.
  have hmem : ∀ other ∈ after.2.senders ++ after.2.receivers,
      other = op ∨ other ∈ watched.2.senders ++ watched.2.receivers := by
    intro other hother
    rcases hparks with ⟨value, _, _, hparked⟩ | ⟨_, _, hparked⟩
    · rw [hparked] at hother
      simp only [List.mem_append, List.mem_singleton] at hother ⊢
      tauto
    · rw [hparked] at hother
      simp only [List.mem_append, List.mem_singleton] at hother ⊢
      tauto
  have honce : (op :: (watched.2.senders ++ watched.2.receivers)).Nodup := by
    rw [List.nodup_cons, List.mem_append]
    exact ⟨not_or.mpr hout, hserved.onceEach⟩
  constructor
  case served =>
    rcases hparks with ⟨value, hsenders, hreceivers, hparked⟩ | ⟨hsenders, hreceivers, hparked⟩
    · constructor <;> simp only [hparked, hdeeds, hsenders, hreceivers, List.map_append]
      · simpa using List.nodup_middle.mpr honce
      · exact hserved.receiversAnswered
      · exact hserved.receiversGiven
      · exact hserved.receiversResumed
      · exact hserved.valuesMoved.arrive (by simp [hnone])
      · exact hserved.sendersResumed.arrive (hnone _)
    · constructor <;> simp only [hparked, hdeeds, hsenders, hreceivers, List.map_append]
      · rw [← List.append_assoc]
        exact (List.perm_append_singleton op _).nodup_iff.mpr honce
      · exact hserved.receiversAnswered.arrive (hnone _)
      · exact hserved.receiversGiven.arrive (by simp [hnone])
      · exact hserved.receiversResumed.arrive (hnone _)
      · exact hserved.valuesMoved
      · exact hserved.sendersResumed
  case ownSender =>
    intro waiter hwaiter
    rcases hparks with ⟨value, hsenders, _⟩ | ⟨hsenders, _⟩
    · rw [hsenders, List.mem_append, List.mem_singleton] at hwaiter
      rcases hwaiter with hwaiter | rfl
      · exact hqueued.ownSender waiter hwaiter
      · rfl
    · exact hqueued.ownSender waiter (hsenders ▸ hwaiter)
  case ownReceiver =>
    intro waiter hwaiter
    rcases hparks with ⟨value, _, hreceivers, _⟩ | ⟨_, hreceivers, _⟩
    · exact hqueued.ownReceiver waiter (hreceivers ▸ hwaiter)
    · rw [hreceivers, List.mem_append, List.mem_singleton] at hwaiter
      rcases hwaiter with hwaiter | rfl
      · exact hqueued.ownReceiver waiter hwaiter
      · rfl
  case acted =>
    intro deed other hother
    rw [hdeeds] at hother
    exact finished_keep hactive hphase (hqueued.acted deed other hother)
  case parked =>
    intro other hother
    rcases hmem other hother with rfl | hold
    · exact hself
    · exact finished_keep hactive hphase (hqueued.parked other hold)
  case flushed =>
    intro other hother hdone
    rw [hdeeds, hdeeds] at hdone
    rcases hmem other hother with rfl | hold
    · exact absurd hdone (not_or.mpr ⟨hnone _, hnone _⟩)
    · have hshut := (hqueued.flushed other hold hdone).1
      simp [hopen] at hshut

theorem Turns.queued (hturns : Turns watched after op phase)
    (hactive : (watched.1.phase op).finished = false)
    (hphase : after.1.phase = Function.update watched.1.phase op phase)
    (hqueued : Queued watched) (hcloses : ClosesFirst watched.1) : Queued after := by
  cases hturns with
  | quiet hdeeds hclosed hsenders hreceivers hparked =>
      obtain ⟨hserved, hownSender, hownReceiver, hacted, hregistered, hflushed⟩ := hqueued
      constructor
      case served =>
        obtain ⟨_, _, _, _, _, _⟩ := hserved
        constructor <;> simpa only [hparked, hdeeds, hsenders, hreceivers]
      case ownSender =>
        rwa [hsenders]
      case ownReceiver =>
        rwa [hreceivers]
      case acted =>
        intro deed other hother
        rw [hdeeds] at hother
        exact finished_keep hactive hphase (hacted deed other hother)
      case parked =>
        rw [hparked]
        exact fun other hother => finished_keep hactive hphase (hregistered other hother)
      case flushed =>
        rw [hparked]
        intro other hother hdone
        rw [hdeeds, hdeeds] at hdone
        obtain ⟨hshut, hnone, hnone'⟩ := hflushed other hother hdone
        exact ⟨hclosed hshut, hsenders.trans hnone, hreceivers.trans hnone'⟩
  | serve hfinished senders receivers hdeeds hclosed hsenders hreceivers hparked =>
      exact hqueued.of_serve hactive senders receivers hdeeds hsenders hreceivers hparked hphase
        hfinished hclosed
  | flush hclosing hdeeds hclosed hsenders hreceivers hparked =>
      exact hqueued.of_flush hactive hphase hdeeds (hclosed.trans (hcloses op hclosing)) hsenders
        hreceivers hparked
  | parkSender hfinished value hdeeds hopen hsenders hreceivers hparked =>
      exact hqueued.of_park hactive hphase hfinished hdeeds hopen
        (Or.inl ⟨value, hsenders, hreceivers, hparked⟩)
  | parkReceiver hfinished hdeeds hopen hsenders hreceivers hparked =>
      exact hqueued.of_park hactive hphase hfinished hdeeds hopen
        (Or.inr ⟨hsenders, hreceivers, hparked⟩)

end Turns

/-- Every step keeps the lines in order. -/
theorem queued_of_step {capacity : Nat} {watched after : State Op V × Parked Op}
    {action : Action Op V} (hinvariant : Queued watched ∧ ClosesFirst watched.1)
    (hstep : (registering Op V capacity).step watched action = some after) :
    Queued after ∧ ClosesFirst after.1 := by
  obtain ⟨hnext, hparked⟩ := Machine.recording_step hstep
  have hmoves := moves_of_step hnext
  obtain ⟨op, phase, hactive, hphase, hturns⟩ := hmoves.turns watched.2
  rw [← hparked] at hturns
  exact ⟨hturns.queued hactive hphase hinvariant.1 hinvariant.2,
    hmoves.closesFirst hinvariant.2⟩

/-- In every interleaving, on a channel of any capacity, parked receivers and
parked senders are served in the order of their registrations. -/
theorem servedInTurn_along (capacity : Nat) (actions : List (Action Op V)) :
    (registering Op V capacity).Along ServedInTurn (initial capacity, {}) actions :=
  Machine.along_of_invariant (fun watched => Queued watched ∧ ClosesFirst watched.1)
    (fun _ _ _ hinvariant hstep => queued_of_step hinvariant hstep)
    (fun _ hinvariant => hinvariant.1.served)
    ⟨initial_queued capacity, by simp [ClosesFirst, initial]⟩

end Tang.Interleaving
