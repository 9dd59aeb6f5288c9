import Tang.Channel.Turns

/-! # What a returned `close` leaves behind

The first caller of `close` sets `closed_`, and empties the waiter lists in a
later critical section. Every other caller, the destructor included, finds the
flag set and returns at once, also while the lists are still full. From the
flush on they are empty for good.
-/

namespace Tang.Interleaving

open Foundation Effect

variable {Op V : Type} [DecidableEq Op]

/-- Nobody is parked now or later, and everybody who has been parked is resumed. -/
structure Emptied (capacity : Nat) (watched : State Op V × Parked Op) : Prop where
  sendWaiters : watched.1.channel.sendWaiters = []
  recvWaiters : watched.1.channel.recvWaiters = []
  resumed : ∀ op ∈ watched.2.senders ++ watched.2.receivers,
    op ∈ deeds .scheduled watched.1.log
  forGood : ∀ later final, (registering Op V capacity).exec watched later = some final →
    final.1.channel.sendWaiters = [] ∧ final.1.channel.recvWaiters = []

/-- Whichever call of `close` returns in a step, it has happened. -/
def ClosedOnReturn (capacity : Nat) (_ : State Op V × Parked Op) (action : Action Op V)
    (after : State Op V × Parked Op) : Prop :=
  ∀ op, action = .closeExchange op ∨ action = .closeFlush op →
    after.1.phase op = .returned → Emptied capacity after

/-- A call that finds `closed_` set is not made between the exchange and the
flush of another one while somebody is parked. -/
def ClosesAfter (watched : State Op V × Parked Op) : Action Op V → Prop
  | .closeExchange _ => watched.1.channel.closed = true →
      (∀ other, watched.1.phase other ≠ .closing) ∨
        watched.1.channel.sendWaiters = [] ∧ watched.1.channel.recvWaiters = []
  | _ => True

/-! ## Between the exchange and the flush -/

/-- A closed channel has been flushed, or its closer is about to. -/
def Settles (state : State Op V) : Prop :=
  state.channel.closed = true → (∃ op, state.phase op = .closing) ∨ state.channel.Flushed

/-- Other operations leave the closer where it is. -/
theorem Settles.keep {state next : State Op V} {op : Op} {phase : Phase V}
    (hsettles : Settles state) (hidle : state.phase op ≠ .closing)
    (hphase : next.phase = Function.update state.phase op phase)
    (hclosed : next.channel.closed = state.channel.closed)
    (hflushed : state.channel.Flushed → next.channel.Flushed) : Settles next := by
  intro hnext
  rcases hsettles (hclosed ▸ hnext) with ⟨closer, hcloser⟩ | hprior
  · have hne : closer ≠ op := fun heq => hidle (heq ▸ hcloser)
    exact Or.inl ⟨closer, by rw [hphase, Function.update_of_ne hne, hcloser]⟩
  · exact Or.inr (hflushed hprior)

theorem Moves.settles {state next : State Op V} {action : Action Op V}
    (hmoves : Moves state action next) (hsettles : Settles state) : Settles next := by
  have hflushed : state.channel.Flushed → next.channel.Flushed :=
    fun hprior => (hmoves.drains hprior).channel
  cases hmoves with
  | flush op hphase =>
      exact fun hclosed => Or.inr (Channel.closeFlush_flushed (by simpa using hclosed))
  | exchange op hphase hopen => exact fun _ => Or.inl ⟨op, by simp⟩
  | send _ op value used _ hphase =>
      exact hsettles.keep (by simp [hphase]) rfl (by simp) hflushed
  | sendFails op value hphase _ =>
      exact hsettles.keep (by simp [hphase]) rfl (by simp) hflushed
  | recv _ op _ hphase =>
      exact hsettles.keep (by simp [hphase]) rfl (by simp) hflushed
  | recvFails op hphase _ _ =>
      exact hsettles.keep (by simp [hphase]) rfl (by simp) hflushed
  | sendSuspend op value hphase =>
      exact hsettles.keep (by simp [hphase]) rfl (by simp) hflushed
  | recvSuspend op hphase =>
      exact hsettles.keep (by simp [hphase]) rfl (by simp) hflushed
  | exchangeClosed op hphase _ =>
      exact hsettles.keep (by simp [hphase]) rfl (by simp) hflushed

/-! ## When a call returns -/

section Returns

variable {capacity : Nat} {watched after : State Op V × Parked Op} {action : Action Op V}

/-- After the flush nobody parks any more, and nobody who has parked is left. -/
theorem Queued.emptied (hqueued : Queued watched) (hflushed : watched.1.channel.Flushed) :
    Emptied capacity watched where
  sendWaiters := hflushed.sendWaiters
  recvWaiters := hflushed.recvWaiters
  resumed op hop := by
    have hsenders := hqueued.served.sendersResumed
    have hreceivers := hqueued.served.receiversResumed
    simp only [hflushed.sendWaiters, hflushed.recvWaiters, List.map_nil, InTurn,
      List.append_nil] at hsenders hreceivers
    rcases List.mem_append.mp hop with hsender | hreceiver
    · rw [← hsenders] at hsender
      exact List.mem_of_mem_filter hsender
    · rw [← hreceivers] at hreceiver
      exact List.mem_of_mem_filter hreceiver
  forGood later final hlater := by
    have hforget : ((registering Op V capacity).exec watched later).map Prod.fst =
        (machine Op V capacity).exec watched.1 later := Machine.recording_exec watched later
    have hexec : (machine Op V capacity).exec watched.1 later = some final.1 := by
      rw [← hforget, hlater]
      rfl
    have hdrained := (drains_of_exec hflushed hexec).channel
    exact ⟨hdrained.sendWaiters, hdrained.recvWaiters⟩

/-- No call of `close` returns in a step of another operation. -/
theorem closedOnReturn_of_other (hother : ∀ op, action ≠ .closeExchange op ∧
    action ≠ .closeFlush op) : ClosedOnReturn capacity watched action after :=
  fun op hclose => (hclose.elim (hother op).1 (hother op).2).elim

/-- A call has happened when it returns exactly if nobody is parked while it
goes by the flag of an unfinished call. -/
theorem closedOnReturn_iff (hqueued : Queued after) (hcloses : ClosesFirst watched.1)
    (hsettles : Settles watched.1) (hmoves : Moves watched.1 action after.1) :
    ClosedOnReturn capacity watched action after ↔ ClosesAfter watched action := by
  obtain ⟨next, parked⟩ := after
  cases hmoves with
  | flush op hphase =>
      refine iff_of_true (fun _ _ _ => hqueued.emptied ?_) trivial
      exact Channel.closeFlush_flushed (hcloses op hphase)
  | exchange op _ hopen =>
      refine iff_of_true (fun other hclose hreturned => ?_) fun hclosed => ?_
      · obtain rfl : op = other := by simpa using hclose
        simp at hreturned
      · simp [hopen] at hclosed
  | exchangeClosed op _ hclosed =>
      constructor
      · intro hreturns _
        have hemptied := hreturns op (Or.inl rfl) (by simp)
        exact Or.inr ⟨hemptied.sendWaiters, hemptied.recvWaiters⟩
      · intro hafter _ _ _
        apply hqueued.emptied
        rcases hafter hclosed with hnone | ⟨hsenders, hreceivers⟩
        · exact (hsettles hclosed).resolve_left fun ⟨closer, hcloser⟩ => hnone closer hcloser
        · exact ⟨hclosed, hsenders, hreceivers⟩
  | send _ op value used haction _ =>
      rcases haction with rfl | rfl | rfl <;>
        exact iff_of_true (closedOnReturn_of_other (by simp)) trivial
  | recv _ op haction _ =>
      rcases haction with rfl | rfl <;>
        exact iff_of_true (closedOnReturn_of_other (by simp)) trivial
  | sendFails => exact iff_of_true (closedOnReturn_of_other (by simp)) trivial
  | recvFails => exact iff_of_true (closedOnReturn_of_other (by simp)) trivial
  | sendSuspend => exact iff_of_true (closedOnReturn_of_other (by simp)) trivial
  | recvSuspend => exact iff_of_true (closedOnReturn_of_other (by simp)) trivial

end Returns

/-- In every run, every call of `close` has happened when it returns exactly if
no call goes by the flag of another one that has not flushed yet while somebody
is parked. -/
theorem closedOnReturn_throughout_iff (capacity : Nat) (actions : List (Action Op V)) :
    (registering Op V capacity).Throughout (ClosedOnReturn capacity) (initial capacity, {})
        actions ↔
      (registering Op V capacity).Meets ClosesAfter (initial capacity, {}) actions := by
  refine Machine.throughout_iff_meets
    (fun watched => (Queued watched ∧ ClosesFirst watched.1) ∧ Settles watched.1) ?_ ?_
    ⟨⟨initial_queued capacity, by simp [ClosesFirst, initial]⟩, by
      simp [Settles, initial, Channel.new]⟩
  · intro watched action after hinvariant hstep
    exact ⟨queued_of_step hinvariant.1 hstep,
      (moves_of_step (Machine.recording_step hstep).1).settles hinvariant.2⟩
  · intro watched action after hinvariant hstep
    exact closedOnReturn_iff (queued_of_step hinvariant.1 hstep).1 hinvariant.1.2 hinvariant.2
      (moves_of_step (Machine.recording_step hstep).1)

/-- Receiver 0 is parked, call 1 has set the flag, and call 2 returns: the
receiver is still parked and has not been resumed. -/
theorem early_return_run :
    (((registering Nat Nat 0).exec (initial 0, {})
      [.recvReady 0, .recvSuspend 0, .closeExchange 1, .closeExchange 2]).map fun watched =>
        (watched.1.phase 1, watched.1.phase 2, watched.2.receivers,
          watched.1.channel.recvWaiters.map RecvWaiter.handle,
          deeds .scheduled watched.1.log)) =
        some (.closing, .returned, [0], [0], []) ∧
      ¬ (registering Nat Nat 0).Throughout (ClosedOnReturn 0) (initial 0, {})
        [.recvReady 0, .recvSuspend 0, .closeExchange 1, .closeExchange 2] := by
  refine ⟨by decide, fun hreturns => ?_⟩
  have hreturn := ((((hreturns _ rfl).2 _ rfl).2 _ rfl).2 _ rfl).1
  have hemptied := hreturn 2 (Or.inl rfl) (by decide)
  exact absurd hemptied.recvWaiters (by decide)

end Tang.Interleaving
