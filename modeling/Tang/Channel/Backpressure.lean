import Tang.Channel.Delivery
import Tang.Channel.Service

/-! # What the completion of a send tells the sender

A send completes when `try_send` returns true, directly or out of
`await_ready`, or when the parked sender is passed to `runtime::schedule`. A
completed send whose value the channel kept is already in `buffer_` or with a
receiver, so completions outrun deliveries by at most the capacity. A send
that `close` refuses or discards completes as well, and looks the same.
-/

namespace Tang

open Effect

variable {H A T R : Type}

/-! ## Who a critical section schedules -/

/-- A handle is scheduled for a receiver, or for a sender whose value is
accepted. -/
def Outcome.Releases (channel : Channel H A T) (receivers : List (RecvWaiter H A))
    (out : Outcome H A T R) : Prop :=
  ∀ handle ∈ schedules out.effects,
    (∃ waiter ∈ channel.recvWaiters ++ receivers, waiter.handle = handle) ∨
      ∃ waiter ∈ channel.sendWaiters, waiter.handle = handle ∧ waiter.value ∈ accepts out.effects

namespace Channel

variable (channel : Channel H A T)

theorem trySendWith_releases (value : T) (used : Option T) :
    (channel.trySendWith value used).Releases channel [] := by
  intro handle hhandle
  rcases channel.trySendWith_cases value used with
    ⟨_, hout⟩ | ⟨waiter, rest, _, hwaiters, hout⟩ | ⟨_, _, _, hout⟩
  · simp [hout] at hhandle
  · have heq : handle = waiter.handle := by simpa [hout] using hhandle
    exact Or.inl ⟨waiter, by simp [hwaiters], heq.symm⟩
  · simp [hout] at hhandle

theorem tryRecv_releases (reader : A) (old : Option T) :
    (channel.tryRecv reader old).Releases channel [] := by
  intro handle hhandle
  rcases channel.tryRecv_cases reader old with
    ⟨front, buffer, waiter, rest, _, hwaiters, hout⟩ | ⟨front, buffer, _, _, hout⟩ |
      ⟨waiter, rest, _, _, hwaiters, hout⟩ | ⟨_, _, hout⟩
  · have heq : handle = waiter.handle := by simpa [hout] using hhandle
    exact Or.inr ⟨waiter, by simp [hwaiters], heq.symm, by simp [hout]⟩
  · simp [hout] at hhandle
  · have heq : handle = waiter.handle := by simpa [hout] using hhandle
    exact Or.inr ⟨waiter, by simp [hwaiters], heq.symm, by simp [hout]⟩
  · simp [hout] at hhandle

theorem registerSendWaiter_releases (hclosed : channel.closed = false) (handle : H) (value : T) :
    (channel.registerSendWaiter handle value).Releases channel [] := by
  intro other hother
  rcases channel.registerSendWaiter_cases handle value with
    ⟨hclosed', _⟩ | ⟨waiter, rest, _, hwaiters, hout⟩ | ⟨_, _, hout⟩
  · simp [hclosed] at hclosed'
  · have heq : other = waiter.handle := by simpa [hout] using hother
    exact Or.inl ⟨waiter, by simp [hwaiters], heq.symm⟩
  · simp [hout] at hother

theorem registerRecvWaiter_releases (handle : H) (awaiter : A) :
    (channel.registerRecvWaiter handle awaiter).Releases channel [⟨handle, awaiter⟩] := by
  intro other hother
  rcases channel.registerRecvWaiter_cases handle awaiter with
    ⟨_, hout⟩ | ⟨waiter, rest, _, hwaiters, hout⟩ | ⟨_, _, hout⟩
  · have heq : other = handle := by simpa [hout] using hother
    exact Or.inl ⟨⟨handle, awaiter⟩, by simp, heq.symm⟩
  · have heq : other = handle ∨ other = waiter.handle := by simpa [hout] using hother
    rcases heq with heq | heq
    · exact Or.inl ⟨⟨handle, awaiter⟩, by simp, heq.symm⟩
    · exact Or.inr ⟨waiter, by simp [hwaiters], heq.symm, by simp [hout]⟩
  · simp [hout] at hother

theorem closeFlush_releases (hsenders : channel.sendWaiters = []) :
    channel.closeFlush.Releases channel [] := by
  intro handle hhandle
  rw [closeFlush_schedules, hsenders, List.map_nil, List.nil_append] at hhandle
  obtain ⟨waiter, hwaiter, heq⟩ := List.mem_map.mp hhandle
  exact Or.inl ⟨waiter, by simpa using hwaiter, heq⟩

end Channel

namespace Interleaving

open Foundation

variable {Op V : Type} {state next : State Op V}

/-- The send of the operation is over for its caller: `try_send` returned true,
or the parked sender has been scheduled. -/
def Completed (state : State Op V) (op : Op) : Prop :=
  .sendReturned op true ∈ state.log ∨ op ∈ schedules (effects state.log)

instance [DecidableEq Op] [DecidableEq V] (op : Op) : Decidable (Completed state op) :=
  inferInstanceAs (Decidable (_ ∨ _))

/-- The completed sends whose value the channel took and `close` did not
discard. -/
def completedSends [DecidableEq Op] [DecidableEq V] (state : State Op V) : List (Item Op V) :=
  (taken state).filter fun item =>
    Completed state item.op ∧ item ∉ discards (effects state.log)

/-- The capacity bounds how far the completed sends are ahead of the
deliveries; without a buffer they are not ahead at all. -/
structure Backpressured [DecidableEq Op] [DecidableEq V] (capacity : Nat)
    (state : State Op V) : Prop where
  inFlight : (completedSends state).length ≤ (received state).length + capacity
  unbuffered : capacity = 0 → ∀ item ∈ completedSends state, item ∈ received state

/-- A completed send put its value into `buffer_` or gave it to a receiver. -/
def NoSilentLoss (state : State Op V) : Prop :=
  ∀ op value, .beganSend op value ∈ state.log → Completed state op →
    ⟨op, value⟩ ∈ accepts (effects state.log)

/-- No sender registers on a closed channel, and no flush finds one parked. -/
def Accommodates (state : State Op V) : Action Op V → Prop
  | .sendSuspend _ => state.channel.closed = false
  | .closeFlush _ => state.channel.sendWaiters = []
  | _ => True

variable [DecidableEq Op] {action : Action Op V}

/-! ## Who is parked -/

/-- What a step of one operation adds to the waiter lists and to the history of
its own send. -/
structure Proceeds (state next : State Op V) (op : Op) (phase : Phase V)
    (events : List (Event Op V)) : Prop where
  active : (state.phase op).finished = false
  moved : next.phase = Function.update state.phase op phase
  begun : phase ≠ .fresh
  log : next.log = state.log ++ events
  began : ∀ other value, .beganSend other value ∈ events →
    other = op ∧ state.phase op = .fresh ∧ phase ≠ .recvTried ∧
      ∀ second, .beganSend other second ∈ events → second = value
  returned : ∀ other success, .sendReturned other success ∈ events →
    other = op ∧ phase = .returned
  tried : phase = .recvTried → state.phase op = .fresh
  senders : ∀ waiter ∈ next.channel.sendWaiters,
    waiter ∈ state.channel.sendWaiters ∨ waiter.handle = waiter.value.op
  receivers : ∀ waiter ∈ next.channel.recvWaiters,
    waiter ∈ state.channel.recvWaiters ∨ waiter.handle = op ∧ state.phase op = .recvTried

theorem Moves.proceeds (hmoves : Moves state action next) :
    ∃ op phase events, Proceeds state next op phase events := by
  cases hmoves with
  | send _ op value used _ hphase =>
      refine ⟨op, .returned, _, by simp [hphase], rfl, by simp, rfl, by simp [hphase], by simp,
        by simp, fun waiter hwaiter => ?_, fun waiter hwaiter => ?_⟩
      · exact Or.inl (((state.channel.trySendWith_serves ⟨op, value⟩ used).mem_sendWaiters
          hwaiter).resolve_right (by simp))
      · exact Or.inl (((state.channel.trySendWith_serves ⟨op, value⟩ used).mem_recvWaiters
          hwaiter).resolve_right (by simp))
  | sendFails op value hphase _ =>
      exact ⟨op, .sendTried value, _, by simp [hphase], rfl, by simp, rfl, by simp [hphase],
        by simp, by simp, fun _ => Or.inl, fun _ => Or.inl⟩
  | recv _ op _ hphase =>
      refine ⟨op, .returned, _, by simp [hphase], rfl, by simp, rfl, by simp, by simp, by simp,
        fun waiter hwaiter => ?_, fun waiter hwaiter => ?_⟩
      · exact Or.inl (((state.channel.tryRecv_serves op none).mem_sendWaiters
          hwaiter).resolve_right (by simp))
      · exact Or.inl (((state.channel.tryRecv_serves op none).mem_recvWaiters
          hwaiter).resolve_right (by simp))
  | recvFails op hphase _ _ =>
      exact ⟨op, .recvTried, _, by simp [hphase], rfl, by simp, rfl, by simp, by simp,
        fun _ => hphase, fun _ => Or.inl, fun _ => Or.inl⟩
  | sendSuspend op value hphase =>
      refine ⟨op, .suspended, _, by simp [hphase], rfl, by simp, rfl, by simp, by simp, by simp,
        fun waiter hwaiter => ?_, fun waiter hwaiter => ?_⟩
      · have hmem := (state.channel.registerSendWaiter_serves op ⟨op, value⟩).mem_sendWaiters
          hwaiter
        refine hmem.imp_right fun hown => ?_
        rw [List.mem_singleton.mp hown]
      · exact Or.inl (((state.channel.registerSendWaiter_serves op ⟨op, value⟩).mem_recvWaiters
          hwaiter).resolve_right (by simp))
  | recvSuspend op hphase =>
      refine ⟨op, .suspended, _, by simp [hphase], rfl, by simp, rfl, by simp, by simp, by simp,
        fun waiter hwaiter => ?_, fun waiter hwaiter => ?_⟩
      · exact Or.inl (((state.channel.registerRecvWaiter_serves op op).mem_sendWaiters
          hwaiter).resolve_right (by simp))
      · have hmem := (state.channel.registerRecvWaiter_serves op op).mem_recvWaiters hwaiter
        refine hmem.imp_right fun hown => ⟨?_, hphase⟩
        rw [List.mem_singleton.mp hown]
  | exchange op hphase _ =>
      exact ⟨op, .closing, _, by simp [hphase], rfl, by simp, rfl, by simp, by simp, by simp,
        fun _ => Or.inl, fun _ => Or.inl⟩
  | exchangeClosed op hphase _ =>
      exact ⟨op, .returned, _, by simp [hphase], rfl, by simp, rfl, by simp, by simp, by simp,
        fun _ => Or.inl, fun _ => Or.inl⟩
  | flush op hphase =>
      exact ⟨op, .returned, _, by simp [hphase], rfl, by simp, rfl, by simp, by simp, by simp,
        by simp, by simp⟩

/-- Senders and receivers stay apart: an operation begins one send or none, a
parked value belongs to the handle parked with it, and no receiver has begun a
send. -/
structure SendersApart (state : State Op V) : Prop where
  suspended : OnlySuspended state
  once : ∀ op, wakeups state op ≤ 1
  returned : ∀ op success, .sendReturned op success ∈ state.log → state.phase op = .returned
  own : ∀ waiter ∈ state.channel.sendWaiters, waiter.handle = waiter.value.op
  fresh : ∀ op value, .beganSend op value ∈ state.log →
    state.phase op ≠ .fresh ∧ state.phase op ≠ .recvTried
  unique : ∀ op first second, .beganSend op first ∈ state.log →
    .beganSend op second ∈ state.log → first = second
  receivers : ∀ waiter ∈ state.channel.recvWaiters, ∀ value,
    .beganSend waiter.handle value ∉ state.log

theorem initial_sendersApart (capacity : Nat) :
    SendersApart (initial capacity : State Op V) := by
  constructor <;> simp [initial, OnlySuspended, wakeups, scheduled, Channel.stored, Channel.new]

/-- Parked handles belong to suspended operations. -/
theorem OnlySuspended.phase_of_receiver (honly : OnlySuspended state)
    {waiter : RecvWaiter Op Op} (hwaiter : waiter ∈ state.channel.recvWaiters) :
    state.phase waiter.handle = .suspended := by
  by_contra hphase
  have hnone := honly _ hphase
  have hparked := List.count_pos_iff.mpr (List.mem_map_of_mem (f := RecvWaiter.handle) hwaiter)
  simp only [wakeups, Channel.stored] at hnone
  omega

theorem Moves.wakeups_le_one (hmoves : Moves state action next) (honly : OnlySuspended state)
    (honce : ∀ op, wakeups state op ≤ 1) (other : Op) : wakeups next other ≤ 1 := by
  obtain ⟨op, phase, registered, _, hbefore, hsum, hcases⟩ := hmoves.wakeups_balance
  have hprior := honce other
  rw [hsum other]
  by_cases heq : other = op
  · subst other
    have hnone := honly op hbefore
    rcases hcases with ⟨_, rfl, _⟩ | ⟨_, rfl, _⟩ | ⟨_, rfl, _⟩ <;> simp [hnone]
  · rcases hcases with ⟨_, rfl, _⟩ | ⟨_, rfl, _⟩ | ⟨_, rfl, _⟩
    · simpa using hprior
    · simpa [Ne.symm heq] using hprior
    · simpa using hprior

theorem Moves.sendersApart (hmoves : Moves state action next) (hapart : SendersApart state) :
    SendersApart next := by
  obtain ⟨op, phase, events, hproceeds⟩ := hmoves.proceeds
  have hother : ∀ other, other ≠ op → next.phase other = state.phase other := by
    intro other hne
    rw [hproceeds.moved, Function.update_of_ne hne]
  have hself : next.phase op = phase := by rw [hproceeds.moved, Function.update_self]
  refine ⟨hmoves.onlySuspended hapart.suspended,
    hmoves.wakeups_le_one hapart.suspended hapart.once, ?_, ?_, ?_, ?_, ?_⟩
  · intro other success hreturned
    rw [hproceeds.log, List.mem_append] at hreturned
    rcases hreturned with hreturned | hreturned
    · have hprior := hapart.returned other success hreturned
      -- A call that returned takes no further step.
      have hne : other ≠ op := by
        rintro rfl
        simpa [hprior] using hproceeds.active
      rwa [hother other hne]
    · obtain ⟨rfl, hphase⟩ := hproceeds.returned other success hreturned
      rwa [hself]
  · intro waiter hwaiter
    rcases hproceeds.senders waiter hwaiter with hold | hnew
    · exact hapart.own waiter hold
    · exact hnew
  · intro other value hbegan
    rw [hproceeds.log, List.mem_append] at hbegan
    rcases hbegan with hbegan | hbegan
    · have hprior := hapart.fresh other value hbegan
      by_cases heq : other = op
      · subst other
        rw [hself]
        exact ⟨hproceeds.begun, fun htried => hprior.1 (hproceeds.tried htried)⟩
      · rwa [hother other heq]
    · obtain ⟨rfl, _, hphase, _⟩ := hproceeds.began other value hbegan
      rw [hself]
      exact ⟨hproceeds.begun, hphase⟩
  · intro other first second hfirst hsecond
    rw [hproceeds.log, List.mem_append] at hfirst hsecond
    rcases hfirst with hfirst | hfirst
    · rcases hsecond with hsecond | hsecond
      · exact hapart.unique other first second hfirst hsecond
      · obtain ⟨rfl, hphase, _⟩ := hproceeds.began other second hsecond
        exact absurd hphase (hapart.fresh other first hfirst).1
    · obtain ⟨rfl, hphase, _, honly⟩ := hproceeds.began other first hfirst
      rcases hsecond with hsecond | hsecond
      · exact absurd hphase (hapart.fresh other second hsecond).1
      · exact (honly second hsecond).symm
  · intro waiter hwaiter value hbegan
    rw [hproceeds.log, List.mem_append] at hbegan
    rcases hproceeds.receivers waiter hwaiter with hold | ⟨hnew, htried⟩
    · rcases hbegan with hbegan | hbegan
      · exact hapart.receivers waiter hold value hbegan
      · obtain ⟨heq, hphase, _⟩ := hproceeds.began _ value hbegan
        have hsuspended := hapart.suspended.phase_of_receiver hold
        simp [heq, hphase] at hsuspended
    · rw [hnew] at hbegan
      rcases hbegan with hbegan | hbegan
      · exact (hapart.fresh op value hbegan).2 htried
      · obtain ⟨_, hphase, _⟩ := hproceeds.began op value hbegan
        simp [hphase] at htried

/-- A parked handle has not been scheduled. -/
theorem SendersApart.not_scheduled_of_parked (hapart : SendersApart state)
    {waiter : SendWaiter Op (Item Op V)} (hparked : waiter ∈ state.channel.sendWaiters) :
    waiter.value.op ∉ schedules (effects state.log) := by
  intro hscheduled
  have honce := hapart.once waiter.value.op
  have hstored := List.count_pos_iff.mpr (List.mem_map_of_mem (f := SendWaiter.handle) hparked)
  have hcount := List.count_pos_iff.mpr hscheduled
  rw [hapart.own waiter hparked] at hstored
  simp only [wakeups, Channel.stored, scheduled] at honce
  omega

/-- A handle is scheduled only when its operation has registered. -/
theorem SendersApart.suspended_of_scheduled (hapart : SendersApart state) {op : Op}
    (hscheduled : op ∈ schedules (effects state.log)) : state.phase op = .suspended := by
  by_contra hphase
  have hnone := hapart.suspended op hphase
  have hcount := List.count_pos_iff.mpr hscheduled
  simp only [wakeups, scheduled] at hnone
  omega

theorem SendersApart.finished_of_completed (hapart : SendersApart state) {op : Op}
    (hcompleted : Completed state op) : (state.phase op).finished = true := by
  rcases hcompleted with hreturned | hscheduled
  · simp [hapart.returned op true hreturned]
  · simp [hapart.suspended_of_scheduled hscheduled]

/-- A send whose value is parked is not over. -/
theorem SendersApart.not_completed_of_parked (hapart : SendersApart state)
    {waiter : SendWaiter Op (Item Op V)} (hparked : waiter ∈ state.channel.sendWaiters) :
    ¬ Completed state waiter.value.op := by
  rintro (hreturned | hscheduled)
  · have hphase := hapart.returned _ true hreturned
    have hstored := List.count_pos_iff.mpr (List.mem_map_of_mem (f := SendWaiter.handle) hparked)
    have hnone := hapart.suspended waiter.value.op (by simp [hphase])
    rw [hapart.own waiter hparked] at hstored
    simp only [wakeups, Channel.stored] at hnone
    omega
  · exact hapart.not_scheduled_of_parked hparked hscheduled

/-! ## Who a step schedules -/

/-- Whoever is parked or about to register as a receiver stays without a send. -/
theorem SendersApart.not_began (hapart : SendersApart state) (hmoves : Moves state action next)
    (receivers : List (RecvWaiter Op Op))
    (htried : ∀ waiter ∈ receivers, state.phase waiter.handle = .recvTried) :
    ∀ waiter ∈ state.channel.recvWaiters ++ receivers, ∀ value,
      .beganSend waiter.handle value ∉ next.log := by
  obtain ⟨op, phase, events, hproceeds⟩ := hmoves.proceeds
  intro waiter hwaiter value hbegan
  rw [hproceeds.log, List.mem_append] at hbegan
  rcases List.mem_append.mp hwaiter with hparked | hregisters
  · rcases hbegan with hbegan | hbegan
    · exact hapart.receivers waiter hparked value hbegan
    · obtain ⟨heq, hphase, _⟩ := hproceeds.began _ value hbegan
      have hsuspended := hapart.suspended.phase_of_receiver hparked
      simp [heq, hphase] at hsuspended
  · have hphase := htried waiter hregisters
    rcases hbegan with hbegan | hbegan
    · exact (hapart.fresh _ value hbegan).2 hphase
    · obtain ⟨heq, hfresh, _⟩ := hproceeds.began _ value hbegan
      simp [heq, hfresh] at hphase

/-- A step that accommodates the senders schedules receivers, and senders whose
value it accepts. -/
theorem Moves.releases (hmoves : Moves state action next)
    (hcondition : Accommodates state action) :
    ∃ (R : Type) (out : Outcome Op Op (Item Op V) R) (receivers : List (RecvWaiter Op Op)),
      out.Releases state.channel receivers ∧
        effects next.log = effects state.log ++ out.effects ∧
        ∀ waiter ∈ receivers, state.phase waiter.handle = .recvTried := by
  have hidle : (⟨(), state.channel, []⟩ : Outcome Op Op (Item Op V) Unit).Releases
      state.channel [] := fun handle hhandle => absurd hhandle List.not_mem_nil
  cases hmoves with
  | send _ op value used _ _ =>
      exact ⟨_, _, [], state.channel.trySendWith_releases ⟨op, value⟩ used, by simp, by simp⟩
  | sendFails op value _ _ => exact ⟨_, _, [], hidle, by simp, by simp⟩
  | recv _ op _ _ =>
      exact ⟨_, _, [], state.channel.tryRecv_releases op none, by simp, by simp⟩
  | recvFails op _ _ _ => exact ⟨_, _, [], hidle, by simp, by simp⟩
  | sendSuspend op value _ =>
      exact ⟨_, _, [], state.channel.registerSendWaiter_releases hcondition op ⟨op, value⟩,
        by simp, by simp⟩
  | recvSuspend op hphase =>
      exact ⟨_, _, [⟨op, op⟩], state.channel.registerRecvWaiter_releases op op, by simp,
        by simpa using hphase⟩
  | exchange op _ _ => exact ⟨_, _, [], hidle, by simp, by simp⟩
  | exchangeClosed op _ _ => exact ⟨_, _, [], hidle, by simp, by simp⟩
  | flush op _ =>
      exact ⟨_, _, [], state.channel.closeFlush_releases hcondition, by simp, by simp⟩

/-- An attempt that returns true has its value accepted. -/
theorem Moves.returned_accepted (hmoves : Moves state action next) {op : Op}
    (hreturned : .sendReturned op true ∈ next.log) :
    .sendReturned op true ∈ state.log ∨
      ∃ value, .beganSend op value ∈ next.log ∧ ⟨op, value⟩ ∈ accepts (effects next.log) := by
  cases hmoves with
  | send _ sender value used _ _ =>
      rcases state.channel.trySendWith_cases ⟨sender, value⟩ used with
        ⟨_, hout⟩ | ⟨waiter, rest, _, _, hout⟩ | ⟨_, _, _, hout⟩
      · exact Or.inl (by simpa [State.sendReturns, hout] using hreturned)
      · have hmem : .sendReturned op true ∈ state.log ∨ op = sender := by
          simpa [State.sendReturns, hout] using hreturned
        apply hmem.imp_right
        rintro rfl
        exact ⟨value, by simp [State.sendReturns], by simp [hout]⟩
      · have hmem : .sendReturned op true ∈ state.log ∨ op = sender := by
          simpa [State.sendReturns, hout] using hreturned
        apply hmem.imp_right
        rintro rfl
        exact ⟨value, by simp [State.sendReturns], by simp [hout]⟩
  | sendFails sender value _ _ => exact Or.inl (by simpa using hreturned)
  | recv _ receiver _ _ => exact Or.inl (by simpa [State.recvReturns] using hreturned)
  | recvFails receiver _ _ _ => exact Or.inl (by simpa using hreturned)
  | sendSuspend sender value _ => exact Or.inl (by simpa [State.suspends] using hreturned)
  | recvSuspend receiver _ => exact Or.inl (by simpa [State.suspends] using hreturned)
  | exchange closer _ _ => exact Or.inl (by simpa using hreturned)
  | exchangeClosed closer _ _ => exact Or.inl (by simpa using hreturned)
  | flush closer _ => exact Or.inl (by simpa [State.flushes] using hreturned)

/-! ## No silent loss -/

section Loss

variable [DecidableEq V]

theorem Ledger.taken_of_accepted (hledger : Ledger state) {item : Item Op V}
    (haccepted : item ∈ accepts (effects state.log)) : item ∈ taken state := by
  have hheld := hledger.balanced.held item
  have hcount := List.count_pos_iff.mpr haccepted
  exact List.count_pos_iff.mp (by omega)

theorem Ledger.taken_of_parked (hledger : Ledger state) {waiter : SendWaiter Op (Item Op V)}
    (hparked : waiter ∈ state.channel.sendWaiters) : waiter.value ∈ taken state := by
  have hheld := hledger.balanced.held waiter.value
  have hcount := List.count_pos_iff.mpr (List.mem_map_of_mem (f := SendWaiter.value) hparked)
  exact List.count_pos_iff.mp (by omega)

/-- A parked value has not been accepted. -/
theorem Ledger.not_accepted_of_parked (hledger : Ledger state)
    {waiter : SendWaiter Op (Item Op V)} (hparked : waiter ∈ state.channel.sendWaiters) :
    waiter.value ∉ accepts (effects state.log) := by
  intro haccepted
  have hheld := hledger.balanced.held waiter.value
  have hcount := List.count_pos_iff.mpr (List.mem_map_of_mem (f := SendWaiter.value) hparked)
  have hboth := List.count_pos_iff.mpr haccepted
  have honce := List.nodup_iff_count_le_one.mp hledger.taken_nodup waiter.value
  omega

/-- An operation with steps left has not handed anything over. -/
theorem Ledger.not_accepted_of_active (hledger : Ledger state) {op : Op} {value : V}
    (hactive : (state.phase op).finished = false) :
    ⟨op, value⟩ ∉ accepts (effects state.log) := by
  intro haccepted
  have htaken := List.mem_map_of_mem (f := Item.op) (hledger.taken_of_accepted haccepted)
  have honce := hledger.sentOnce.once op
  rw [hactive] at honce
  simp only [Bool.false_eq_true, if_false] at honce
  exact List.count_eq_zero.mp (Nat.le_zero.mp honce) htaken

/-- Only receivers, and senders whose value is accepted, are newly scheduled. -/
theorem SendersApart.scheduled_of_releases {R : Type} {out : Outcome Op Op (Item Op V) R}
    {receivers : List (RecvWaiter Op Op)} (hapart : SendersApart state) (hledger : Ledger state)
    (hapartNext : SendersApart next) (hreleases : out.Releases state.channel receivers)
    (hsublog : state.log ⊆ next.log)
    (heffects : effects next.log = effects state.log ++ out.effects)
    (hreceivers : ∀ waiter ∈ state.channel.recvWaiters ++ receivers, ∀ value,
      .beganSend waiter.handle value ∉ next.log)
    {op : Op} {value : V} (hbegan : .beganSend op value ∈ next.log)
    (hscheduled : op ∈ schedules (effects next.log)) :
    op ∈ schedules (effects state.log) ∨ ⟨op, value⟩ ∈ accepts (effects next.log) := by
  rw [heffects, schedules, collect_append, List.mem_append] at hscheduled
  refine hscheduled.imp_right fun hnew => ?_
  rcases hreleases op hnew with ⟨waiter, hwaiter, rfl⟩ | ⟨waiter, hwaiter, rfl, haccepted⟩
  · exact absurd hbegan (hreceivers waiter hwaiter value)
  · -- The parked value is the one the operation began to send.
    have howner := hapart.own waiter hwaiter
    have hsent := hsublog (hledger.sentOnce.sent _ (hledger.taken_of_parked hwaiter))
    rw [← howner] at hsent
    have hvalue := hapartNext.unique _ value _ hbegan hsent
    rw [heffects, accepts, collect_append, List.mem_append]
    apply Or.inr
    rw [hvalue, howner]
    exact haccepted

/-- A step that accommodates the senders completes a send only with its value
accepted. -/
theorem Moves.accepts_of_completed (hmoves : Moves state action next)
    (hapart : SendersApart state) (hledger : Ledger state)
    (hcondition : Accommodates state action) {op : Op} {value : V}
    (hbegan : .beganSend op value ∈ next.log) (hcompleted : Completed next op) :
    Completed state op ∨ ⟨op, value⟩ ∈ accepts (effects next.log) := by
  have hapartNext := hmoves.sendersApart hapart
  rcases hcompleted with hreturned | hscheduled
  · rcases hmoves.returned_accepted hreturned with hold | ⟨v, hsent, haccepted⟩
    · exact Or.inl (Or.inl hold)
    · rw [hapartNext.unique op value v hbegan hsent]
      exact Or.inr haccepted
  · obtain ⟨R, out, receivers, hreleases, heffects, htried⟩ := hmoves.releases hcondition
    obtain ⟨_, _, events, hproceeds⟩ := hmoves.proceeds
    have hsublog : state.log ⊆ next.log := hproceeds.log ▸ List.subset_append_left _ _
    have hmem := hapart.scheduled_of_releases hledger hapartNext hreleases hsublog heffects
      (hapart.not_began hmoves receivers htried) hbegan hscheduled
    exact hmem.imp_left Or.inr

/-- A sender that registers on a closed channel is scheduled, and its value is
gone. -/
theorem NoSilentLoss.open_of_registers (hledger : Ledger state) {op : Op} {value : V}
    (hphase : state.phase op = .sendTried value)
    (hnext : NoSilentLoss
      (state.suspends op (state.channel.registerSendWaiter op ⟨op, value⟩))) :
    state.channel.closed = false := by
  cases hclosed : state.channel.closed with
  | false => rfl
  | true =>
      have hout : state.channel.registerSendWaiter op ⟨op, value⟩ =
          ⟨(), state.channel, [.schedule op]⟩ := by
        simp [Channel.registerSendWaiter, hclosed]
      rw [hout] at hnext
      have hbegan := hledger.sentOnce.tried op value hphase
      have hmem := hnext op value (by simp [State.suspends, hbegan])
        (Or.inr (by simp [State.suspends]))
      have hkept : ⟨op, value⟩ ∈ accepts (effects state.log) := by
        simpa [State.suspends] using hmem
      exact absurd hkept (hledger.not_accepted_of_active (by simp [hphase]))

/-- A flush that finds a parked sender schedules it and discards its value. -/
theorem NoSilentLoss.unparked_of_flushes (hapart : SendersApart state) (hledger : Ledger state)
    {op : Op} (hnext : NoSilentLoss (state.flushes op state.channel.closeFlush)) :
    state.channel.sendWaiters = [] := by
  cases hwaiters : state.channel.sendWaiters with
  | nil => rfl
  | cons waiter rest =>
      have hparked : waiter ∈ state.channel.sendWaiters := by simp [hwaiters]
      have hbegan := hledger.sentOnce.sent _ (hledger.taken_of_parked hparked)
      have hscheduled : waiter.value.op ∈
          schedules (effects (state.flushes op state.channel.closeFlush).log) := by
        simp [hwaiters, hapart.own waiter hparked]
      have hmem := hnext waiter.value.op waiter.value.value
        (by simp [State.flushes, hbegan]) (Or.inr hscheduled)
      have hkept : waiter.value ∈ accepts (effects state.log) := by simpa using hmem
      exact absurd hkept (hledger.not_accepted_of_parked hparked)

/-- Out of a state without silent losses, exactly the steps that do not
accommodate the senders lose one. -/
theorem Moves.noSilentLoss_iff (hmoves : Moves state action next) (hapart : SendersApart state)
    (hledger : Ledger state) (hsilent : NoSilentLoss state) :
    NoSilentLoss next ↔ Accommodates state action := by
  constructor
  · intro hnext
    cases hmoves with
    | send _ op value used haction _ => rcases haction with rfl | rfl | rfl <;> trivial
    | recv _ op haction _ => rcases haction with rfl | rfl <;> trivial
    | sendFails | recvFails | recvSuspend | exchange | exchangeClosed => trivial
    | sendSuspend op value hphase => exact hnext.open_of_registers hledger hphase
    | flush op _ => exact hnext.unparked_of_flushes hapart hledger
  · intro hcondition op value hbegan hcompleted
    rcases hmoves.accepts_of_completed hapart hledger hcondition hbegan hcompleted with
      hold | haccepted
    · -- A send that was over before began before, and its value stays accepted.
      obtain ⟨_, _, events, hproceeds⟩ := hmoves.proceeds
      rw [hproceeds.log, effects_append, accepts, collect_append, List.mem_append]
      refine Or.inl (hsilent op value ?_ hold)
      rw [hproceeds.log, List.mem_append] at hbegan
      refine hbegan.resolve_right fun hnew => ?_
      obtain ⟨rfl, hfresh, _⟩ := hproceeds.began op value hnew
      have hfinished := hapart.finished_of_completed hold
      rw [hfresh] at hfinished
      cases hfinished
    · exact haccepted

end Loss

/-- A run on a channel of any capacity loses no value silently exactly if no
sender registers on a closed channel and no flush finds a sender parked. -/
theorem noSilentLoss_along_iff [DecidableEq V] (capacity : Nat) (actions : List (Action Op V)) :
    (machine Op V capacity).Along NoSilentLoss (initial capacity) actions ↔
      (machine Op V capacity).Meets Accommodates (initial capacity) actions := by
  apply Machine.along_iff_meets fun state => SendersApart state ∧ Ledger state
  · rintro state action next ⟨hapart, hledger⟩ _ _ hstep
    have hmoves := moves_of_step hstep
    exact ⟨hmoves.sendersApart hapart, hmoves.ledger hledger⟩
  · rintro state action next ⟨hapart, hledger⟩ hsilent hstep
    exact (moves_of_step hstep).noSilentLoss_iff hapart hledger hsilent
  · exact ⟨initial_sendersApart capacity, initial_ledger capacity⟩
  · exact fun _ _ hbegan => absurd hbegan List.not_mem_nil

/-- A send that meets a closed channel is scheduled at once: its `co_await`
completes, and 7 is nowhere. -/
theorem silent_loss_run :
    ¬ (machine Nat Nat 1).Along NoSilentLoss (initial 1)
      [.closeExchange 0, .sendReady 1 7, .sendSuspend 1] := by
  intro halong
  have hlast := halong.last rfl
  exact absurd (hlast 1 7 (by decide) (by decide)) (by decide)

/-! ## Backpressure -/

section Bound

variable [DecidableEq V]

theorem Ledger.accepts_perm (hledger : Ledger state) :
    (accepts (effects state.log)).Perm (received state ++ state.channel.buffer) := by
  rw [List.perm_iff_count]
  intro item
  rw [List.count_append]
  exact hledger.balanced.settled item

/-- A completed send whose value was kept has its value accepted. -/
theorem completedSends_subset_accepts (hapart : SendersApart state) (hledger : Ledger state) :
    completedSends state ⊆ accepts (effects state.log) := by
  intro item hitem
  obtain ⟨htaken, hcondition⟩ := List.mem_filter.mp hitem
  obtain ⟨hcompleted, hkept⟩ := of_decide_eq_true hcondition
  have hparked : item ∉ state.channel.sendWaiters.map SendWaiter.value := by
    intro hmem
    obtain ⟨waiter, hwaiter, rfl⟩ := List.mem_map.mp hmem
    exact hapart.not_completed_of_parked hwaiter hcompleted
  have hheld := hledger.balanced.held item
  have hcount := List.count_pos_iff.mpr htaken
  rw [List.count_eq_zero.mpr hparked, List.count_eq_zero.mpr hkept] at hheld
  exact List.count_pos_iff.mp (by omega)

theorem backpressured_of_invariants {capacity : Nat} (hapart : SendersApart state)
    (hledger : Ledger state) (hwf : state.channel.WellFormed)
    (hcapacity : state.channel.capacity = capacity) : Backpressured capacity state := by
  have hsubset : completedSends state ⊆ received state ++ state.channel.buffer := fun item hitem =>
    hledger.accepts_perm.subset (completedSends_subset_accepts hapart hledger hitem)
  have hbounded := hwf.bounded
  rw [hcapacity] at hbounded
  constructor
  · have hnodup : (completedSends state).Nodup := hledger.taken_nodup.filter _
    have hlength := (List.subperm_of_subset hnodup hsubset).length_le
    rw [List.length_append] at hlength
    omega
  · rintro rfl item hitem
    have hmem := hsubset hitem
    rwa [List.length_eq_zero_iff.mp (Nat.le_zero.mp hbounded), List.append_nil] at hmem

/-- In every interleaving, on a channel of any capacity, the completed sends
that were kept exceed the deliveries by at most the capacity. -/
theorem backpressured_along (capacity : Nat) (actions : List (Action Op V)) :
    (machine Op V capacity).Along (Backpressured capacity) (initial capacity) actions := by
  apply Machine.along_of_invariant fun state => SendersApart state ∧ Ledger state ∧
    state.channel.WellFormed ∧ state.channel.capacity = capacity
  · rintro state action next ⟨hapart, hledger, hwf, hcapacity⟩ hstep
    have hmoves := moves_of_step hstep
    exact ⟨hmoves.sendersApart hapart, hmoves.ledger hledger, hmoves.wellFormed hwf,
      hmoves.capacity.trans hcapacity⟩
  · rintro state ⟨hapart, hledger, hwf, hcapacity⟩
    exact backpressured_of_invariants hapart hledger hwf hcapacity
  · exact ⟨initial_sendersApart capacity, initial_ledger capacity,
      Channel.new_wellFormed capacity, rfl⟩

end Bound

end Interleaving

end Tang
