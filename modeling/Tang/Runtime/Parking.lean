import Tang.Channel.Service
import Tang.Runtime.Resumption

/-! # Parked until the channel wakes

The waiter lists, the threads that register a waiter, and the frames agree on
which coroutine waits in which await, as long as nobody schedules a coroutine
whose wake-up somebody else holds. A coroutine that is resumed out of an await
on a channel has left the waiter lists with its answer then.
-/

namespace Tang.Runtime

open Foundation Effect

variable {Thread V Chan : Type}

/-! ## Answers in the frame -/

section Latest

variable {A B : Type} [DecidableEq A] {key : A} {writes : List (A × B)}

theorem latest_of_notMem (old : Option B) (hkey : key ∉ writes.map Prod.fst) :
    latest key writes old = old := by
  induction writes generalizing old with
  | nil => rfl
  | cons write rest ih =>
      obtain ⟨hfirst, hrest⟩ := not_or.mp (mt List.mem_cons.mpr hkey)
      simpa [latest, Ne.symm hfirst] using ih old hrest

/-- A key that is written to holds the value of one of the writes. -/
theorem latest_of_mem (old : Option B) (hkey : key ∈ writes.map Prod.fst) :
    ∃ value, (key, value) ∈ writes ∧ latest key writes old = some value := by
  induction writes generalizing old with
  | nil => cases hkey
  | cons write rest ih =>
      by_cases hrest : key ∈ rest.map Prod.fst
      · obtain ⟨value, hvalue, hlatest⟩ := ih (if write.1 = key then some write.2 else old) hrest
        exact ⟨value, List.mem_cons_of_mem _ hvalue, hlatest⟩
      · have hfirst : key = write.1 := (List.mem_cons.mp hkey).resolve_right hrest
        have hkept := latest_of_notMem (some write.2) hrest
        exact ⟨write.2, by simp [hfirst], by simpa [latest, hfirst] using hkept⟩

end Latest

/-- The await is over: the value of the send was accepted or the channel is
closed, or the receive was answered. -/
def Point.Settled (channels : Chan → Conduit V) : Point V Chan → Prop
  | .send channel taken => taken = true ∨ (channels channel).closed = true
  | .recv channel value answer => (answer = some true ∧ value.isSome = true) ∨
      (answer = some false ∧ (channels channel).closed = true)
  | .yield | .sleep | .task _ => True

instance (channels : Chan → Conduit V) : (point : Point V Chan) →
    Decidable (point.Settled channels)
  | .send channel taken =>
      inferInstanceAs (Decidable (taken = true ∨ (channels channel).closed = true))
  | .recv channel value answer =>
      inferInstanceAs (Decidable ((answer = some true ∧ value.isSome = true) ∨
        (answer = some false ∧ (channels channel).closed = true)))
  | .yield | .sleep | .task _ => inferInstanceAs (Decidable True)

theorem Point.Settled.mono {before after : Chan → Conduit V} {point : Point V Chan}
    (hsettled : point.Settled before)
    (hclosed : ∀ channel, (before channel).closed = true → (after channel).closed = true) :
    point.Settled after := by
  cases point with
  | send channel taken => exact hsettled.imp_right (hclosed channel)
  | recv channel value answer => exact hsettled.imp_right fun h => ⟨h.1, hclosed channel h.2⟩
  | _ => trivial

/-- The frame is in the same await as before. -/
structure Frame.SameAwait (before after : Frame V Chan) : Prop where
  status : after.status = before.status
  serial : after.serial = before.serial

theorem Frame.SameAwait.refl (frame : Frame V Chan) : frame.SameAwait frame := ⟨rfl, rfl⟩

theorem Frame.SameAwait.trans {first second third : Frame V Chan}
    (hfirst : first.SameAwait second) (hsecond : second.SameAwait third) :
    first.SameAwait third :=
  ⟨hsecond.status.trans hfirst.status, hsecond.serial.trans hfirst.serial⟩

theorem Frame.sameAwait_of_ne {frames : Handle → Frame V Chan} {frame : Frame V Chan}
    {focus other : Handle} (hne : other ≠ focus) :
    (frames other).SameAwait (Function.update frames focus frame other) := by
  rw [Function.update_of_ne hne]
  exact .refl _

/-- Replacing a frame by one in the same await changes no await. -/
theorem Frame.sameAwait_update {frames : Handle → Frame V Chan} {frame : Frame V Chan}
    {focus : Handle} (hframe : (frames focus).SameAwait frame) (handle : Handle) :
    (frames handle).SameAwait (Function.update frames focus frame handle) :=
  (Function.forall_update_iff frames fun other after => (frames other).SameAwait after).mpr
    ⟨hframe, fun _ _ => .refl _⟩ handle

theorem State.sameAwait_awaitResume (state : State Thread V Chan) (parent : Handle)
    (source : Nat) (handle : Handle) :
    (state.frames handle).SameAwait ((state.awaitResume parent source).frames handle) := by
  obtain ⟨result, hframe⟩ := state.awaitResume_frame parent source handle
  rw [hframe]
  exact ⟨rfl, rfl⟩

section Absorb

variable {frame : Frame V Chan} {handle : Handle} {effects : List (Signal V)}

/-- Effects that name another await leave the frame as it is. -/
theorem Frame.absorb_of_notMem
    (haccepted : some ⟨handle, frame.serial⟩ ∉ (accepts effects).map Item.op)
    (hdelivered : some ⟨handle, frame.serial⟩ ∉ (delivers effects).map Prod.fst)
    (hanswered : some ⟨handle, frame.serial⟩ ∉ (results effects).map Prod.fst) :
    frame.absorb handle effects = frame := by
  have hstatus : frame.status.absorb (some ⟨handle, frame.serial⟩) effects = frame.status := by
    unfold Status.absorb
    split
    next channel taken hstatus =>
      have hnone : ((accepts effects).any fun item => item.op = some ⟨handle, frame.serial⟩) =
          false := by
        refine List.any_eq_false.mpr fun item hitem => ?_
        simpa using fun hop => haccepted (List.mem_map.mpr ⟨item, hitem, hop⟩)
      rw [hnone, Bool.or_false, hstatus]
    next channel value answer hstatus =>
      have hvalues : some ⟨handle, frame.serial⟩ ∉
          ((delivers effects).map fun write => (write.1, write.2.value)).map Prod.fst := by
        simpa [List.map_map, Function.comp_def] using hdelivered
      rw [latest_of_notMem _ hvalues, latest_of_notMem _ hanswered, hstatus]
    next => rfl
  rw [Frame.absorb, hstatus]

/-- Only awaits on a channel absorb anything. -/
theorem Frame.absorb_of_not_suspended (hstatus : frame.suspended = false) :
    frame.absorb handle effects = frame := by
  have hsame : frame.status.absorb (some ⟨handle, frame.serial⟩) effects = frame.status := by
    unfold Status.absorb
    split
    next hsend => simp [Frame.suspended, hsend] at hstatus
    next hrecv => simp [Frame.suspended, hrecv] at hstatus
    next => rfl
  rw [Frame.absorb, hsame]

end Absorb

/-! ## Registering threads -/

/-- The await whose waiter the activity registers. -/
@[simp] def Activity.parks? : Activity V Chan → Option (Handle × Point V Chan)
  | .registeringSend handle channel _ => some (handle, .send channel false)
  | .registeringRecv handle channel => some (handle, .recv channel none none)
  | .body _ | .afterResume _ | .popped _ | .resuming _ | .scheduling _ | .starting _ => none
  | .enqueuing _ | .completing | .decrementing | .flushing _ | .destroying _ => none

/-- The awaits whose waiters the threads of one stack register. -/
def parking (stack : List (Activity V Chan)) : List (Handle × Point V Chan) :=
  stack.filterMap Activity.parks?

@[simp] theorem parking_nil : parking ([] : List (Activity V Chan)) = [] := rfl

@[simp] theorem parking_cons (activity : Activity V Chan) (stack : List (Activity V Chan)) :
    parking (activity :: stack) = activity.parks?.toList ++ parking stack := by
  simp only [parking, List.filterMap_eq_flatMap_toList, List.flatMap_cons]

@[simp] theorem parking_append (above below : List (Activity V Chan)) :
    parking (above ++ below) = parking above ++ parking below :=
  List.filterMap_append

@[simp] theorem parking_map_scheduling (handles : List Handle) :
    parking (handles.map (Activity.scheduling : Handle → Activity V Chan)) = [] := by
  simp [parking, List.filterMap_map, Function.comp_def]

theorem parking_of_destroysOnly {activities : List (Activity V Chan)}
    (hdestroys : DestroysOnly activities) :
    parking activities = [] ∧ ∀ channel, .flushing channel ∉ activities := by
  refine ⟨List.filterMap_eq_nil_iff.mpr fun activity hactivity => ?_, fun channel hmem => ?_⟩
  · rcases hdestroys activity hactivity with rfl | ⟨_, rfl⟩ <;> rfl
  · rcases hdestroys _ hmem with h | ⟨_, h⟩ <;> cases h

theorem Follows.parking {activity : Activity V Chan} {after : List (Activity V Chan)}
    (hfollows : Follows activity after) :
    parking [activity] = [] ∧ parking after = [] ∧ ∀ channel, .flushing channel ∉ after := by
  cases hfollows <;> simp

/-- How many waiters of the coroutine one stack registers. -/
def registering (handle : Handle) (stack : List (Activity V Chan)) : Nat :=
  ((parking stack).map Prod.fst).count handle

theorem registering_le_held (handle : Handle) (stack : List (Activity V Chan)) :
    registering handle stack ≤ held handle stack := by
  induction stack with
  | nil => exact Nat.le_refl 0
  | cons activity rest ih =>
      unfold registering at *
      cases activity <;> simp [List.count_cons] <;> omega

variable [Fintype Thread] [Fintype Chan]

/-- The waiters of a coroutine, registered and about to be. -/
def parked (state : State Thread V Chan) (handle : Handle) : Nat :=
  total (fun channel => channel.stored handle) state.channels +
    total (registering handle) state.callStacks

section Count

variable {state : State Thread V Chan} {handle : Handle} {thread : Thread}

/-- Every waiter is a wake-up, and other wake-ups on a stack come on top. -/
theorem parked_add_le {gap : Nat} (thread : Thread)
    (hgap : registering handle (state.callStacks thread) + gap ≤
      held handle (state.callStacks thread)) :
    parked state handle + gap ≤ wakeups state handle := by
  have htotal := total_add_le (registering_le_held handle) thread hgap
  unfold parked wakeups
  omega

theorem parked_le_wakeups : parked state handle ≤ wakeups state handle := by
  have htotal := total_mono (registering_le_held handle) state.callStacks
  unfold parked wakeups
  omega

theorem parked_pos_of_stored {channel : Chan}
    (hstored : 0 < (state.channels channel).stored handle) : 0 < parked state handle := by
  have hle := le_total (fun channel : Conduit V => channel.stored handle) state.channels channel
  unfold parked
  omega

theorem parked_pos_of_parking {point : Point V Chan}
    (hmem : (handle, point) ∈ parking (state.callStacks thread)) : 0 < parked state handle := by
  have hle := le_total (registering handle) state.callStacks thread
  have hcount : 0 < registering handle (state.callStacks thread) :=
    List.count_pos_iff.mpr (List.mem_map_of_mem hmem)
  unfold parked
  omega

end Count

/-! ## The agreement -/

/-- The waiter lists, the registering threads and the frames agree. -/
structure Parked (state : State Thread V Chan) : Prop where
  senders : ∀ channel, ∀ waiter ∈ (state.channels channel).sendWaiters,
    (state.frames waiter.handle).status = .suspended (.send channel false) ∧
      waiter.value.op = some ⟨waiter.handle, (state.frames waiter.handle).serial⟩
  receivers : ∀ channel, ∀ waiter ∈ (state.channels channel).recvWaiters,
    (state.frames waiter.handle).status = .suspended (.recv channel none none) ∧
      waiter.awaiter = some ⟨waiter.handle, (state.frames waiter.handle).serial⟩
  registers : ∀ thread, ∀ pair ∈ parking (state.callStacks thread),
    (state.frames pair.1).status = .suspended pair.2
  flushes : ∀ thread channel, .flushing channel ∈ state.callStacks thread →
    (state.channels channel).closed = true
  /-- A suspended coroutine that is not settled still has a waiter. -/
  settled : ∀ handle point, (state.frames handle).status = .suspended point →
    point.Settled state.channels ∨ 0 < parked state handle

section Steps

variable {state next : State Thread V Chan} {thread : Thread} {stack rest : List (Activity V Chan)}

theorem stored_pos_of_sender {channel : Conduit V}
    {waiter : SendWaiter Handle (Item (Option Ticket) V)} (hmem : waiter ∈ channel.sendWaiters) :
    0 < channel.stored waiter.handle :=
  (List.count_pos_iff.mpr (List.mem_map_of_mem hmem)).trans_le (Nat.le_add_right _ _)

theorem stored_pos_of_receiver {channel : Conduit V} {waiter : RecvWaiter Handle (Option Ticket)}
    (hmem : waiter ∈ channel.recvWaiters) : 0 < channel.stored waiter.handle :=
  (List.count_pos_iff.mpr (List.mem_map_of_mem hmem)).trans_le (Nat.le_add_left _ _)

variable [DecidableEq Thread]

/-- A step outside the channels keeps the agreement: it changes no frame that
has a waiter, and it may begin to register waiters for the awaits in `news`. -/
theorem Parked.outside {news : List (Handle × Point V Chan)} (hparked : Parked state)
    (hchannels : next.channels = state.channels)
    (hstacks : next.callStacks = Function.update state.callStacks thread stack)
    (hparking : parking stack = news ++ parking (state.callStacks thread))
    (hflushing : ∀ channel, .flushing channel ∈ stack →
      .flushing channel ∈ state.callStacks thread)
    (hnews : ∀ pair ∈ news, (next.frames pair.1).status = .suspended pair.2)
    (hframes : ∀ handle, (state.frames handle).SameAwait (next.frames handle) ∨
      (parked state handle = 0 ∧ ∀ point, (next.frames handle).status = .suspended point →
        point.Settled state.channels ∨ handle ∈ news.map Prod.fst)) :
    Parked next := by
  have hcount : ∀ handle,
      parked next handle = parked state handle + (news.map Prod.fst).count handle := by
    intro handle
    have htotal := total_update (registering handle) state.callStacks thread stack
    have hsplit : registering handle stack = (news.map Prod.fst).count handle +
        registering handle (state.callStacks thread) := by
      simp [registering, hparking]
    unfold parked
    rw [hchannels, hstacks]
    omega
  have hkept : ∀ handle, 0 < parked state handle →
      (state.frames handle).SameAwait (next.frames handle) := by
    intro handle hpos
    exact (hframes handle).resolve_right fun h => by omega
  constructor
  -- Whoever is in a waiter list has a waiter, so his frame is kept.
  case senders =>
    intro channel waiter hwaiter
    rw [hchannels] at hwaiter
    have hsame := hkept _ (parked_pos_of_stored (stored_pos_of_sender hwaiter))
    rw [hsame.status, hsame.serial]
    exact hparked.senders channel waiter hwaiter
  case receivers =>
    intro channel waiter hwaiter
    rw [hchannels] at hwaiter
    have hsame := hkept _ (parked_pos_of_stored (stored_pos_of_receiver hwaiter))
    rw [hsame.status, hsame.serial]
    exact hparked.receivers channel waiter hwaiter
  case registers =>
    have hold : ∀ other, ∀ pair ∈ parking (state.callStacks other),
        (next.frames pair.1).status = .suspended pair.2 := by
      intro other pair hpair
      rw [(hkept _ (parked_pos_of_parking hpair)).status]
      exact hparked.registers other pair hpair
    intro other pair hpair
    rw [hstacks] at hpair
    by_cases heq : other = thread
    · subst other
      rw [Function.update_self, hparking] at hpair
      exact (List.mem_append.mp hpair).elim (hnews pair) (hold thread pair)
    · rw [Function.update_of_ne heq] at hpair
      exact hold other pair hpair
  case flushes =>
    intro other channel hmem
    rw [hchannels]
    rw [hstacks] at hmem
    by_cases heq : other = thread
    · subst other
      rw [Function.update_self] at hmem
      exact hparked.flushes thread channel (hflushing channel hmem)
    · rw [Function.update_of_ne heq] at hmem
      exact hparked.flushes other channel hmem
  -- A frame that changes is settled, or its waiter is among the new ones.
  case settled =>
    intro handle point hstatus
    rw [hcount, hchannels]
    rcases hframes handle with hsame | ⟨_, hsettled⟩
    · rw [hsame.status] at hstatus
      exact (hparked.settled handle point hstatus).imp_right fun hpos => by omega
    · refine (hsettled point hstatus).imp_right fun hmem => ?_
      have hpos := List.count_pos_iff.mpr hmem
      omega

/-! ### A critical section

`senders` and `receivers` register in the section, `items` and `readers` are
what the caller itself sends and receives with. -/

section Section

variable [DecidableEq Chan] {R : Type} {channel : Chan} {out : Answered V R}
  {senders : List (SendWaiter Handle (Item (Option Ticket) V))}
  {receivers : List (RecvWaiter Handle (Option Ticket))}
  {items : List (Item (Option Ticket) V)} {readers : List (Option Ticket)}

/-- Those who take part in a section of `channel`: who registers is suspended in
that await, and the caller itself is not suspended. -/
structure Parties (state : State Thread V Chan) (channel : Chan)
    (senders : List (SendWaiter Handle (Item (Option Ticket) V)))
    (receivers : List (RecvWaiter Handle (Option Ticket)))
    (items : List (Item (Option Ticket) V)) (readers : List (Option Ticket)) : Prop where
  senders : ∀ waiter ∈ senders,
    (state.frames waiter.handle).status = .suspended (.send channel false) ∧
      waiter.value.op = some ⟨waiter.handle, (state.frames waiter.handle).serial⟩
  receivers : ∀ waiter ∈ receivers,
    (state.frames waiter.handle).status = .suspended (.recv channel none none) ∧
      waiter.awaiter = some ⟨waiter.handle, (state.frames waiter.handle).serial⟩
  items : ∀ item ∈ items, ∀ handle, item.op = some ⟨handle, (state.frames handle).serial⟩ →
    (state.frames handle).suspended = false
  readers : ∀ reader ∈ readers, ∀ handle,
    reader = some ⟨handle, (state.frames handle).serial⟩ → (state.frames handle).suspended = false

omit [Fintype Thread] [Fintype Chan] [DecidableEq Thread] [DecidableEq Chan] in
theorem Parties.nobody (state : State Thread V Chan) (channel : Chan) :
    Parties state channel [] [] [] [] := by
  constructor <;> simp

variable {servedSenders : List (SendWaiter Handle (Item (Option Ticket) V))}
  {servedReceivers : List (RecvWaiter Handle (Option Ticket))} (hparked : Parked state)
  (hparties : Parties state channel senders receivers items readers)
  (hserves : out.Serves (state.channels channel) senders receivers items readers
    servedSenders servedReceivers)

omit [DecidableEq Thread] [DecidableEq Chan]

include hparked hparties hserves

theorem Parked.of_servedSender {waiter : SendWaiter Handle (Item (Option Ticket) V)}
    (hwaiter : waiter ∈ servedSenders) :
    (state.frames waiter.handle).status = .suspended (.send channel false) ∧
      waiter.value.op = some ⟨waiter.handle, (state.frames waiter.handle).serial⟩ := by
  have hmem := hserves.senders.mem_iff.mp (List.mem_append_left _ hwaiter)
  exact (List.mem_append.mp hmem).elim (hparked.senders channel waiter) (hparties.senders waiter)

theorem Parked.of_servedReceiver {waiter : RecvWaiter Handle (Option Ticket)}
    (hwaiter : waiter ∈ servedReceivers) :
    (state.frames waiter.handle).status = .suspended (.recv channel none none) ∧
      waiter.awaiter = some ⟨waiter.handle, (state.frames waiter.handle).serial⟩ := by
  have hmem := hserves.receivers.mem_iff.mp (List.mem_append_left _ hwaiter)
  exact (List.mem_append.mp hmem).elim (hparked.receivers channel waiter)
    (hparties.receivers waiter)

/-- The section leaves the frames of coroutines it does not serve alone. -/
theorem Parked.absorb_of_unserved {handle : Handle}
    (hsender : handle ∉ servedSenders.map SendWaiter.handle)
    (hreceiver : handle ∉ servedReceivers.map RecvWaiter.handle) :
    (state.frames handle).absorb handle out.effects = state.frames handle := by
  cases hsuspended : (state.frames handle).suspended with
  | false => exact Frame.absorb_of_not_suspended hsuspended
  | true =>
      have hfromReceiver : some ⟨handle, (state.frames handle).serial⟩ ∉
          servedReceivers.map RecvWaiter.awaiter := by
        intro hmem
        obtain ⟨waiter, hwaiter, hawaiter⟩ := List.mem_map.mp hmem
        rw [(hparked.of_servedReceiver hparties hserves hwaiter).2] at hawaiter
        exact hreceiver (List.mem_map.mpr ⟨waiter, hwaiter,
          (Ticket.mk.inj (Option.some.inj hawaiter)).1⟩)
      refine Frame.absorb_of_notMem ?_ ?_ fun hmem => hfromReceiver (hserves.answered _ hmem)
      · intro hmem
        obtain ⟨item, hitem, hop⟩ := List.mem_map.mp hmem
        rcases hserves.accepted item hitem with hown | hserved
        · rw [hparties.items item hown handle hop] at hsuspended
          cases hsuspended
        · obtain ⟨waiter, hwaiter, rfl⟩ := List.mem_map.mp hserved
          rw [(hparked.of_servedSender hparties hserves hwaiter).2] at hop
          exact hsender (List.mem_map.mpr ⟨waiter, hwaiter,
            (Ticket.mk.inj (Option.some.inj hop)).1⟩)
      · intro hmem
        rcases hserves.delivered _ hmem with hown | hserved
        · rw [hparties.readers _ hown handle rfl] at hsuspended
          cases hsuspended
        · exact hfromReceiver hserved

/-- A served sender is settled: its value was accepted or the channel is
closed. -/
theorem Parked.settles_sender {waiter : SendWaiter Handle (Item (Option Ticket) V)}
    (hwaiter : waiter ∈ servedSenders) {after : Chan → Conduit V}
    (hafter : after channel = out.channel) {point : Point V Chan}
    (hstatus : ((state.frames waiter.handle).absorb waiter.handle out.effects).status =
      .suspended point) : point.Settled after := by
  obtain ⟨hbefore, hop⟩ := hparked.of_servedSender hparties hserves hwaiter
  simp only [Frame.absorb, hbefore, Status.absorb, Bool.false_or, Status.suspended.injEq] at hstatus
  subst hstatus
  rcases hserves.freed waiter hwaiter with hclosed | haccepted
  · exact Or.inr (by rw [hafter]; exact hserves.closed hclosed)
  · exact Or.inl (List.any_eq_true.mpr ⟨waiter.value, haccepted, by simp [hop]⟩)

/-- A served receiver is settled: it was answered. -/
theorem Parked.settles_receiver {waiter : RecvWaiter Handle (Option Ticket)}
    (hwaiter : waiter ∈ servedReceivers) {after : Chan → Conduit V}
    (hafter : after channel = out.channel) {point : Point V Chan}
    (hstatus : ((state.frames waiter.handle).absorb waiter.handle out.effects).status =
      .suspended point) : point.Settled after := by
  obtain ⟨hbefore, hawaiter⟩ := hparked.of_servedReceiver hparties hserves hwaiter
  simp only [Frame.absorb, hbefore, Status.absorb, Status.suspended.injEq] at hstatus
  subst hstatus
  have hanswered := hserves.served waiter hwaiter
  rw [hawaiter] at hanswered
  obtain ⟨answer, hanswer, hlatest⟩ := latest_of_mem none hanswered
  rcases hserves.verdict with htrue | ⟨hclosed, hfalse⟩
  · obtain ⟨hverdict, hdelivered⟩ := htrue _ hanswer
    have hwritten : some ⟨waiter.handle, (state.frames waiter.handle).serial⟩ ∈
        ((delivers out.effects).map fun write => (write.1, write.2.value)).map Prod.fst := by
      simpa [List.map_map, Function.comp_def] using hdelivered
    obtain ⟨value, _, hvalue⟩ := latest_of_mem none hwritten
    exact Or.inl ⟨hlatest.trans (congrArg some hverdict), by rw [hvalue]; rfl⟩
  · refine Or.inr ⟨hlatest.trans (congrArg some (hfalse _ hanswer)), ?_⟩
    rw [hafter]
    exact hserves.closed hclosed

omit hparked hparties in
/-- The waiters a section serves are gone after it. -/
theorem parked_calls [DecidableEq Thread] [DecidableEq Chan] (handle : Handle)
    (hparking : parking (state.callStacks thread) =
      senders.map (fun waiter => (waiter.handle, .send channel false)) ++
        receivers.map (fun waiter => (waiter.handle, .recv channel none none)) ++ parking rest) :
    parked (state.calls thread channel out rest) handle +
        (servedSenders.map SendWaiter.handle).count handle +
        (servedReceivers.map RecvWaiter.handle).count handle = parked state handle := by
  have hchannels := total_update (fun channel : Conduit V => channel.stored handle)
    state.channels channel out.channel
  have hstacks := total_update (registering handle) state.callStacks thread
    ((schedules out.effects).map .scheduling ++ rest)
  have hsenders := (hserves.senders.map SendWaiter.handle).count_eq handle
  have hreceivers := (hserves.receivers.map RecvWaiter.handle).count_eq handle
  have hbefore : registering handle (state.callStacks thread) =
      (senders.map SendWaiter.handle).count handle +
        (receivers.map RecvWaiter.handle).count handle + registering handle rest := by
    simp only [registering, hparking, List.map_append, List.map_map, Function.comp_def,
      List.count_append]
  have hrest : registering handle ((schedules out.effects).map .scheduling ++ rest) =
      registering handle rest := by
    simp [registering]
  simp only [List.map_append, List.count_append] at hsenders hreceivers
  simp only [Channel.stored] at hchannels
  simp only [parked, State.calls, Channel.stored]
  omega

/-- A critical section keeps the agreement: whom it serves is settled and gone,
and nobody else is touched. -/
theorem Parked.calls [DecidableEq Thread] [DecidableEq Chan]
    (hfew : ∀ handle, parked state handle ≤ 1)
    (hparking : parking (state.callStacks thread) =
      senders.map (fun waiter => (waiter.handle, .send channel false)) ++
        receivers.map (fun waiter => (waiter.handle, .recv channel none none)) ++ parking rest)
    (hflushing : ∀ other, .flushing other ∈ rest →
      .flushing other ∈ state.callStacks thread ∨ (other = channel ∧ out.channel.closed = true)) :
    Parked (state.calls thread channel out rest) := by
  have hcount := fun handle => parked_calls hserves handle hparking
  -- With one waiter at most, a coroutine that still has it was not served.
  have hsame : ∀ handle, 0 < parked (state.calls thread channel out rest) handle →
      (state.frames handle).absorb handle out.effects = state.frames handle := by
    intro handle hpos
    have hbalance := hcount handle
    have hone := hfew handle
    apply hparked.absorb_of_unserved hparties hserves
    · exact List.count_eq_zero.mp (by omega)
    · exact List.count_eq_zero.mp (by omega)
  have hclosed : ∀ other, (state.channels other).closed = true →
      ((state.calls thread channel out rest).channels other).closed = true := by
    intro other hother
    by_cases heq : other = channel
    · subst other
      simpa [State.calls] using hserves.closed hother
    · simpa [State.calls, heq] using hother
  constructor
  case senders =>
    intro other waiter hwaiter
    have hframe := hsame _ (parked_pos_of_stored (stored_pos_of_sender hwaiter))
    change ((state.frames waiter.handle).absorb waiter.handle out.effects).status = _ ∧
      _ = some (Ticket.mk _
        ((state.frames waiter.handle).absorb waiter.handle out.effects).serial)
    rw [hframe]
    by_cases heq : other = channel
    · subst other
      have hmem : waiter ∈ out.channel.sendWaiters := by simpa [State.calls] using hwaiter
      have hknown := hserves.senders.mem_iff.mp (List.mem_append_right _ hmem)
      exact (List.mem_append.mp hknown).elim (hparked.senders channel waiter)
        (hparties.senders waiter)
    · exact hparked.senders other waiter (by simpa [State.calls, heq] using hwaiter)
  case receivers =>
    intro other waiter hwaiter
    have hframe := hsame _ (parked_pos_of_stored (stored_pos_of_receiver hwaiter))
    change ((state.frames waiter.handle).absorb waiter.handle out.effects).status = _ ∧
      _ = some (Ticket.mk _
        ((state.frames waiter.handle).absorb waiter.handle out.effects).serial)
    rw [hframe]
    by_cases heq : other = channel
    · subst other
      have hmem : waiter ∈ out.channel.recvWaiters := by simpa [State.calls] using hwaiter
      have hknown := hserves.receivers.mem_iff.mp (List.mem_append_right _ hmem)
      exact (List.mem_append.mp hknown).elim (hparked.receivers channel waiter)
        (hparties.receivers waiter)
    · exact hparked.receivers other waiter (by simpa [State.calls, heq] using hwaiter)
  case registers =>
    intro other pair hpair
    change ((state.frames pair.1).absorb pair.1 out.effects).status = _
    rw [hsame _ (parked_pos_of_parking hpair)]
    by_cases heq : other = thread
    · subst other
      have hmem : pair ∈ parking rest := by simpa [State.calls] using hpair
      exact hparked.registers thread pair (by rw [hparking]; exact List.mem_append_right _ hmem)
    · exact hparked.registers other pair (by simpa [State.calls, heq] using hpair)
  case flushes =>
    intro other closing hmem
    by_cases heq : other = thread
    · subst other
      have hrest : .flushing closing ∈ rest := by simpa [State.calls] using hmem
      rcases hflushing closing hrest with hold | ⟨rfl, hnow⟩
      · exact hclosed closing (hparked.flushes thread closing hold)
      · simpa [State.calls] using hnow
    · exact hclosed closing (hparked.flushes other closing (by simpa [State.calls, heq] using hmem))
  -- Served senders and receivers are settled, and the others are where they were.
  case settled =>
    intro handle point hstatus
    by_cases hsender : handle ∈ servedSenders.map SendWaiter.handle
    · obtain ⟨waiter, hwaiter, rfl⟩ := List.mem_map.mp hsender
      exact Or.inl (hparked.settles_sender hparties hserves hwaiter (by simp [State.calls]) hstatus)
    · by_cases hreceiver : handle ∈ servedReceivers.map RecvWaiter.handle
      · obtain ⟨waiter, hwaiter, rfl⟩ := List.mem_map.mp hreceiver
        exact Or.inl (hparked.settles_receiver hparties hserves hwaiter (by simp [State.calls])
          hstatus)
      · have hbalance := hcount handle
        rw [List.count_eq_zero.mpr hsender, List.count_eq_zero.mpr hreceiver] at hbalance
        change ((state.frames handle).absorb handle out.effects).status = _ at hstatus
        rw [hparked.absorb_of_unserved hparties hserves hsender hreceiver] at hstatus
        exact (hparked.settled handle point hstatus).imp (fun h => h.mono hclosed)
          fun hpos => by omega

end Section

end Steps

/-! ## Every step keeps the agreement -/

section Runs

variable [DecidableEq Thread] [DecidableEq Chan] {state next : State Thread V Chan}
  {action : Action Thread V Chan}

omit [DecidableEq Thread] [DecidableEq Chan] in
theorem Single.parked_le_one (hsingle : Single state) (handle : Handle) :
    parked state handle ≤ 1 := by
  have hle : parked state handle ≤ wakeups state handle := parked_le_wakeups
  have hwoken := (hsingle.single handle).woken
  split at hwoken <;> omega

omit [DecidableEq Thread] [DecidableEq Chan] in
/-- A coroutine that is not suspended has no waiter. -/
theorem Single.parked_eq_zero (hsingle : Single state) {handle : Handle}
    (hstatus : (state.frames handle).suspended = false) : parked state handle = 0 := by
  have hle : parked state handle ≤ wakeups state handle := parked_le_wakeups
  have hwoken := (hsingle.single handle).woken
  rw [hstatus] at hwoken
  exact Nat.le_zero.mp (hle.trans hwoken)

omit [DecidableEq Thread] [DecidableEq Chan] in
/-- A coroutine that is about to be resumed has no waiter. -/
theorem Single.parked_resuming (hsingle : Single state) {thread : Thread} {handle : Handle}
    {rest : List (Activity V Chan)} (hstack : state.callStacks thread = .resuming handle :: rest) :
    parked state handle = 0 := by
  have hgap : registering handle (state.callStacks thread) + 1 ≤
      held handle (state.callStacks thread) := by
    have hle := registering_le_held handle rest
    rw [hstack]
    simp [registering] at hle ⊢
    omega
  have hle := parked_add_le thread hgap
  have hwoken := (hsingle.single handle).woken
  split at hwoken <;> omega

section Shapes

variable {thread : Thread} {stack : List (Activity V Chan)} {focus : Handle}

omit [DecidableEq Chan] in
/-- No await begins or ends. -/
theorem Parked.steady (hparked : Parked state) (hchannels : next.channels = state.channels)
    (hstacks : next.callStacks = Function.update state.callStacks thread stack)
    (hparking : parking stack = parking (state.callStacks thread))
    (hflushing : ∀ channel, .flushing channel ∈ stack →
      .flushing channel ∈ state.callStacks thread)
    (hframes : ∀ handle, (state.frames handle).SameAwait (next.frames handle)) : Parked next := by
  have hnews : parking stack = [] ++ parking (state.callStacks thread) := hparking
  exact hparked.outside hchannels hstacks hnews hflushing nofun
    fun handle => Or.inl (hframes handle)

omit [DecidableEq Chan] in
/-- The frame of `focus`, which has no waiter, is replaced. -/
theorem Parked.replaces (hparked : Parked state) (hfree : parked state focus = 0)
    (hchannels : next.channels = state.channels)
    (hstacks : next.callStacks = Function.update state.callStacks thread stack)
    (hparking : parking stack = parking (state.callStacks thread))
    (hflushing : ∀ channel, .flushing channel ∈ stack →
      .flushing channel ∈ state.callStacks thread)
    (hothers : ∀ other, other ≠ focus → (state.frames other).SameAwait (next.frames other))
    (hfocus : ∀ point, (next.frames focus).status = .suspended point →
      point.Settled state.channels) : Parked next := by
  have hnews : parking stack = [] ++ parking (state.callStacks thread) := hparking
  refine hparked.outside hchannels hstacks hnews hflushing nofun fun handle => ?_
  by_cases heq : handle = focus
  · subst handle
    exact Or.inr ⟨hfree, fun point hstatus => Or.inl (hfocus point hstatus)⟩
  · exact Or.inl (hothers handle heq)

omit [DecidableEq Chan] in
/-- The coroutine `focus` suspends and begins to register its waiter. -/
theorem Parked.parks {point : Point V Chan} (hparked : Parked state)
    (hfree : parked state focus = 0) (hchannels : next.channels = state.channels)
    (hstacks : next.callStacks = Function.update state.callStacks thread stack)
    (hparking : parking stack = (focus, point) :: parking (state.callStacks thread))
    (hflushing : ∀ channel, .flushing channel ∈ stack →
      .flushing channel ∈ state.callStacks thread)
    (hothers : ∀ other, other ≠ focus → (state.frames other).SameAwait (next.frames other))
    (hfocus : (next.frames focus).status = .suspended point) : Parked next := by
  have hnews : parking stack = [(focus, point)] ++ parking (state.callStacks thread) := hparking
  refine hparked.outside hchannels hstacks hnews hflushing (by simpa using hfocus)
    fun handle => ?_
  by_cases heq : handle = focus
  · subst handle
    exact Or.inr ⟨hfree, fun _ _ => Or.inr (by simp)⟩
  · exact Or.inl (hothers handle heq)

omit [DecidableEq Chan] in
/-- A coroutine that no waiter refers to is resumed. -/
theorem Parked.resume {rest : List (Activity V Chan)} (hparked : Parked state)
    (hfree : parked state focus = 0) (hstack : state.callStacks thread = .resuming focus :: rest) :
    Parked (state.resume thread focus rest) := by
  rcases state.resume_cases thread focus rest with
    ⟨point, _, _, hnext⟩ | ⟨source, _, hnext⟩ | ⟨_, hnext⟩
  · rw [hnext]
    refine hparked.replaces hfree rfl rfl (by simp [hstack]) (by simp [hstack])
      (fun other hne => Frame.sameAwait_of_ne hne) ?_
    simp [State.withStack, State.withFrame, Frame.wake]
  · rw [hnext]
    let woken := state.withFrame focus (state.frames focus).wake
    obtain ⟨hstacks, hchannels, _, _⟩ := woken.awaitResume_eq focus source
    have hawait := woken.sameAwait_awaitResume focus source
    refine hparked.replaces hfree hchannels (congrArg (Function.update · thread _) hstacks)
      (by simp [hstack]) (by simp [hstack]) (fun other hne => ?_) fun point hstatus => ?_
    · have hother : woken.frames other = state.frames other := Function.update_of_ne hne _ _
      exact hother ▸ hawait other
    · have hfocus : (woken.frames focus).status = .suspended point :=
        (hawait focus).status.symm.trans hstatus
      simp [woken, State.withFrame, Frame.wake] at hfocus
  · rw [hnext]
    exact hparked.steady rfl rfl (by simp [hstack]) (by simp [hstack])
      (Frame.sameAwait_update ⟨rfl, rfl⟩)

omit [DecidableEq Chan] in
/-- A parent that suspends in an await of a task waits for no channel. -/
theorem Parked.awaits {child : Handle} {source : Nat} {base : State Thread V Chan}
    {rest : List (Activity V Chan)} (hparked : Parked state) (hfree : parked state focus = 0)
    (hstack : state.callStacks thread = .body focus :: rest)
    (hbase : base = state.withFrame focus ((state.frames focus).suspend (.task source))) :
    Parked ((base.withFrame child { base.frames child with
      continuation := some focus }).withStack thread (.scheduling child :: rest)) := by
  have hchild : ∀ handle, (base.frames handle).SameAwait ((base.withFrame child
      { base.frames child with continuation := some focus }).frames handle) :=
    Frame.sameAwait_update ⟨rfl, rfl⟩
  have hfocus : (base.frames focus).status = .suspended (.task source) := by
    simp [hbase, State.withFrame, Frame.suspend]
  refine hparked.replaces hfree (by rw [hbase]; rfl) (by rw [hbase]; rfl)
    (by simp [hstack]) (by simp [hstack]) (fun other hne => ?_) fun point hstatus => ?_
  · have hother : (state.frames other).SameAwait (base.frames other) := by
      rw [hbase]
      exact Frame.sameAwait_of_ne hne
    exact hother.trans (hchild other)
  · have heq := (hchild focus).status.symm.trans hstatus
    rw [hfocus] at heq
    cases heq
    trivial

end Shapes

theorem Moves.keepsParked (hmoves : Moves state action next) (hsingle : Single state)
    (hparked : Parked state) : Parked next := by
  have hfew := hsingle.parked_le_one
  have hrunning : ∀ {thread focus rest}, state.callStacks thread = .body focus :: rest →
      (state.frames focus).suspended = false ∧ parked state focus = 0 := by
    intro thread focus rest hstack
    have hnot := Frame.suspended_of_running _ ((hsingle.runs _).of_body hstack).1
    exact ⟨hnot, hsingle.parked_eq_zero hnot⟩
  have hstarts : ∀ {thread focus rest frame}, state.callStacks thread = .body focus :: rest →
      frame = { state.frames focus with serial := (state.frames focus).serial + 1 } →
      ((state.withFrame focus frame).frames focus).suspended = false ∧
        Parked (state.withFrame focus frame) := by
    intro thread focus rest frame hstack hframe
    obtain ⟨hnot, hfree⟩ := hrunning hstack
    have hsuspended : ((state.withFrame focus frame).frames focus).suspended = false := by
      simp only [State.withFrame, Function.update_self, hframe]
      exact hnot
    refine ⟨hsuspended, hparked.replaces hfree rfl
      (Function.update_eq_self thread state.callStacks).symm rfl (fun _ h => h)
      (fun other hne => Frame.sameAwait_of_ne hne) fun point hstatus => ?_⟩
    rw [Frame.suspended_of_status hstatus] at hsuspended
    cases hsuspended
  cases hmoves with
  | follows thread activity rest after active hstack hafter =>
      obtain ⟨hbefore, hparking, hflushing⟩ := hafter.parking
      refine hparked.steady rfl rfl ?_ ?_ fun handle => .refl _
      · rw [parking_cons] at hbefore
        rw [hstack, parking_append, parking_cons, hparking, (List.append_eq_nil_iff.mp hbefore).1]
      · intro channel hmem
        rw [hstack]
        exact List.mem_cons_of_mem _ ((List.mem_append.mp hmem).resolve_left (hflushing channel))
  | reschedules thread focus rest hstack hdone =>
      exact hparked.steady rfl rfl (by simp [hstack]) (by simp [hstack]) fun handle => .refl _
  | resumes thread focus rest hstack =>
      -- The wake-up in the hand of this thread is the only one, so there is no waiter left.
      exact hparked.resume (hsingle.parked_resuming hstack) hstack
  | enqueues thread focus rest hstack =>
      exact hparked.steady rfl rfl (by simp [hstack]) (by simp [hstack]) fun handle => .refl _
  | destroys thread focus rest hstack =>
      refine hparked.steady rfl rfl ?_ ?_ (Frame.sameAwait_update ⟨rfl, rfl⟩)
      · rw [hstack]
        split <;> simp
      · rw [hstack]
        split <;> simp
  | registersSend thread focus channel value rest hstack =>
      have hstatus := hparked.registers thread (focus, .send channel false) (by simp [hstack])
      obtain ⟨served, servedReceivers, hserves⟩ :=
        (state.channels channel).registerSendWaiter_serves focus
          (Item.mk (some ⟨focus, (state.frames focus).serial⟩) value)
      have hparties : Parties state channel [⟨focus, ⟨some ⟨focus, (state.frames focus).serial⟩,
          value⟩⟩] [] [] [] := by
        constructor <;> simp [hstatus]
      apply hparked.calls hparties hserves hfew
      · simp [hstack]
      · exact fun other hmem => Or.inl (by simp [hstack, hmem])
  | registersRecv thread focus channel rest hstack =>
      have hstatus := hparked.registers thread (focus, .recv channel none none) (by simp [hstack])
      obtain ⟨served, servedReceivers, hserves⟩ :=
        (state.channels channel).registerRecvWaiter_serves focus
          (some (Ticket.mk focus (state.frames focus).serial))
      have hparties : Parties state channel [] [⟨focus, some ⟨focus,
          (state.frames focus).serial⟩⟩] [] [] := by
        constructor <;> simp [hstatus]
      apply hparked.calls hparties hserves hfew
      · simp [hstack]
      · exact fun other hmem => Or.inl (by simp [hstack, hmem])
  | flushes thread channel rest hstack =>
      have hclosed := hparked.flushes thread channel (by simp [hstack])
      obtain ⟨served, servedReceivers, hserves⟩ :=
        (state.channels channel).closeFlush_serves hclosed
      apply hparked.calls (.nobody state channel) hserves hfew (by simp [hstack])
      exact fun other hmem => Or.inl (by simp [hstack, hmem])
  | pops thread focus queue hstack hqueue =>
      exact hparked.steady rfl rfl (by simp [hstack]) (by simp [hstack]) fun handle => .refl _
  | wakes thread focus hstack hsleeping =>
      exact hparked.steady rfl rfl (by simp [hstack]) (by simp [hstack]) fun handle => .refl _
  | quits thread focus hstack =>
      exact hparked.steady rfl rfl (by simp [hstack]) (by simp [hstack]) fun handle => .refl _
  | stops thread hcode =>
      refine hparked.steady rfl (Function.update_eq_self thread state.callStacks).symm rfl
        (fun _ h => h) fun handle => ?_
      simp only [State.clearQueue]
      split <;> exact ⟨rfl, rfl⟩
  | creates thread focus void hcode hunborn =>
      -- A coroutine that was not born yet cannot have been parked.
      have hnot : (state.frames focus).suspended = false := by simp [Frame.suspended, hunborn]
      refine hparked.replaces (hsingle.parked_eq_zero hnot) rfl rfl (by simp) (by simp)
        (fun other hne => Frame.sameAwait_of_ne hne) ?_
      simp [State.withStack, State.withFrame, Frame.created]
  | handles thread op tasks above hcode habove hready =>
      obtain ⟨hparking, hflushing⟩ := parking_of_destroysOnly habove
      refine hparked.steady rfl rfl (by simp [hparking]) ?_ fun handle => .refl _
      exact fun channel hmem => (List.mem_append.mp hmem).resolve_left (hflushing channel)
  | runs thread source focus active hcode htask hdone =>
      exact hparked.steady rfl rfl (by simp) (by simp) fun handle => .refl _
  | trySend thread op channel value used hcode hop =>
      obtain ⟨served, servedReceivers, hserves⟩ :=
        (state.channels channel).trySendWith_serves ⟨none, value⟩ used
      have hparties : Parties state channel [] [] [⟨none, value⟩] [] := by
        constructor <;> simp
      exact hparked.calls hparties hserves hfew (by simp) fun other hmem => Or.inl hmem
  | tryRecv thread channel hcode =>
      obtain ⟨served, servedReceivers, hserves⟩ :=
        (state.channels channel).tryRecv_serves none none
      have hparties : Parties state channel [] [] [] [none] := by
        constructor <;> simp
      exact hparked.calls hparties hserves hfew (by simp) fun other hmem => Or.inl hmem
  | exchanges thread channel hcode above habove =>
      -- The flush that follows is announced on a channel that is closed by now.
      obtain ⟨served, servedReceivers, hserves⟩ := (state.channels channel).closeExchange_serves
      apply hparked.calls (.nobody state channel) hserves hfew
      · rcases habove with rfl | rfl <;> simp
      · intro other hmem
        rcases habove with rfl | rfl
        · exact Or.inl hmem
        · rcases List.mem_cons.mp hmem with heq | hold
          · cases heq
            exact Or.inr ⟨rfl, rfl⟩
          · exact Or.inl hold
  | yields _ _ _ hstack | sleeps _ _ _ hstack =>
      refine hparked.replaces (hrunning hstack).2 rfl rfl (by simp [hstack]) (by simp [hstack])
        (fun other hne => Frame.sameAwait_of_ne hne) ?_
      simp [State.withStack, State.withFrame, Frame.suspend, Point.Settled]
  | sends thread focus channel value frame rest hstack hframe =>
      obtain ⟨hnot, hbase⟩ := hstarts hstack hframe
      obtain ⟨served, servedReceivers, hserves⟩ := (state.channels channel).trySendWith_serves
        (Item.mk (some ⟨focus, frame.serial⟩) value) (some ⟨some ⟨focus, frame.serial⟩, value⟩)
      have hparties : Parties (state.withFrame focus frame) channel [] []
          [⟨some ⟨focus, frame.serial⟩, value⟩] [] := by
        constructor <;> simp
        exact fun _ => hnot
      exact hbase.calls hparties hserves hfew (by simp [State.withFrame, hstack])
        fun other hmem => Or.inl (by simpa [State.withFrame, hstack] using hmem)
  | parksSender thread focus channel value frame rest hstack hframe =>
      have hparking : parking (.registeringSend focus channel value :: rest) =
          (focus, .send channel false) :: parking (state.callStacks thread) := by simp [hstack]
      refine hparked.parks (hrunning hstack).2 rfl rfl hparking (by simp [hstack])
        (fun other hne => Frame.sameAwait_of_ne hne) ?_
      simp [State.withStack, State.withFrame, Frame.suspend]
  | receives thread focus channel frame rest hstack hframe =>
      obtain ⟨hnot, hbase⟩ := hstarts hstack hframe
      obtain ⟨served, servedReceivers, hserves⟩ := (state.channels channel).tryRecv_serves
        (some (Ticket.mk focus frame.serial)) none
      have hparties : Parties (state.withFrame focus frame) channel [] [] []
          [some ⟨focus, frame.serial⟩] := by
        constructor <;> simp
        exact fun _ => hnot
      exact hbase.calls hparties hserves hfew (by simp [State.withFrame, hstack])
        fun other hmem => Or.inl (by simpa [State.withFrame, hstack] using hmem)
  | parksReceiver thread focus channel frame rest hstack hframe =>
      have hparking : parking (.registeringRecv focus channel :: rest) =
          (focus, .recv channel none none) :: parking (state.callStacks thread) := by simp [hstack]
      refine hparked.parks (hrunning hstack).2 rfl rfl hparking (by simp [hstack])
        (fun other hne => Frame.sameAwait_of_ne hne) ?_
      simp [State.withStack, State.withFrame, Frame.suspend]
  | awaits thread focus child source rest hstack htask hdone base hbase =>
      exact hparked.awaits (hrunning hstack).2 hstack hbase
  | continues thread focus source rest hstack hready =>
      obtain ⟨hstacks, hchannels, _, _⟩ := state.awaitResume_eq focus source
      exact hparked.steady hchannels
        (hstacks.trans (Function.update_eq_self thread state.callStacks).symm) rfl (fun _ h => h)
        (state.sameAwait_awaitResume focus source)
  | finishes thread focus op rest ending tasks hstack hop hvoid hvalue =>
      refine hparked.replaces (hrunning hstack).2 rfl rfl (by simp [hstack]) (by simp [hstack])
        (fun other hne => Frame.sameAwait_of_ne hne) ?_
      cases ending <;> simp [State.withStack, State.withFrame, Frame.finish]

omit [DecidableEq Thread] [DecidableEq Chan] in
theorem parked_initial (capacity : Chan → Nat) :
    Parked (initial capacity : State Thread V Chan) := by
  constructor <;> simp [initial, Channel.new, Frame.unborn]

/-- The coroutine that a step resumes. -/
def State.resumes? (state : State Thread V Chan) : Action Thread V Chan → Option Handle
  | .proceed thread =>
      match state.callStacks thread with
      | .resuming handle :: _ => some handle
      | _ => none
  | _ => none

/-- The await a coroutine is suspended in. -/
def Status.point? : Status V Chan → Option (Point V Chan)
  | .suspended point => some point
  | .unborn | .running | .finished => none

omit [Fintype Thread] [Fintype Chan] [DecidableEq Thread] [DecidableEq Chan] in
theorem Status.eq_of_mem_point? {status : Status V Chan} {point : Point V Chan}
    (hpoint : point ∈ status.point?) : status = .suspended point := by
  cases status with
  | suspended other =>
      cases hpoint
      rfl
  | _ => cases hpoint

/-- A coroutine is resumed out of an await on a channel only after the channel
removed its waiter and settled the await. -/
def WokenByChannel (state : State Thread V Chan) (action : Action Thread V Chan) : Prop :=
  ∀ handle ∈ state.resumes? action, (∀ channel, (state.channels channel).stored handle = 0) ∧
    ∀ point ∈ (state.frames handle).status.point?, point.Settled state.channels

instance : Decidable (WokenByChannel state action) :=
  inferInstanceAs (Decidable (∀ handle ∈ state.resumes? action,
    (∀ channel, (state.channels channel).stored handle = 0) ∧
      ∀ point ∈ (state.frames handle).status.point?, point.Settled state.channels))

omit [DecidableEq Thread] [DecidableEq Chan] in
theorem Parked.wokenByChannel (hparked : Parked state) (hsingle : Single state)
    (action : Action Thread V Chan) : WokenByChannel state action := by
  intro handle hresumes
  have hfree : parked state handle = 0 := by
    unfold State.resumes? at hresumes
    split at hresumes
    next thread =>
      split at hresumes
      next rest hstack =>
        cases hresumes
        exact hsingle.parked_resuming hstack
      next => cases hresumes
    next => cases hresumes
  refine ⟨fun channel => ?_, fun point hpoint => ?_⟩
  · by_contra hstored
    have hpos := parked_pos_of_stored (Nat.pos_of_ne_zero hstored)
    omega
  · have hstatus := Status.eq_of_mem_point? hpoint
    exact (hparked.settled handle point hstatus).resolve_right (by omega)

/-- In every run in which whoever schedules a coroutine without holding its
wake-up finds it idle, a coroutine parked on a channel stays parked until the
channel wakes it. -/
theorem wokenByChannel_meets (capacity : Chan → Nat) (actions : List (Action Thread V Chan))
    (hmeets : (machine Thread V Chan capacity).Meets SchedulesIdle (initial capacity) actions) :
    (machine Thread V Chan capacity).Meets WokenByChannel (initial capacity) actions := by
  refine Machine.throughout_of_meets (fun state => Single state ∧ Parked state) ?_ ?_
    ⟨single_initial capacity, parked_initial capacity⟩ hmeets
  · intro state action next hinvariant hcondition hstep
    have hmoves := moves_of_step hstep
    exact ⟨hmoves.single hcondition hinvariant.1, hmoves.keepsParked hinvariant.1 hinvariant.2⟩
  · intro state action next hinvariant _ _
    exact hinvariant.2.wokenByChannel hinvariant.1 action

/-- A parked sender is resumed after a receive took its value. -/
theorem wokenByChannel_send_run :
    (machine Unit Nat Unit fun _ => 0).Meets WokenByChannel (initial fun _ => 0)
      [.code () (.create 0 true), .body () (.send () 42), .proceed (), .code () (.tryRecv ()),
        .proceed (), .proceed (), .proceed (), .pop (), .proceed (), .proceed ()] :=
  wokenByChannel_meets (fun _ => 0) _ (by decide)

/-- A coroutine that was resumed and then parks in a receive is scheduled by the
resume loop, and resumed while its waiter is still in the list. -/
theorem early_resumption_run :
    ¬ (machine Unit Nat Unit fun _ => 1).Meets WokenByChannel (initial fun _ => 1)
      [.code () (.create 0 true), .body () .yield, .proceed (), .proceed (), .proceed (), .pop (),
        .proceed (), .proceed (), .body () (.recv ()), .proceed (), .proceed (), .proceed (),
        .proceed (), .proceed (), .pop (), .proceed (), .proceed ()] := by
  decide

end Runs

end Tang.Runtime
