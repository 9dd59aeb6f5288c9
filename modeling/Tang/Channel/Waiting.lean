import Tang.Channel.Backpressure
import Tang.Foundation.Turn

/-! # How long a parked operation waits

While receivers are parked, every value that the channel accepts goes to the
first of them. While senders are parked, every delivery frees the first of
them. So the place of an operation in its list tells which value it gets, or
which delivery frees it, whatever the other parties do until `close` flushes.
-/

namespace Tang

open Foundation Effect

variable {H A T : Type}

namespace Channel

/-- What becomes of the waiters of a channel while effects take place: each
accepted value is given to a parked receiver, each delivery frees a parked
sender, from the front of the lists. -/
structure Serving (before after : Channel H A T) (effects : List (Effect H A T)) : Prop where
  receivers : MovesUp (accepts effects).length before.recvWaiters after.recvWaiters
  senders : MovesUp (delivers effects).length before.sendWaiters after.sendWaiters
  given : ∀ (index : Nat) (receiver : RecvWaiter H A) (item : T),
    before.recvWaiters[index]? = some receiver → (accepts effects)[index]? = some item →
      (receiver.awaiter, item) ∈ delivers effects ∧ receiver.handle ∈ schedules effects
  freed : ∀ (index : Nat) (sender : SendWaiter H T),
    before.sendWaiters[index]? = some sender → index < (delivers effects).length →
      sender.value ∈ accepts effects ∧ sender.handle ∈ schedules effects

namespace Serving

variable {before middle after : Channel H A T} {effects more : List (Effect H A T)}

theorem refl (channel : Channel H A T) : channel.Serving channel [] where
  receivers := .refl _
  senders := .refl _
  given := by simp
  freed := by simp

/-- The waiters left by the first effects are served by the later ones. -/
theorem trans (hserving : before.Serving middle effects) (hlater : middle.Serving after more) :
    before.Serving after (effects ++ more) := by
  have haccepts : accepts (effects ++ more) = accepts effects ++ accepts more :=
    collect_append _ _ _
  have hdelivers : delivers (effects ++ more) = delivers effects ++ delivers more :=
    collect_append _ _ _
  have hschedules : schedules (effects ++ more) = schedules effects ++ schedules more :=
    collect_append _ _ _
  refine ⟨?_, ?_, ?_, ?_⟩
  · rw [haccepts, List.length_append]
    exact hserving.receivers.trans hlater.receivers
  · rw [hdelivers, List.length_append]
    exact hserving.senders.trans hlater.senders
  · intro index receiver item hreceiver hitem
    rw [haccepts] at hitem
    rw [hdelivers, hschedules, List.mem_append, List.mem_append]
    by_cases hbefore : index < (accepts effects).length
    · rw [List.getElem?_append_left hbefore] at hitem
      exact (hserving.given index receiver item hreceiver hitem).imp Or.inl Or.inl
    · rw [List.getElem?_append_right (Nat.le_of_not_lt hbefore)] at hitem
      have hwaits := hserving.receivers.getElem? hreceiver (Nat.le_of_not_lt hbefore)
      exact (hlater.given _ receiver item hwaits hitem).imp Or.inr Or.inr
  · intro index sender hsender hindex
    rw [hdelivers, List.length_append] at hindex
    rw [haccepts, hschedules, List.mem_append, List.mem_append]
    by_cases hbefore : index < (delivers effects).length
    · exact (hserving.freed index sender hsender hbefore).imp Or.inl Or.inl
    · have hwaits := hserving.senders.getElem? hsender (Nat.le_of_not_lt hbefore)
      exact (hlater.freed _ sender hwaits (by omega)).imp Or.inr Or.inr

/-- Nothing is accepted for a receiver and nobody is freed. -/
theorem of_idle
    (hreceivers : MovesUp (accepts effects).length before.recvWaiters after.recvWaiters)
    (hsenders : MovesUp (delivers effects).length before.sendWaiters after.sendWaiters)
    (haccepts : before.recvWaiters = [] ∨ accepts effects = [])
    (hdelivers : before.sendWaiters = [] ∨ delivers effects = []) :
    before.Serving after effects where
  receivers := hreceivers
  senders := hsenders
  given := by
    intro index receiver item hreceiver hitem
    rcases haccepts with hnone | hnone <;> simp [hnone] at hreceiver hitem
  freed := by
    intro index sender hsender hindex
    rcases hdelivers with hnone | hnone <;> simp [hnone] at hsender hindex

/-- A value is handed to the first receiver. -/
theorem of_receiver {receiver : RecvWaiter H A} {rest : List (RecvWaiter H A)} {item : T}
    (hwaiters : before.recvWaiters = receiver :: rest) (hafter : after.recvWaiters = rest)
    (hsenders : before.sendWaiters = []) (haccepts : accepts effects = [item])
    (hdelivers : (receiver.awaiter, item) ∈ delivers effects)
    (hschedules : receiver.handle ∈ schedules effects) : before.Serving after effects where
  receivers := ⟨[], by simp [hwaiters, hafter, haccepts]⟩
  senders := ⟨after.sendWaiters, by simp [hsenders]⟩
  given := by
    intro index other value hother hvalue
    rw [haccepts] at hvalue
    cases index with
    | zero =>
        rw [hwaiters] at hother
        cases hother
        cases hvalue
        exact ⟨hdelivers, hschedules⟩
    | succ index => simp at hvalue
  freed := by simp [hsenders]

/-- The first sender is freed. -/
theorem of_sender {sender : SendWaiter H T} {rest : List (SendWaiter H T)} {delivery : A × T}
    (hwaiters : before.sendWaiters = sender :: rest) (hafter : after.sendWaiters = rest)
    (hreceivers : before.recvWaiters = []) (hdelivers : delivers effects = [delivery])
    (haccepts : sender.value ∈ accepts effects) (hschedules : sender.handle ∈ schedules effects) :
    before.Serving after effects where
  receivers := ⟨after.recvWaiters, by simp [hreceivers]⟩
  senders := ⟨[], by simp [hwaiters, hafter, hdelivers]⟩
  given := by simp [hreceivers]
  freed := by
    intro index other hother hindex
    rw [hdelivers, List.length_singleton, Nat.lt_one_iff] at hindex
    subst hindex
    rw [hwaiters] at hother
    cases hother
    exact ⟨haccepts, hschedules⟩

end Serving

/-! ## The bodies of the channel -/

variable {channel : Channel H A T}

theorem trySendWith_serving (hwf : channel.WellFormed) (value : T) (used : Option T) :
    channel.Serving (channel.trySendWith value used).channel
      (channel.trySendWith value used).effects := by
  rcases channel.trySendWith_cases value used with
    ⟨_, hout⟩ | ⟨receiver, rest, _, hwaiters, hout⟩ | ⟨_, hnone, _, hout⟩
  · rw [hout]
    exact .refl channel
  · rw [hout]
    exact .of_receiver hwaiters rfl (hwf.sendWaiters_nil hwaiters) rfl (by simp) (by simp)
  · rw [hout]
    exact .of_idle ⟨[], by simp [hnone]⟩ (.refl _) (Or.inl hnone) (Or.inr rfl)

theorem tryRecv_serving (hwf : channel.WellFormed) (reader : A) (old : Option T) :
    channel.Serving (channel.tryRecv reader old).channel (channel.tryRecv reader old).effects := by
  rcases channel.tryRecv_cases reader old with
    ⟨front, buffer, sender, rest, _, hwaiters, hout⟩ | ⟨front, buffer, _, hnone, hout⟩ |
      ⟨sender, rest, _, _, hwaiters, hout⟩ | ⟨_, _, hout⟩
  · rw [hout]
    exact .of_sender hwaiters rfl (hwf.recvWaiters_nil hwaiters) rfl (by simp) (by simp)
  · rw [hout]
    exact .of_idle (.refl _) ⟨[], by simp [hnone]⟩ (Or.inr rfl) (Or.inl hnone)
  · rw [hout]
    exact .of_sender hwaiters rfl (hwf.recvWaiters_nil hwaiters) rfl (by simp) (by simp)
  · rw [hout]
    exact .refl channel

theorem registerSendWaiter_serving (hwf : channel.WellFormed) (handle : H) (value : T) :
    channel.Serving (channel.registerSendWaiter handle value).channel
      (channel.registerSendWaiter handle value).effects := by
  rcases channel.registerSendWaiter_cases handle value with
    ⟨_, hout⟩ | ⟨receiver, rest, _, hwaiters, hout⟩ | ⟨_, hnone, hout⟩
  · rw [hout]
    exact .of_idle (.refl _) (.refl _) (Or.inr rfl) (Or.inr rfl)
  · rw [hout]
    exact .of_receiver hwaiters rfl (hwf.sendWaiters_nil hwaiters) rfl (by simp) (by simp)
  · rw [hout]
    exact .of_idle (.refl _) ⟨[⟨handle, value⟩], rfl⟩ (Or.inr rfl) (Or.inr rfl)

theorem registerRecvWaiter_serving (hwf : channel.WellFormed) (handle : H) (awaiter : A) :
    channel.Serving (channel.registerRecvWaiter handle awaiter).channel
      (channel.registerRecvWaiter handle awaiter).effects := by
  rcases channel.registerRecvWaiter_cases handle awaiter with
    ⟨_, hout⟩ | ⟨sender, rest, _, hwaiters, hout⟩ | ⟨_, hnone, hout⟩
  · rw [hout]
    exact .of_idle (.refl _) (.refl _) (Or.inr rfl) (Or.inr rfl)
  · rw [hout]
    exact .of_sender hwaiters rfl (hwf.recvWaiters_nil hwaiters) rfl (by simp) (by simp)
  · rw [hout]
    exact .of_idle ⟨[⟨handle, awaiter⟩], rfl⟩ (.refl _) (Or.inr rfl) (Or.inr rfl)

end Channel

namespace Interleaving

variable {Op V : Type} [DecidableEq Op] {state next final : State Op V} {action : Action Op V}

/-! ## A run without a flush -/

theorem Moves.serving (hmoves : Moves state action next) (hwf : state.channel.WellFormed)
    (hflush : ∀ op, action ≠ .closeFlush op) :
    ∃ more, effects next.log = effects state.log ++ more ∧
      state.channel.Serving next.channel more := by
  cases hmoves with
  | send _ op value used =>
      exact ⟨_, State.sendReturns_effects _, Channel.trySendWith_serving hwf ⟨op, value⟩ used⟩
  | recv _ op => exact ⟨_, State.recvReturns_effects _, Channel.tryRecv_serving hwf op none⟩
  | sendSuspend op value =>
      exact ⟨_, State.suspends_effects _, Channel.registerSendWaiter_serving hwf op ⟨op, value⟩⟩
  | recvSuspend op =>
      exact ⟨_, State.suspends_effects _, Channel.registerRecvWaiter_serving hwf op op⟩
  | sendFails | recvFails | exchangeClosed => exact ⟨[], by simp, .refl _⟩
  | exchange =>
      exact ⟨[], by simp, .of_idle (.refl _) (.refl _) (Or.inr rfl) (Or.inr rfl)⟩
  | flush op => exact absurd rfl (hflush op)

theorem serving_of_exec {capacity : Nat} (hwf : state.channel.WellFormed)
    {later : List (Action Op V)} (hflush : ∀ op, .closeFlush op ∉ later)
    (hlater : (machine Op V capacity).exec state later = some final) :
    ∃ more, effects final.log = effects state.log ++ more ∧
      state.channel.Serving final.channel more := by
  induction later generalizing state with
  | nil =>
      cases hlater
      exact ⟨[], by simp, .refl _⟩
  | cons action rest ih =>
      obtain ⟨next, hnext, hrest⟩ := Option.bind_eq_some_iff.mp hlater
      have hmoves := moves_of_step hnext
      obtain ⟨first, hfirst, hserving⟩ := hmoves.serving hwf
        fun op heq => hflush op (heq ▸ List.mem_cons_self)
      obtain ⟨more, hmore, hserves⟩ := ih (hmoves.wellFormed hwf)
        (fun op hmem => hflush op (List.mem_cons_of_mem _ hmem)) hrest
      exact ⟨first ++ more, by rw [hmore, hfirst, List.append_assoc], hserving.trans hserves⟩

/-- What the channel did from the first state to the second. -/
def since (state final : State Op V) : List (Effect Op Op (Item Op V)) :=
  (effects final.log).drop (effects state.log).length

/-- The receiver with `k` receivers before it gets the value that is accepted as
the `k + 1`-st from now on and is resumed then, and not before; the sender with
`k` senders before it is resumed at the `k + 1`-st delivery. -/
structure WaitsInLine (state final : State Op V) : Prop where
  receivers : ∀ (index : Nat) (receiver : RecvWaiter Op Op),
    state.channel.recvWaiters[index]? = some receiver →
    ((accepts (since state final)).length ≤ index ∧
        final.channel.recvWaiters[index - (accepts (since state final)).length]? =
          some receiver) ∨
      ∃ item, (accepts (since state final))[index]? = some item ∧
        (receiver.awaiter, item) ∈ delivers (since state final) ∧
        receiver.handle ∈ schedules (since state final) ∧
        receiver ∉ final.channel.recvWaiters
  senders : ∀ (index : Nat) (sender : SendWaiter Op (Item Op V)),
    state.channel.sendWaiters[index]? = some sender →
    ((delivers (since state final)).length ≤ index ∧
        final.channel.sendWaiters[index - (delivers (since state final)).length]? =
          some sender) ∨
      index < (delivers (since state final)).length ∧
        sender.value ∈ accepts (since state final) ∧
        sender.handle ∈ schedules (since state final) ∧
        sender ∉ final.channel.sendWaiters

/-- A handle that has been scheduled is not parked. -/
theorem SendersApart.stored_of_scheduled (hapart : SendersApart state) {op : Op}
    (hscheduled : op ∈ schedules (effects state.log)) : state.channel.stored op = 0 := by
  have honce := hapart.once op
  have hcount := List.count_pos_iff.mpr hscheduled
  simp only [wakeups, scheduled] at honce
  omega

/-- Waiting is bounded. In every interleaving, from any state that is reached and
as long as no `close` flushes the waiters, a parked operation waits for exactly
as many values, or deliveries, as there are operations parked before it. -/
theorem parked_waitsInLine (capacity : Nat) (front later : List (Action Op V))
    (hfront : (machine Op V capacity).exec (initial capacity) front = some state)
    (hlater : (machine Op V capacity).exec state later = some final)
    (hflush : ∀ op, .closeFlush op ∉ later) : WaitsInLine state final := by
  obtain ⟨hwf, hapart⟩ := Machine.exec_invariant (fun state : State Op V =>
      state.channel.WellFormed ∧ SendersApart state)
    (fun _ _ _ ⟨hwf, hapart⟩ hstep => ⟨(moves_of_step hstep).wellFormed hwf,
      (moves_of_step hstep).sendersApart hapart⟩)
    ⟨Channel.new_wellFormed capacity, initial_sendersApart capacity⟩ hfront
  have hend : SendersApart final := Machine.exec_invariant _
    (fun _ _ _ hapart hstep => (moves_of_step hstep).sendersApart hapart) hapart hlater
  obtain ⟨more, hmore, hserving⟩ := serving_of_exec hwf hflush hlater
  have hsince : since state final = more := by rw [since, hmore, List.drop_left]
  have hschedules : schedules (effects final.log) =
      schedules (effects state.log) ++ schedules more := by
    rw [hmore]
    exact collect_append _ _ _
  have hgone : ∀ handle ∈ schedules more, final.channel.stored handle = 0 := by
    intro handle hhandle
    apply hend.stored_of_scheduled
    rw [hschedules]
    exact List.mem_append_right _ hhandle
  constructor
  case receivers =>
    intro index receiver hreceiver
    rw [hsince]
    by_cases hwaits : (accepts more).length ≤ index
    · exact Or.inl ⟨hwaits, hserving.receivers.getElem? hreceiver hwaits⟩
    · have hitem := List.getElem?_eq_getElem (Nat.lt_of_not_le hwaits)
      obtain ⟨hgiven, hscheduled⟩ := hserving.given index receiver _ hreceiver hitem
      refine Or.inr ⟨_, hitem, hgiven, hscheduled, fun hparked => ?_⟩
      have hstored := List.count_pos_iff.mpr (List.mem_map_of_mem (f := RecvWaiter.handle) hparked)
      have hnone := hgone _ hscheduled
      simp only [Channel.stored] at hnone
      omega
  case senders =>
    intro index sender hsender
    rw [hsince]
    by_cases hwaits : (delivers more).length ≤ index
    · exact Or.inl ⟨hwaits, hserving.senders.getElem? hsender hwaits⟩
    · obtain ⟨haccepted, hscheduled⟩ := hserving.freed index sender hsender (by omega)
      refine Or.inr ⟨by omega, haccepted, hscheduled, fun hparked => ?_⟩
      have hstored := List.count_pos_iff.mpr (List.mem_map_of_mem (f := SendWaiter.handle) hparked)
      have hnone := hgone _ hscheduled
      simp only [Channel.stored] at hnone
      omega

/-- Two receivers are parked, one value is accepted. -/
theorem parked_run_waitsInLine : ∃ state final : State Nat Nat,
    (machine Nat Nat 1).exec (initial 1)
        [.recvReady 0, .recvSuspend 0, .recvReady 1, .recvSuspend 1] = some state ∧
      (machine Nat Nat 1).exec state [.sendReady 2 7, .recvReady 3] = some final ∧
      accepts (since state final) = [⟨2, 7⟩] ∧ final.channel.recvWaiters = [⟨1, 1⟩] ∧
      WaitsInLine state final :=
  ⟨_, _, rfl, rfl, rfl, rfl, parked_waitsInLine 1
    [.recvReady 0, .recvSuspend 0, .recvReady 1, .recvSuspend 1] [.sendReady 2 7, .recvReady 3]
    rfl rfl (by simp)⟩

end Interleaving

end Tang
