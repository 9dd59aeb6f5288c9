import Tang.Channel.Wakeup
import Tang.Channel.Accounting

/-! # Order of delivery, and when a receive may fail

A value that `try_send` or a registration hands straight to a receiver does not
queue behind `buffer_`. Delivery is first-in first-out exactly while no such
value overtakes an older one, and a receive fails on a drained channel as long
as no receiver registers in front of a buffered value.
-/

namespace Tang.Interleaving

open Foundation Effect

variable {Op V : Type} {state next : State Op V}

/-! ## Delivery in order -/

/-- A value whose send was accepted before the send of another value began is
delivered before that other value. -/
def FifoDelivery (state : State Op V) : Prop :=
  ∀ first second, Precedes state.log (.effect (.accept first))
      (.beganSend second.op second.value) →
    second ∈ received state → Precedes (received state) first second

/-- A value about to be handed straight to a receiver overtakes no buffered
value that was accepted before its send began. An attempt begins its send, so
everything in the buffer is older. -/
def OvertakesNobody (state : State Op V) : Action Op V → Prop
  | .trySend _ _ | .trySendMove _ _ | .sendReady _ _ =>
      state.channel.closed = false → state.channel.recvWaiters ≠ [] → state.channel.buffer = []
  | .sendSuspend op =>
      state.channel.closed = false → state.channel.recvWaiters ≠ [] →
        ∀ value, state.phase op = .sendTried value → ∀ first ∈ state.channel.buffer,
          ¬ Precedes state.log (.effect (.accept first)) (.beganSend op value)
  | .recvSuspend _ =>
      state.channel.closed = false → ∀ waiter ∈ state.channel.sendWaiters.head?,
        ∀ first ∈ state.channel.buffer, ¬ Precedes state.log (.effect (.accept first))
          (.beganSend waiter.value.op waiter.value.value)
  | .tryRecv _ | .recvReady _ | .closeExchange _ | .closeFlush _ => True

/-- The accepted values, in the order in which they were or will be delivered. -/
def line (state : State Op V) : List (Item Op V) := received state ++ state.channel.buffer

/-- The line respects the order of acceptance and beginning. -/
def InLine (state : State Op V) : Prop :=
  ∀ first second, Precedes state.log (.effect (.accept first))
      (.beganSend second.op second.value) →
    second ∈ line state → Precedes (line state) first second

theorem mem_accepts_effects {log : List (Event Op V)} {item : Item Op V} :
    item ∈ accepts (effects log) ↔ .effect (.accept item) ∈ log := by
  have hevent : ∀ event : Event Op V,
      (∃ effect, event.effect? = some effect ∧ effect.accept? = some item) ↔
        event = .effect (.accept item) := by
    intro event
    cases event with
    | effect emitted => cases emitted <;> simp
    | _ => simp
  simp only [accepts, collect, effects, List.mem_filterMap]
  refine ⟨?_, fun hmem => ⟨.accept item, ⟨_, hmem, rfl⟩, rfl⟩⟩
  rintro ⟨effect, ⟨event, hmem, heffect⟩, haccept⟩
  rwa [(hevent event).mp ⟨effect, heffect, haccept⟩] at hmem

/-! ### What a step does to the line -/

/-- A step adds events of which only the first can begin a send, and only that
of a fresh operation. -/
structure Extends (state next : State Op V) (events : List (Event Op V)) : Prop where
  log : next.log = state.log ++ events
  fresh : ∀ op value, .beganSend op value ∈ events → state.phase op = .fresh
  tail : ∀ op value, .beganSend op value ∉ events.tail

theorem Moves.extends [DecidableEq Op] {action : Action Op V} (hmoves : Moves state action next) :
    ∃ events, Extends state next events := by
  cases hmoves with
  | send _ op value used _ hphase =>
      refine ⟨_, rfl, fun other v hbegan => ?_, by simp⟩
      have heq : other = op := (by simpa using hbegan : other = op ∧ v = value).1
      rwa [heq]
  | sendFails op value hphase _ =>
      refine ⟨_, rfl, fun other v hbegan => ?_, by simp⟩
      have heq : other = op := (by simpa using hbegan : other = op ∧ v = value).1
      rwa [heq]
  | recv _ op _ _ => exact ⟨_, rfl, by simp, by simp⟩
  | recvFails op _ _ _ => exact ⟨_, rfl, by simp, by simp⟩
  | sendSuspend op value _ => exact ⟨_, rfl, by simp, by simp⟩
  | recvSuspend op _ => exact ⟨_, rfl, by simp, by simp⟩
  | exchange op _ _ => exact ⟨_, rfl, by simp, by simp⟩
  | exchangeClosed op _ _ => exact ⟨_, rfl, by simp, by simp⟩
  | flush op _ => exact ⟨_, rfl, by simp, fun _ _ hmem => by simpa using List.mem_of_mem_tail hmem⟩

/-- A pair of an acceptance and a beginning in the longer history is an old one,
or an operation begins only now. -/
theorem Extends.precedes {events : List (Event Op V)} (hextends : Extends state next events)
    {first : Item Op V} {op : Op} {value : V}
    (hprecedes : Precedes next.log (.effect (.accept first)) (.beganSend op value)) :
    Precedes state.log (.effect (.accept first)) (.beganSend op value) ∨
      .effect (.accept first) ∈ state.log ∧ state.phase op = .fresh := by
  rw [hextends.log, precedes_append] at hprecedes
  rcases hprecedes with hold | ⟨hfirst, hsecond⟩ | hnew
  · exact Or.inl hold
  · exact Or.inr ⟨hfirst, hextends.fresh op value hsecond⟩
  · exact absurd hnew.mem_tail (hextends.tail op value)

/-- A registration begins no send. -/
theorem precedes_suspends [DecidableEq Op] {op other : Op} {value : V} {first : Item Op V}
    {out : Outcome Op Op (Item Op V) Unit} :
    Precedes (state.suspends op out).log (.effect (.accept first)) (.beganSend other value) ↔
      Precedes state.log (.effect (.accept first)) (.beganSend other value) :=
  precedes_append_of_notMem (by simp)

/-- The line stays, grows at its end, or is joined in front of the buffer. -/
inductive Lines (state next : State Op V) (condition : Prop) : Prop
  | stays (hcondition : condition) (hline : line next = line state)
  | joins (hcondition : condition) (item : Item Op V)
      (hline : line next = line state ++ [item])
  | jumps (item : Item Op V) (hreceived : received next = received state ++ [item])
      (hbuffer : next.channel.buffer = state.channel.buffer)
      (hcondition : condition ↔ ∀ first ∈ state.channel.buffer,
        ¬ Precedes next.log (.effect (.accept first)) (.beganSend item.op item.value))

theorem Lines.of_iff {condition other : Prop} (hlines : Lines state next condition)
    (hiff : condition ↔ other) : Lines state next other := by
  cases hlines with
  | stays hcondition hline => exact .stays (hiff.mp hcondition) hline
  | joins hcondition item hline => exact .joins (hiff.mp hcondition) item hline
  | jumps item hreceived hbuffer hcondition =>
      exact .jumps item hreceived hbuffer (hiff.symm.trans hcondition)

/-! ### The line stays in order -/

section Line

variable [DecidableEq Op] [DecidableEq V]

theorem Ledger.mem_line_iff (hledger : Ledger state) {item : Item Op V} :
    item ∈ line state ↔ .effect (.accept item) ∈ state.log := by
  have hsettled := hledger.balanced.settled item
  rw [← mem_accepts_effects, line, ← List.count_pos_iff, ← List.count_pos_iff, hsettled,
    List.count_append]

theorem Ledger.taken_of_mem_line (hledger : Ledger state) {item : Item Op V}
    (hitem : item ∈ line state) : item ∈ taken state := by
  rw [hledger.balanced.partition.mem_iff]
  exact List.mem_append_left _ (List.mem_append_left _ hitem)

theorem Ledger.line_nodup (hledger : Ledger state) : (line state).Nodup :=
  (hledger.places_nodup.of_append_left).of_append_left

/-- An operation that has not begun has nothing in line. -/
theorem Ledger.not_mem_line_of_fresh (hledger : Ledger state) {op : Op} {value : V}
    (hphase : state.phase op = .fresh) : (⟨op, value⟩ : Item Op V) ∉ line state := by
  intro hmem
  have honce := hledger.sentOnce.once op
  have hop : op ∈ (taken state).map Item.op :=
    List.mem_map.mpr ⟨_, hledger.taken_of_mem_line hmem, rfl⟩
  have hpos := List.count_pos_iff.mpr hop
  rw [hphase] at honce
  simp only [Phase.finished, Bool.false_eq_true, if_false] at honce
  omega

theorem InLine.fifoDelivery (hinLine : InLine state) (hledger : Ledger state) :
    FifoDelivery state := by
  intro first second hprecedes hsecond
  have hline := hinLine first second hprecedes (List.mem_append_left _ hsecond)
  exact hline.of_append_of_mem hledger.line_nodup hsecond

/-- A step that keeps the order of its condition keeps the line in order. -/
theorem Lines.inLine {condition : Prop} {events : List (Event Op V)}
    (hlines : Lines state next condition) (hcondition : condition)
    (hextends : Extends state next events) (hledger : Ledger state)
    (hinLine : InLine state) : InLine next := by
  have hold : ∀ first second : Item Op V, second ∈ line state →
      Precedes next.log (.effect (.accept first)) (.beganSend second.op second.value) →
      Precedes (line state) first second := by
    intro first second hsecond hprecedes
    rcases hextends.precedes hprecedes with hold | ⟨_, hfresh⟩
    · exact hinLine first second hold hsecond
    · exact absurd hsecond (hledger.not_mem_line_of_fresh hfresh)
  have haccepted : ∀ first second : Item Op V,
      Precedes next.log (.effect (.accept first)) (.beganSend second.op second.value) →
      first ∈ line state := by
    intro first second hprecedes
    rw [hledger.mem_line_iff]
    rcases hextends.precedes hprecedes with hold | ⟨hfirst, _⟩
    · exact hold.mem_left
    · exact hfirst
  intro first second hprecedes hsecond
  -- By what the step does to the line, and in `jumps` by which part of it `second` is in.
  cases hlines with
  | stays _ hline =>
      rw [hline] at hsecond ⊢
      exact hold first second hsecond hprecedes
  | joins _ item hline =>
      rw [hline, List.mem_append, List.mem_singleton] at hsecond
      rw [hline]
      rcases hsecond with hsecond | rfl
      · exact (hold first second hsecond hprecedes).append_right _
      · exact .of_mem_of_mem (haccepted first second hprecedes) (List.mem_singleton_self _)
  | jumps item hreceived hbuffer hiff =>
      have hline : line next = received state ++ [item] ++ state.channel.buffer := by
        rw [line, hreceived, hbuffer]
      have hsublist : (line state).Sublist (line next) := by
        rw [hline]
        exact (List.sublist_append_left _ _).append_right _
      rw [hline, List.mem_append, List.mem_append, List.mem_singleton] at hsecond
      rcases hsecond with (hsecond | rfl) | hsecond
      · exact (hold first second (List.mem_append_left _ hsecond) hprecedes).trans hsublist
      · have hfirst : first ∈ received state := by
          apply (List.mem_append.mp (haccepted first second hprecedes)).resolve_right
          exact fun hmem => hiff.mp hcondition first hmem hprecedes
        rw [hline]
        exact (Precedes.of_mem_of_mem hfirst (List.mem_singleton_self _)).append_right _
      · exact (hold first second (List.mem_append_right _ hsecond) hprecedes).trans hsublist

/-- A delivery in order is a step that meets its condition. -/
theorem Lines.condition_of_fifoDelivery {condition : Prop} (hlines : Lines state next condition)
    (hledger : Ledger next) (hfifo : FifoDelivery next) : condition := by
  cases hlines with
  | stays hcondition _ => exact hcondition
  | joins hcondition _ _ => exact hcondition
  | jumps item hreceived hbuffer hiff =>
      -- A value that `item` overtook would be both received and in the buffer.
      refine hiff.mpr fun first hfirst hprecedes => ?_
      have hmem : item ∈ received next := by simp [hreceived]
      have hdelivered : first ∈ received next := (hfifo first item hprecedes hmem).mem_left
      have hbuffered : first ∈ next.channel.buffer := by rwa [hbuffer]
      exact List.disjoint_of_nodup_append hledger.line_nodup hdelivered hbuffered

/-- A step only lengthens the line at its end, or hands one value straight to a
receiver. -/
theorem Moves.lines {action : Action Op V} (hmoves : Moves state action next)
    (hledger : Ledger state) : Lines state next (OvertakesNobody state action) := by
  cases hmoves with
  | send _ op value used haction hphase =>
      have hiff : OvertakesNobody state action ↔ (state.channel.closed = false →
          state.channel.recvWaiters ≠ [] → state.channel.buffer = []) := by
        rcases haction with rfl | rfl | rfl <;> rfl
      refine Lines.of_iff ?_ hiff.symm
      rcases state.channel.trySendWith_cases ⟨op, value⟩ used with
        ⟨hblocked, hout⟩ | ⟨waiter, rest, hclosed, hwaiters, hout⟩ | ⟨_, hwaiters, _, hout⟩
      · refine .stays (fun hclosed hparked => ?_) (by simp [line, received, hout])
        rcases hblocked with hclosed' | ⟨hwaiters, _⟩
        · simp [hclosed] at hclosed'
        · exact absurd hwaiters hparked
      · refine .jumps ⟨op, value⟩ (by simp [received, hout]) (by simp [hout]) ?_
        -- The send begins here, so it begins after everything in the buffer was accepted.
        have hafter : ∀ first ∈ state.channel.buffer,
            Precedes (state.sendReturns op value (state.channel.trySendWith ⟨op, value⟩ used)).log
              (.effect (.accept first)) (.beganSend op value) := by
          intro first hfirst
          have hmem := hledger.mem_line_iff.mp (List.mem_append_right _ hfirst)
          exact .of_mem_of_mem hmem (by simp)
        refine ⟨fun hempty first hfirst => ?_, fun hnone _ _ => ?_⟩
        · simp [hempty hclosed (by simp [hwaiters])] at hfirst
        · exact List.eq_nil_iff_forall_not_mem.mpr fun first hfirst =>
            hnone first hfirst (hafter first hfirst)
      · exact .joins (fun _ hparked => absurd hwaiters hparked) ⟨op, value⟩
          (by simp [line, received, hout])
  | sendFails op value _ hblocked =>
      refine .stays (fun hclosed hparked => ?_) (by simp [line, received])
      rcases hblocked with hclosed' | ⟨hwaiters, _⟩
      · simp [hclosed] at hclosed'
      · exact absurd hwaiters hparked
  | recv _ op haction _ =>
      have hcondition : OvertakesNobody state action := by
        rcases haction with rfl | rfl <;> trivial
      rcases state.channel.tryRecv_cases op none with
        ⟨front, buffer, waiter, rest, hbuffer, _, hout⟩ | ⟨front, buffer, hbuffer, _, hout⟩ |
          ⟨waiter, rest, _, hbuffer, _, hout⟩ | ⟨_, _, hout⟩
      · exact .joins hcondition waiter.value (by simp [line, received, hout, hbuffer])
      · exact .stays hcondition (by simp [line, received, hout, hbuffer])
      · exact .joins hcondition waiter.value (by simp [line, received, hout, hbuffer])
      · exact .stays hcondition (by simp [line, received, hout])
  | recvFails op _ _ _ => exact .stays trivial (by simp [line, received])
  | sendSuspend op value hphase =>
      rcases state.channel.registerSendWaiter_cases op ⟨op, value⟩ with
        ⟨hclosed, hout⟩ | ⟨waiter, rest, hclosed, hwaiters, hout⟩ | ⟨_, hwaiters, hout⟩
      · refine .stays (fun hclosed' => ?_) (by simp [line, received, hout])
        simp [hclosed] at hclosed'
      · refine .jumps ⟨op, value⟩ (by simp [received, hout]) (by simp [hout]) ?_
        refine ⟨fun hnone first hfirst hprecedes => ?_, fun hnone _ _ v hv first hfirst h => ?_⟩
        · exact hnone hclosed (by simp [hwaiters]) value hphase first hfirst
            (precedes_suspends.mp hprecedes)
        · obtain rfl : value = v := by simpa [hphase] using hv
          exact hnone first hfirst (precedes_suspends.mpr h)
      · exact .stays (fun _ hparked => absurd hwaiters hparked) (by simp [line, received, hout])
  | recvSuspend op hphase =>
      rcases state.channel.registerRecvWaiter_cases op op with
        ⟨hclosed, hout⟩ | ⟨waiter, rest, hclosed, hwaiters, hout⟩ | ⟨_, hwaiters, hout⟩
      · refine .stays (fun hclosed' => ?_) (by simp [line, received, hout])
        simp [hclosed] at hclosed'
      · refine .jumps waiter.value (by simp [received, hout]) (by simp [hout]) ?_
        have hhead : waiter ∈ state.channel.sendWaiters.head? := by simp [hwaiters]
        refine ⟨fun hnone first hfirst hprecedes => ?_, fun hnone _ w hw first hfirst h => ?_⟩
        · exact hnone hclosed waiter hhead first hfirst (precedes_suspends.mp hprecedes)
        · obtain rfl : waiter = w := by simpa [hwaiters] using hw
          exact hnone first hfirst (precedes_suspends.mpr h)
      · refine .stays (fun _ other hother => ?_) (by simp [line, received, hout])
        simp [hwaiters] at hother
  | exchange op _ _ => exact .stays trivial (by simp [line, received])
  | exchangeClosed op _ _ => exact .stays trivial (by simp [line, received])
  | flush op _ => exact .stays trivial (by simp [line, received])

end Line

/-- On a channel of any capacity a run delivers first-in first-out exactly if
no value handed straight to a receiver overtakes an older one. -/
theorem fifoDelivery_along_iff [DecidableEq Op] (capacity : Nat)
    (actions : List (Action Op V)) :
    (machine Op V capacity).Along FifoDelivery (initial capacity) actions ↔
      (machine Op V capacity).Meets OvertakesNobody (initial capacity) actions := by
  classical
  apply Machine.along_iff_meets fun state => Ledger state ∧ InLine state
  · rintro state action next ⟨hledger, hinLine⟩ _ hcondition hstep
    have hmoves := moves_of_step hstep
    obtain ⟨events, hextends⟩ := hmoves.extends
    exact ⟨hmoves.ledger hledger,
      (hmoves.lines hledger).inLine hcondition hextends hledger hinLine⟩
  · rintro state action next ⟨hledger, hinLine⟩ _ hstep
    have hmoves := moves_of_step hstep
    have hledgerNext := hmoves.ledger hledger
    obtain ⟨events, hextends⟩ := hmoves.extends
    refine ⟨(hmoves.lines hledger).condition_of_fifoDelivery hledgerNext, fun hcondition => ?_⟩
    exact ((hmoves.lines hledger).inLine hcondition hextends hledger hinLine).fifoDelivery
      hledgerNext
  · exact ⟨initial_ledger capacity, fun _ _ _ hsecond => absurd hsecond List.not_mem_nil⟩
  · exact fun _ _ _ hsecond => absurd hsecond List.not_mem_nil

/-- A receiver is parked in front of the value 10. The value 20, sent later, is
handed to that receiver while 10 stays in the buffer. -/
theorem overtaking_run :
    ¬ (machine Nat Nat 1).Along FifoDelivery (initial 1)
      [.recvReady 0, .trySend 1 10, .recvSuspend 0, .trySend 2 20] := by
  intro halong
  have hlast := halong.last rfl
  have hordered := hlast ⟨1, 10⟩ ⟨2, 20⟩ (by decide) (by decide)
  exact absurd hordered (by decide)

/-! ## Failure only on a drained channel -/

/-- When a step tells a parked or registering receiver that its receive failed,
the channel is closed and its buffer empty. -/
def FailsDrained (state : State Op V) (_ : Action Op V) (next : State Op V) : Prop :=
  ∀ events, next.log = state.log ++ events → ∀ op, .effect (.result op false) ∈ events →
    (state.channel.closed = true ∧ state.channel.buffer = []) ∧
      next.channel.closed = true ∧ next.channel.buffer = []

/-- A receiver that no parked sender serves registers at an empty buffer. -/
def RegistersDrained (state : State Op V) : Action Op V → Prop
  | .recvSuspend _ =>
      (state.channel.closed = true ∨ state.channel.sendWaiters = []) → state.channel.buffer = []
  | _ => True

/-- Receivers are parked at an empty buffer only, and a `close` between its two
steps has closed the channel. -/
structure FlushesDrained (state : State Op V) : Prop where
  wellFormed : state.channel.WellFormed
  blocked : state.channel.ReceiversBlocked
  closing : ∀ op, state.phase op = .closing → state.channel.closed = true

section Drained

variable [DecidableEq Op] {action : Action Op V}

theorem FlushesDrained.of_phase (hdrained : FlushesDrained state) {op : Op} {phase : Phase V}
    (hwf : next.channel.WellFormed) (hblocked : next.channel.ReceiversBlocked)
    (hclosed : state.channel.closed = true → next.channel.closed = true)
    (hphase : next.phase = Function.update state.phase op phase)
    (hclosing : phase = .closing → next.channel.closed = true) : FlushesDrained next := by
  refine ⟨hwf, hblocked, fun other hother => ?_⟩
  rw [hphase] at hother
  by_cases heq : other = op
  · subst other
    rw [Function.update_self] at hother
    exact hclosing hother
  · rw [Function.update_of_ne heq] at hother
    exact hclosed (hdrained.closing other hother)

theorem Moves.flushesDrained (hmoves : Moves state action next)
    (hdrained : FlushesDrained state) (hcondition : RegistersDrained state action) :
    FlushesDrained next := by
  have hwf := hmoves.wellFormed hdrained.wellFormed
  have hblocked := hdrained.blocked
  cases hmoves with
  | send _ op value used _ _ =>
      exact hdrained.of_phase hwf (hblocked.trySendWith ⟨op, value⟩ used) (by simp) rfl (by simp)
  | sendFails op value _ _ => exact hdrained.of_phase hwf hblocked id rfl (by simp)
  | recv _ op _ _ =>
      exact hdrained.of_phase hwf (hblocked.tryRecv hdrained.wellFormed op none) (by simp) rfl
        (by simp)
  | recvFails op _ _ _ => exact hdrained.of_phase hwf hblocked id rfl (by simp)
  | sendSuspend op value _ =>
      exact hdrained.of_phase hwf (hblocked.registerSendWaiter op ⟨op, value⟩) (by simp) rfl
        (by simp)
  | recvSuspend op _ =>
      have hempty := fun (_ : state.channel.closed = false) hnone => hcondition (Or.inr hnone)
      exact hdrained.of_phase hwf (hblocked.registerRecvWaiter hempty op op) (by simp) rfl
        (by simp)
  | exchange op _ _ => exact hdrained.of_phase hwf hblocked (fun _ => rfl) rfl (fun _ => rfl)
  | exchangeClosed op _ _ => exact hdrained.of_phase hwf hblocked id rfl (by simp)
  | flush op _ =>
      exact hdrained.of_phase hwf (fun hparked => absurd rfl hparked) (by simp) rfl (by simp)

/-- A step that reports failures reports them on a drained channel. -/
theorem Moves.failsDrained (hmoves : Moves state action next)
    (hdrained : FlushesDrained state) (hcondition : RegistersDrained state action) :
    FailsDrained state action next := by
  intro events hlog op hfailed
  have hevents : ∀ added, next.log = state.log ++ added → .effect (.result op false) ∈ added := by
    intro added hadded
    rwa [List.append_cancel_left (hadded.symm.trans hlog)]
  cases hmoves with
  | send _ other value used _ _ =>
      have hmem := hevents _ rfl
      rcases state.channel.trySendWith_cases ⟨other, value⟩ used with
        ⟨_, hout⟩ | ⟨waiter, rest, _, _, hout⟩ | ⟨_, _, _, hout⟩ <;> simp [hout] at hmem
  | sendFails other value _ _ => simpa using hevents _ rfl
  | recv _ other _ _ =>
      have hmem := hevents _ rfl
      rcases state.channel.tryRecv_cases other none with
        ⟨_, _, _, _, _, _, hout⟩ | ⟨_, _, _, _, hout⟩ | ⟨_, _, _, _, _, hout⟩ | ⟨_, _, hout⟩ <;>
        simp [hout] at hmem
  | recvFails other _ _ _ => simpa using hevents _ rfl
  | sendSuspend other value _ =>
      have hmem := hevents _ rfl
      rcases state.channel.registerSendWaiter_cases other ⟨other, value⟩ with
        ⟨_, hout⟩ | ⟨waiter, rest, _, _, hout⟩ | ⟨_, _, hout⟩ <;> simp [hout] at hmem
  | recvSuspend other _ =>
      have hmem := hevents _ rfl
      rcases state.channel.registerRecvWaiter_cases other other with
        ⟨hclosed, hout⟩ | ⟨waiter, rest, _, _, hout⟩ | ⟨_, _, hout⟩
      · -- The only registration that fails at once is the one on a closed channel.
        have hempty := hcondition (Or.inl hclosed)
        simp [hout, hclosed, hempty]
      · simp [hout] at hmem
      · simp [hout] at hmem
  | exchange other _ _ => simpa using hevents _ rfl
  | exchangeClosed other _ _ => simpa using hevents _ rfl
  | flush other hphase =>
      have hclosed := hdrained.closing other hphase
      have hmem : .result op false ∈ state.channel.closeFlush.effects := by
        simpa using hevents _ rfl
      have hresult : (op, false) ∈ results state.channel.closeFlush.effects :=
        List.mem_filterMap.mpr ⟨_, hmem, rfl⟩
      rw [Channel.closeFlush_results] at hresult
      obtain ⟨waiter, hwaiter, _⟩ := List.mem_map.mp hresult
      have hempty := hdrained.blocked (List.ne_nil_of_mem hwaiter)
      simp [hclosed, hempty]

end Drained

/-- On a channel of any capacity, a run in which no receiver registers in front
of a buffered value reports failures on a closed and drained channel only. -/
theorem failsDrained_throughout [DecidableEq Op] (capacity : Nat)
    (actions : List (Action Op V))
    (hmeets : (machine Op V capacity).Meets RegistersDrained (initial capacity) actions) :
    (machine Op V capacity).Throughout FailsDrained (initial capacity) actions := by
  have hstart : FlushesDrained (initial capacity : State Op V) :=
    ⟨Channel.new_wellFormed capacity, fun hparked => absurd rfl hparked, nofun⟩
  refine Machine.throughout_of_meets FlushesDrained (fun state action next hdrained hcondition
    hstep => ?_) (fun state action next hdrained hcondition hstep => ?_) hstart hmeets
  · exact (moves_of_step hstep).flushesDrained hdrained hcondition
  · exact (moves_of_step hstep).failsDrained hdrained hcondition

/-- A receiver parked on an empty channel fails when the channel is closed. -/
theorem failsDrained_close_run :
    (machine Nat Nat 1).Throughout FailsDrained (initial 1)
      [.recvReady 0, .recvSuspend 0, .closeExchange 1, .closeFlush 1] := by
  apply failsDrained_throughout 1 _
  rintro _ ⟨⟩
  refine ⟨trivial, ?_⟩
  rintro _ ⟨⟩
  refine ⟨fun _ => rfl, ?_⟩
  rintro _ ⟨⟩
  refine ⟨trivial, ?_⟩
  rintro _ ⟨⟩
  exact ⟨trivial, trivial⟩

/-- A receiver that found the buffer empty registers after a value was sent and
the channel was closed: it fails although 42 is in the buffer. -/
theorem undrained_failure_run :
    ¬ (machine Nat Nat 1).Throughout FailsDrained (initial 1)
      [.recvReady 0, .trySend 1 42, .closeExchange 2, .recvSuspend 0] := by
  intro hrun
  have hlast := Machine.Throughout.last
    [Action.recvReady 0, .trySend 1 42, .closeExchange 2] hrun rfl rfl
  have hdrained := hlast [.registered 0, .effect (.result 0 false), .effect (.schedule 0)] rfl 0
    (by decide)
  exact absurd hdrained.1.2 (by decide)

end Tang.Interleaving
