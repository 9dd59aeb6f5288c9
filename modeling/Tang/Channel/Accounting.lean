import Tang.Foundation.Order
import Tang.Channel.Interleaving
import Tang.Channel.Conservation

/-! # Where every value is

The history records what senders hand to the channel and what receivers are
told. Three books are kept over any interleaving: values taken are delivered,
buffered, parked or discarded; an operation sends at most the one value it was
called with; a receiver is told once how its receive ended, and told success
exactly when it was assigned a value.
-/

namespace Tang.Interleaving

open Foundation Effect

variable {Op V : Type}

/-- The operation will not call the channel again. -/
@[simp] def Phase.finished : Phase V → Bool
  | .suspended | .returned => true
  | .fresh | .sendTried _ | .recvTried | .closing => false

/-- What the receiver of an operation is told: a result member is written, or
`try_recv` returns, directly or out of `await_ready`. -/
@[simp] def Event.answer? : Event Op V → Option (Op × Bool)
  | .effect (.result op success) => some (op, success)
  | .recvReturned op success => some (op, success)
  | .effect (.take _) | .effect (.accept _) | .effect (.deliver _ _) => none
  | .effect (.discard _) | .effect (.schedule _) => none
  | .beganSend _ _ | .beganRecv _ | .beganClose _ | .registered _ => none
  | .sendReturned _ _ | .closeReturned _ => none

/-- How receives ended, in the order the receivers were told. -/
def answers (log : List (Event Op V)) : List (Op × Bool) :=
  log.filterMap Event.answer?

@[simp] theorem answers_nil : answers ([] : List (Event Op V)) = [] := rfl

@[simp] theorem answers_cons (event : Event Op V) (log : List (Event Op V)) :
    answers (event :: log) = event.answer?.toList ++ answers log := by
  cases hevent : event.answer? <;> simp only [answers, List.filterMap_cons, hevent] <;> rfl

@[simp] theorem answers_append (first second : List (Event Op V)) :
    answers (first ++ second) = answers first ++ answers second :=
  List.filterMap_append

@[simp] theorem answers_map_effect (list : List (Effect Op Op (Item Op V))) :
    answers (list.map .effect) = results list := by
  induction list with
  | nil => rfl
  | cons effect rest ih => cases effect <;> simp [ih]

/-- Everything senders gave to the channel. -/
def taken (state : State Op V) : List (Item Op V) := takes (effects state.log)

/-- Everything assigned to receivers, in order of assignment. -/
def received (state : State Op V) : List (Item Op V) :=
  (delivers (effects state.log)).map Prod.snd

/-- The receivers that were assigned a value, in the same order. -/
def receivers (state : State Op V) : List Op :=
  (delivers (effects state.log)).map Prod.fst

/-- Every value the channel took is in exactly one place, and the receivers that
are told success are exactly those that were assigned one. -/
structure Conserved (state : State Op V) : Prop where
  partition : (taken state).Perm
    (received state ++ state.channel.buffer ++
      state.channel.sendWaiters.map SendWaiter.value ++ discards (effects state.log))
  once : (taken state).Nodup
  sent : ∀ item ∈ taken state, .beganSend item.op item.value ∈ state.log
  accepted : ∀ op, .sendReturned op true ∈ state.log → op ∈ (taken state).map Item.op
  distinct : (receivers state).Nodup
  succeeded : ∀ op, op ∈ receivers state ↔ (op, true) ∈ answers state.log
  exclusive : ∀ op, (op, true) ∈ answers state.log → (op, false) ∉ answers state.log

variable [DecidableEq Op]

/-! ## Values -/

section Values

variable [DecidableEq V]

/-- What was taken is accepted, parked or discarded; what was accepted is
delivered or buffered. -/
structure Balanced (state : State Op V) : Prop where
  held : ∀ item, (taken state).count item =
    (accepts (effects state.log)).count item +
      (state.channel.sendWaiters.map SendWaiter.value).count item +
      (discards (effects state.log)).count item
  settled : ∀ item, (accepts (effects state.log)).count item =
    (received state).count item + state.channel.buffer.count item

theorem Moves.keepsValues {state next : State Op V} {action : Action Op V}
    (hmoves : Moves state action next) :
    ∃ (R : Type) (out : Outcome Op Op (Item Op V) R), out.KeepsValues state.channel ∧
      next.channel = out.channel ∧ effects next.log = effects state.log ++ out.effects := by
  cases hmoves with
  | send _ op value used _ _ =>
      exact ⟨_, _, state.channel.trySendWith_keepsValues ⟨op, value⟩ used, rfl, by simp⟩
  | sendFails op value _ _ =>
      exact ⟨Unit, ⟨(), state.channel, []⟩, ⟨by simp, by simp⟩, rfl, by simp⟩
  | recv _ op _ _ =>
      exact ⟨_, _, state.channel.tryRecv_keepsValues op none, rfl, by simp⟩
  | recvFails op _ _ _ =>
      exact ⟨Unit, ⟨(), state.channel, []⟩, ⟨by simp, by simp⟩, rfl, by simp⟩
  | sendSuspend op value _ =>
      exact ⟨_, _, state.channel.registerSendWaiter_keepsValues op ⟨op, value⟩, rfl, by simp⟩
  | recvSuspend op _ =>
      exact ⟨_, _, state.channel.registerRecvWaiter_keepsValues op op, rfl, by simp⟩
  | exchange op _ _ =>
      exact ⟨Unit, ⟨(), { state.channel with closed := true }, []⟩, ⟨by simp, by simp⟩, rfl,
        by simp⟩
  | exchangeClosed op _ _ =>
      exact ⟨Unit, ⟨(), state.channel, []⟩, ⟨by simp, by simp⟩, rfl, by simp⟩
  | flush op _ => exact ⟨_, _, state.channel.closeFlush_keepsValues, rfl, by simp⟩

theorem Moves.balanced {state next : State Op V} {action : Action Op V}
    (hmoves : Moves state action next) (hbalanced : Balanced state) : Balanced next := by
  obtain ⟨R, out, hkeeps, hchannel, heffects⟩ := hmoves.keepsValues
  refine ⟨fun item => ?_, fun item => ?_⟩
  · have hbefore := hbalanced.held item
    have hstep := hkeeps.taken item
    simp only [taken, hchannel, heffects, takes, accepts, discards, collect_append,
      List.count_append] at hbefore hstep ⊢
    omega
  · have hbefore := hbalanced.settled item
    have hstep := hkeeps.accepted item
    simp only [received, hchannel, heffects, accepts, delivers, collect_append, List.map_append,
      List.count_append] at hbefore hstep ⊢
    omega

theorem Balanced.partition {state : State Op V} (hbalanced : Balanced state) :
    (taken state).Perm (received state ++ state.channel.buffer ++
      state.channel.sendWaiters.map SendWaiter.value ++ discards (effects state.log)) := by
  rw [List.perm_iff_count]
  intro item
  have htaken := hbalanced.held item
  have haccepted := hbalanced.settled item
  simp only [List.count_append]
  omega

end Values

/-! ## Senders -/

/-- An operation hands over at most one value, the one its call named, and only
with its last step. -/
structure SentOnce (state : State Op V) : Prop where
  once : ∀ op, ((taken state).map Item.op).count op ≤ if (state.phase op).finished then 1 else 0
  sent : ∀ item ∈ taken state, .beganSend item.op item.value ∈ state.log
  tried : ∀ op value, state.phase op = .sendTried value → .beganSend op value ∈ state.log
  accepted : ∀ op, .sendReturned op true ∈ state.log → op ∈ (taken state).map Item.op

/-- A step of an operation that sends nothing, or sends the value it was called
with and finishes. -/
inductive Sends (state next : State Op V) : Prop
  | nothing (op : Op) (phase : Phase V) (events : List (Event Op V))
      (hactive : (state.phase op).finished = false)
      (hphase : next.phase = Function.update state.phase op phase)
      (hlog : next.log = state.log ++ events)
      (htaken : taken next = taken state)
      (htried : ∀ value, phase = .sendTried value → .beganSend op value ∈ next.log)
      (hfailed : ∀ other, .sendReturned other true ∉ events)
  | one (op : Op) (value : V) (phase : Phase V) (events : List (Event Op V))
      (hactive : (state.phase op).finished = false) (hfinished : phase.finished = true)
      (hphase : next.phase = Function.update state.phase op phase)
      (hlog : next.log = state.log ++ events)
      (htaken : taken next = taken state ++ [⟨op, value⟩])
      (hsent : .beganSend op value ∈ next.log)
      (honly : ∀ other, .sendReturned other true ∈ events → other = op)

theorem Moves.sends {state next : State Op V} {action : Action Op V}
    (hmoves : Moves state action next)
    (htried : ∀ op value, state.phase op = .sendTried value → .beganSend op value ∈ state.log) :
    Sends state next := by
  cases hmoves with
  | send _ op value used _ hphase =>
      rcases state.channel.trySendWith_cases ⟨op, value⟩ used with
        ⟨_, hout⟩ | ⟨waiter, rest, _, _, hout⟩ | ⟨_, _, _, hout⟩
      · refine .nothing op .returned _ (by simp [hphase]) rfl rfl ?_ (by simp) ?_
        · simp [taken, hout]
        · simp [hout]
      · refine .one op value .returned _ (by simp [hphase]) rfl rfl rfl ?_ ?_ ?_
        · simp [taken, hout]
        · simp [State.sendReturns]
        · simp [hout]
      · refine .one op value .returned _ (by simp [hphase]) rfl rfl rfl ?_ ?_ ?_
        · simp [taken, hout]
        · simp [State.sendReturns]
        · simp [hout]
  | sendFails op value hphase _ =>
      refine .nothing op (.sendTried value) _ (by simp [hphase]) rfl rfl ?_ ?_ (by simp)
      · simp [taken]
      · simp
  | recv _ op _ hphase =>
      refine .nothing op .returned _ (by simp [hphase]) rfl rfl ?_ (by simp) (by simp)
      rcases state.channel.tryRecv_cases op none with
        ⟨_, _, _, _, _, _, hout⟩ | ⟨_, _, _, _, hout⟩ | ⟨_, _, _, _, _, hout⟩ | ⟨_, _, hout⟩ <;>
        simp [taken, hout]
  | recvFails op hphase _ _ =>
      refine .nothing op .recvTried _ (by simp [hphase]) rfl rfl ?_ (by simp) (by simp)
      simp [taken]
  | sendSuspend op value hphase =>
      have hsent := htried op value hphase
      rcases state.channel.registerSendWaiter_cases op ⟨op, value⟩ with
        ⟨_, hout⟩ | ⟨waiter, rest, _, _, hout⟩ | ⟨_, _, hout⟩
      · refine .nothing op .suspended _ (by simp [hphase]) rfl rfl ?_ (by simp) (by simp)
        simp [taken, hout]
      · refine .one op value .suspended _ (by simp [hphase]) rfl rfl rfl ?_ ?_ (by simp)
        · simp [taken, hout]
        · simp [State.suspends, hsent]
      · refine .one op value .suspended _ (by simp [hphase]) rfl rfl rfl ?_ ?_ (by simp)
        · simp [taken, hout]
        · simp [State.suspends, hsent]
  | recvSuspend op hphase =>
      refine .nothing op .suspended _ (by simp [hphase]) rfl rfl ?_ (by simp) (by simp)
      rcases state.channel.registerRecvWaiter_cases op op with
        ⟨_, hout⟩ | ⟨waiter, rest, _, _, hout⟩ | ⟨_, _, hout⟩ <;> simp [taken, hout]
  | exchange op hphase _ =>
      refine .nothing op .closing _ (by simp [hphase]) rfl rfl ?_ (by simp) (by simp)
      simp [taken]
  | exchangeClosed op hphase _ =>
      refine .nothing op .returned _ (by simp [hphase]) rfl rfl ?_ (by simp) (by simp)
      simp [taken]
  | flush op hphase =>
      refine .nothing op .returned _ (by simp [hphase]) rfl rfl ?_ (by simp) (by simp)
      simp [taken]

theorem Sends.sentOnce {state next : State Op V} (hsends : Sends state next)
    (hsent : SentOnce state) : SentOnce next := by
  cases hsends with
  | nothing op phase events hactive hphase hlog htaken htried hfailed =>
      -- Every book is the old one, up to the new phase of `op` and the longer log.
      refine ⟨fun other => ?_, fun item hitem => ?_, fun other value hother => ?_,
        fun other hother => ?_⟩
      · have hbefore := hsent.once other
        rw [htaken, hphase]
        by_cases heq : other = op
        · subst other
          rw [hactive] at hbefore
          exact Nat.le_trans hbefore (Nat.zero_le _)
        · rwa [Function.update_of_ne heq]
      · rw [htaken] at hitem
        rw [hlog]
        exact List.mem_append_left _ (hsent.sent item hitem)
      · rw [hphase] at hother
        by_cases heq : other = op
        · subst other
          rw [Function.update_self] at hother
          exact htried value hother
        · rw [Function.update_of_ne heq] at hother
          rw [hlog]
          exact List.mem_append_left _ (hsent.tried other value hother)
      · rw [hlog, List.mem_append] at hother
        rw [htaken]
        exact hsent.accepted other (hother.resolve_right (hfailed other))
  | one op value phase events hactive hfinished hphase hlog htaken hbegan honly =>
      -- `op` was active, so the value it hands over is its first.
      refine ⟨fun other => ?_, fun item hitem => ?_, fun other v hother => ?_,
        fun other hother => ?_⟩
      · have hbefore := hsent.once other
        rw [htaken, hphase, List.map_append, List.count_append]
        by_cases heq : other = op
        · subst other
          rw [hactive] at hbefore
          simp only [Bool.false_eq_true, if_false] at hbefore
          rw [Function.update_self, hfinished, Nat.le_zero.mp hbefore]
          simp
        · rw [Function.update_of_ne heq]
          simpa [Ne.symm heq] using hbefore
      · rw [htaken, List.mem_append, List.mem_singleton] at hitem
        rcases hitem with hitem | rfl
        · rw [hlog]
          exact List.mem_append_left _ (hsent.sent item hitem)
        · exact hbegan
      · rw [hphase] at hother
        by_cases heq : other = op
        · subst other
          rw [Function.update_self] at hother
          simp [hother] at hfinished
        · rw [Function.update_of_ne heq] at hother
          rw [hlog]
          exact List.mem_append_left _ (hsent.tried other v hother)
      · rw [hlog, List.mem_append] at hother
        rw [htaken, List.map_append, List.mem_append]
        rcases hother with hother | hother
        · exact Or.inl (hsent.accepted other hother)
        · have heq := honly other hother
          exact Or.inr (by simp [heq])

/-! ## Receivers -/

/-- How often an operation is parked as a receiver or has been told an end. -/
def receipts (state : State Op V) (op : Op) : Nat :=
  (state.channel.recvWaiters.map RecvWaiter.awaiter).count op +
    (answers state.log).count (op, true) + (answers state.log).count (op, false)

/-- A receiver is told success as often as it is assigned a value; it is parked
or told at most once, and only when its own steps are over. -/
structure AnsweredOnce (state : State Op V) : Prop where
  told : ∀ op, (receivers state).count op = (answers state.log).count (op, true)
  once : ∀ op, receipts state op ≤ if (state.phase op).finished then 1 else 0

/-- An outcome that answers the parked and registering receivers, followed by
the return values in `returns`, keeps assignments and answers in step. -/
theorem receipts_of_keepsAnswers {R : Type} {state next : State Op V}
    {out : Outcome Op Op (Item Op V) R} {readers registered : List Op}
    (hkeeps : out.KeepsAnswers state.channel readers registered)
    (hchannel : next.channel = out.channel)
    (heffects : effects next.log = effects state.log ++ out.effects)
    (returns : List (Op × Bool))
    (hanswers : answers next.log = answers state.log ++ results out.effects ++ returns)
    (hreturns : ∀ op, returns.count (op, true) = readers.count op) (op : Op) :
    (receivers next).count op + (answers state.log).count (op, true) =
        (receivers state).count op + (answers next.log).count (op, true) ∧
      receipts next op = receipts state op + registered.count op +
        returns.count (op, true) + returns.count (op, false) := by
  have hdelivered := hkeeps.delivered op
  have hanswered := hkeeps.answered op
  have hreaders := hreturns op
  refine ⟨?_, ?_⟩
  · simp only [receivers, heffects, hanswers, delivers, collect_append, List.map_append,
      List.count_append] at hdelivered ⊢
    omega
  · simp only [receipts, hchannel, hanswers, List.count_append]
    omega

/-- A step ends at most the receive of the operation that takes it, and only
with the operation's last step. -/
theorem Moves.receipts_balance {state next : State Op V} {action : Action Op V}
    (hmoves : Moves state action next) :
    ∃ op phase ended, (state.phase op).finished = false ∧
      next.phase = Function.update state.phase op phase ∧
      (ended = [] ∨ ended = [op] ∧ phase.finished = true) ∧
      ∀ other, (receivers next).count other + (answers state.log).count (other, true) =
          (receivers state).count other + (answers next.log).count (other, true) ∧
        receipts next other = receipts state other + ended.count other := by
  cases hmoves with
  | send _ op value used _ hphase =>
      refine ⟨op, .returned, [], by simp [hphase], rfl, Or.inl rfl, fun other => ?_⟩
      exact receipts_of_keepsAnswers
        (state.channel.trySendWith_keepsAnswers ⟨op, value⟩ used) rfl (by simp) []
        (by simp [State.sendReturns]) (by simp) other
  | sendFails op value hphase _ =>
      refine ⟨op, .sendTried value, [], by simp [hphase], rfl, Or.inl rfl, fun other => ?_⟩
      simp [receivers, receipts]
  | recv _ op _ hphase =>
      refine ⟨op, .returned, [op], by simp [hphase], rfl, Or.inr ⟨rfl, rfl⟩, fun other => ?_⟩
      have hreturns : ∀ other,
          [(op, (state.channel.tryRecv op none).result.1)].count (other, true) =
            (if (state.channel.tryRecv op none).result.1 then [op] else []).count other := by
        intro other
        cases (state.channel.tryRecv op none).result.1 <;> simp [List.count_cons]
      have hchannel : (state.recvReturns op (state.channel.tryRecv op none)).channel =
          (state.channel.tryRecv op none).channel := rfl
      have hbalance := receipts_of_keepsAnswers (state.channel.tryRecv_keepsAnswers op none)
        hchannel (by simp) [(op, (state.channel.tryRecv op none).result.1)]
        (by simp [State.recvReturns]) hreturns other
      refine ⟨hbalance.1, hbalance.2.trans ?_⟩
      cases (state.channel.tryRecv op none).result.1 <;> simp [List.count_cons]
  | recvFails op hphase _ _ =>
      refine ⟨op, .recvTried, [], by simp [hphase], rfl, Or.inl rfl, fun other => ?_⟩
      simp [receivers, receipts]
  | sendSuspend op value hphase =>
      refine ⟨op, .suspended, [], by simp [hphase], rfl, Or.inl rfl, fun other => ?_⟩
      exact receipts_of_keepsAnswers
        (state.channel.registerSendWaiter_keepsAnswers op ⟨op, value⟩) rfl (by simp) []
        (by simp [State.suspends]) (by simp) other
  | recvSuspend op hphase =>
      refine ⟨op, .suspended, [op], by simp [hphase], rfl, Or.inr ⟨rfl, rfl⟩, fun other => ?_⟩
      exact receipts_of_keepsAnswers
        (state.channel.registerRecvWaiter_keepsAnswers op op) rfl (by simp) []
        (by simp [State.suspends]) (by simp) other
  | exchange op hphase _ =>
      refine ⟨op, .closing, [], by simp [hphase], rfl, Or.inl rfl, fun other => ?_⟩
      simp [receivers, receipts]
  | exchangeClosed op hphase _ =>
      refine ⟨op, .returned, [], by simp [hphase], rfl, Or.inl rfl, fun other => ?_⟩
      simp [receivers, receipts]
  | flush op hphase =>
      refine ⟨op, .returned, [], by simp [hphase], rfl, Or.inl rfl, fun other => ?_⟩
      exact receipts_of_keepsAnswers state.channel.closeFlush_keepsAnswers rfl (by simp) []
        (by simp [State.flushes]) (by simp) other

theorem Moves.answeredOnce {state next : State Op V} {action : Action Op V}
    (hmoves : Moves state action next) (hanswered : AnsweredOnce state) :
    AnsweredOnce next := by
  obtain ⟨op, phase, ended, hactive, hphase, hended, hbalance⟩ := hmoves.receipts_balance
  refine ⟨fun other => ?_, fun other => ?_⟩
  · have htold := hanswered.told other
    have hstep := (hbalance other).1
    omega
  · have hbefore := hanswered.once other
    rw [(hbalance other).2, hphase]
    by_cases heq : other = op
    · subst other
      rw [hactive] at hbefore
      simp only [Bool.false_eq_true, if_false] at hbefore
      rcases hended with rfl | ⟨rfl, hfinished⟩
      · simp [Nat.le_zero.mp hbefore]
      · rw [Function.update_self, hfinished, Nat.le_zero.mp hbefore]
        simp
    · rw [Function.update_of_ne heq]
      rcases hended with rfl | ⟨rfl, _⟩
      · simpa using hbefore
      · simpa [Ne.symm heq] using hbefore

/-! ## The three books -/

/-- The three books together. -/
structure Ledger [DecidableEq V] (state : State Op V) : Prop where
  balanced : Balanced state
  sentOnce : SentOnce state
  answeredOnce : AnsweredOnce state

section Ledger

variable [DecidableEq V]

theorem initial_ledger (capacity : Nat) : Ledger (initial capacity : State Op V) where
  balanced := ⟨fun _ => rfl, fun _ => rfl⟩
  sentOnce := ⟨fun _ => Nat.zero_le _, nofun, nofun, nofun⟩
  answeredOnce := ⟨fun _ => rfl, fun _ => Nat.zero_le _⟩

theorem Moves.ledger {state next : State Op V} {action : Action Op V}
    (hmoves : Moves state action next) (hledger : Ledger state) : Ledger next where
  balanced := hmoves.balanced hledger.balanced
  sentOnce := (hmoves.sends hledger.sentOnce.tried).sentOnce hledger.sentOnce
  answeredOnce := hmoves.answeredOnce hledger.answeredOnce

theorem Ledger.taken_nodup {state : State Op V} (hledger : Ledger state) :
    (taken state).Nodup := by
  refine nodup_of_count_map_le_one Item.op fun op => ?_
  have honce := hledger.sentOnce.once op
  split at honce <;> omega

/-- Received, buffered, parked and discarded values are pairwise distinct. -/
theorem Ledger.places_nodup {state : State Op V} (hledger : Ledger state) :
    (received state ++ state.channel.buffer ++
      state.channel.sendWaiters.map SendWaiter.value ++ discards (effects state.log)).Nodup :=
  hledger.balanced.partition.nodup_iff.mp hledger.taken_nodup

theorem Ledger.conserved {state : State Op V} (hledger : Ledger state) : Conserved state := by
  have htold := hledger.answeredOnce.told
  have honce : ∀ op, receipts state op ≤ 1 := by
    intro op
    have hop := hledger.answeredOnce.once op
    split at hop <;> omega
  refine ⟨hledger.balanced.partition, hledger.taken_nodup, hledger.sentOnce.sent,
    hledger.sentOnce.accepted, ?_, fun op => ?_, fun op htrue hfalse => ?_⟩
  · rw [List.nodup_iff_count_le_one]
    intro op
    have hop := honce op
    have heq := htold op
    simp only [receipts] at hop
    omega
  · rw [← List.count_pos_iff, htold op, List.count_pos_iff]
  · have hop := honce op
    have hfirst := List.count_pos_iff.mpr htrue
    have hsecond := List.count_pos_iff.mpr hfalse
    simp only [receipts] at hop
    omega

end Ledger

/-! ## Conservation -/

/-- In every interleaving, on a channel of any capacity, values are conserved,
and a failed attempt in any state reached changes nothing. -/
theorem conserved_along (capacity : Nat) (actions : List (Action Op V)) :
    (machine Op V capacity).Along
      (fun state => Conserved state ∧
        (∀ item, (state.channel.trySend item).result.1 = false →
          state.channel.trySend item = ⟨(false, some item), state.channel, []⟩) ∧
        (∀ item, (state.channel.trySendMove item).result.1 = false →
          state.channel.trySendMove item = ⟨(false, some item), state.channel, []⟩) ∧
        ∀ reader old, (state.channel.tryRecv reader old).result.1 = false →
          state.channel.tryRecv reader old = ⟨(false, old), state.channel, []⟩)
      (initial capacity) actions := by
  classical
  refine Machine.along_of_invariant Ledger (fun state action next hledger hstep => ?_)
    (fun state hledger => ?_) (initial_ledger capacity)
  · exact (moves_of_step hstep).ledger hledger
  · exact ⟨hledger.conserved, state.channel.failed_attempt_keeps⟩

end Tang.Interleaving
