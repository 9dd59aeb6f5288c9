import Tang.Channel.Delivery

/-! # After the flush of `close`

From the flush on the channel is closed and nobody is parked, and it stays so:
an operation that read `closed_` earlier finds it set in its next critical
section. What is left in `buffer_` at the flush is all that will ever be
received, and a receive fails exactly when it has been taken.
-/

namespace Tang

variable {H A T : Type}

namespace Channel

/-- The channel is closed and nobody is parked. -/
structure Flushed (channel : Channel H A T) : Prop where
  closed : channel.closed = true
  sendWaiters : channel.sendWaiters = []
  recvWaiters : channel.recvWaiters = []

namespace Flushed

variable {channel : Channel H A T}

theorem trySendWith (hflushed : channel.Flushed) (value : T) (used : Option T) :
    channel.trySendWith value used = ⟨(false, some value), channel, []⟩ := by
  simp [Channel.trySendWith, hflushed.closed]

/-- A receive attempt takes the front of the buffer or fails. -/
theorem tryRecv (hflushed : channel.Flushed) (reader : A) (old : Option T) :
    (channel.buffer = [] ∧ channel.tryRecv reader old = ⟨(false, old), channel, []⟩) ∨
      ∃ front buffer, channel.buffer = front :: buffer ∧
        channel.tryRecv reader old =
          ⟨(true, some front), { channel with buffer := buffer }, [.deliver reader front]⟩ := by
  rcases channel.tryRecv_cases reader old with
    ⟨_, _, _, _, _, hwaiters, _⟩ | ⟨front, buffer, hbuffer, _, hout⟩ | ⟨_, _, hopen, _⟩ |
      ⟨hbuffer, _, hout⟩
  · simp [hflushed.sendWaiters] at hwaiters
  · exact Or.inr ⟨front, buffer, hbuffer, hout⟩
  · simp [hflushed.closed] at hopen
  · exact Or.inl ⟨hbuffer, hout⟩

theorem registerSendWaiter (hflushed : channel.Flushed) (handle : H) (value : T) :
    channel.registerSendWaiter handle value = ⟨(), channel, [.schedule handle]⟩ := by
  simp [Channel.registerSendWaiter, hflushed.closed]

theorem registerRecvWaiter (hflushed : channel.Flushed) (handle : H) (awaiter : A) :
    channel.registerRecvWaiter handle awaiter =
      ⟨(), channel, [.result awaiter false, .schedule handle]⟩ := by
  simp [Channel.registerRecvWaiter, hflushed.closed]

theorem closeFlush (hflushed : channel.Flushed) :
    channel.closeFlush = ⟨(), channel, []⟩ := by
  obtain ⟨capacity, buffer, closed, sendWaiters, recvWaiters⟩ := channel
  obtain ⟨_, rfl, rfl⟩ := hflushed
  rfl

end Flushed

theorem closeFlush_flushed {channel : Channel H A T} (hclosed : channel.closed = true) :
    channel.closeFlush.channel.Flushed :=
  ⟨hclosed, rfl, rfl⟩

end Channel

namespace Interleaving

open Foundation Effect

variable {Op V : Type} {state next flushed final : State Op V}

/-- What has become of a flushed channel: no send was accepted, nobody is
parked, and the deliveries since are a prefix of what the buffer held. -/
structure Drains (flushed final : State Op V) : Prop where
  channel : final.channel.Flushed
  taken_eq : taken final = taken flushed
  accepts_eq : accepts (effects final.log) = accepts (effects flushed.log)
  refused : ∀ op, .sendReturned op true ∈ final.log → .sendReturned op true ∈ flushed.log
  delivered : ∃ drained, received final = received flushed ++ drained ∧
    flushed.channel.buffer = drained ++ final.channel.buffer

theorem Drains.refl (hflushed : flushed.channel.Flushed) : Drains flushed flushed :=
  ⟨hflushed, rfl, rfl, fun _ => id, [], by simp, rfl⟩

theorem Drains.trans (hfirst : Drains flushed state) (hsecond : Drains state next) :
    Drains flushed next := by
  obtain ⟨front, hreceived, hbuffer⟩ := hfirst.delivered
  obtain ⟨back, hreceivedNext, hbufferNext⟩ := hsecond.delivered
  refine ⟨hsecond.channel, hsecond.taken_eq.trans hfirst.taken_eq,
    hsecond.accepts_eq.trans hfirst.accepts_eq,
    fun op hreturned => hfirst.refused op (hsecond.refused op hreturned), front ++ back, ?_, ?_⟩
  · rw [hreceivedNext, hreceived, List.append_assoc]
  · rw [hbuffer, hbufferNext, List.append_assoc]

/-- Everything the flush left in the buffer has been received exactly when the
buffer is empty. -/
theorem Drains.drained_iff (hdrains : Drains flushed state) :
    received state = received flushed ++ flushed.channel.buffer ↔ state.channel.buffer = [] := by
  obtain ⟨drained, hreceived, hbuffer⟩ := hdrains.delivered
  rw [hreceived, hbuffer, List.append_cancel_left_eq, List.self_eq_append_right]

variable [DecidableEq Op] {action : Action Op V}

/-- A step that leaves the channel alone and hands nothing over. -/
theorem Drains.of_idle {op : Op} {phase : Phase V} {events : List (Event Op V)}
    (hflushed : state.channel.Flushed)
    (htakes : takes (effects events) = []) (haccepts : accepts (effects events) = [])
    (hdelivers : delivers (effects events) = [])
    (hreturned : ∀ other, .sendReturned other true ∉ events) :
    Drains state (state.advance op phase state.channel events) := by
  refine ⟨hflushed, ?_, ?_, fun other hmem => ?_, [], ?_, rfl⟩
  · simp [taken, htakes]
  · simp [haccepts]
  · rw [State.advance_log, List.mem_append] at hmem
    exact hmem.resolve_right (hreturned other)
  · simp [received, hdelivers]

theorem Moves.drains (hmoves : Moves state action next) (hflushed : state.channel.Flushed) :
    Drains state next := by
  cases hmoves with
  | send _ op value used _ _ =>
      rw [hflushed.trySendWith]
      exact .of_idle hflushed (by simp) (by simp) (by simp) (by simp)
  | sendFails op value _ _ =>
      exact .of_idle hflushed (by simp) (by simp) (by simp) (by simp)
  | recv _ op _ _ =>
      rcases hflushed.tryRecv op none with ⟨_, hout⟩ | ⟨front, buffer, hbuffer, hout⟩
      · rw [hout]
        exact .of_idle hflushed (by simp) (by simp) (by simp) (by simp)
      · rw [hout]
        refine ⟨⟨hflushed.closed, hflushed.sendWaiters, hflushed.recvWaiters⟩, ?_, ?_, ?_,
          [front], ?_, hbuffer⟩
        · simp [taken]
        · simp
        · simp [State.recvReturns]
        · simp [received]
  | recvFails op _ _ _ => exact .of_idle hflushed (by simp) (by simp) (by simp) (by simp)
  | sendSuspend op value _ =>
      rw [hflushed.registerSendWaiter]
      exact .of_idle hflushed (by simp) (by simp) (by simp) (by simp)
  | recvSuspend op _ =>
      rw [hflushed.registerRecvWaiter]
      exact .of_idle hflushed (by simp) (by simp) (by simp) (by simp)
  | exchange op _ hopen => simp [hflushed.closed] at hopen
  | exchangeClosed op _ _ => exact .of_idle hflushed (by simp) (by simp) (by simp) (by simp)
  | flush op _ =>
      rw [hflushed.closeFlush]
      exact .of_idle hflushed (by simp) (by simp) (by simp) (by simp)

/-- Whatever runs after the flush only drains the buffer. -/
theorem drains_of_exec {capacity : Nat} {later : List (Action Op V)}
    (hflushed : flushed.channel.Flushed)
    (hlater : (machine Op V capacity).exec flushed later = some final) :
    Drains flushed final := by
  refine Machine.exec_invariant (Drains flushed) (fun state action next hdrains hstep => ?_)
    (.refl hflushed) hlater
  exact hdrains.trans ((moves_of_step hstep).drains hdrains.channel)

/-! ## The exchange comes before the flush -/

/-- A `close` between its two steps has closed the channel. -/
def ClosesFirst (state : State Op V) : Prop :=
  ∀ op, state.phase op = .closing → state.channel.closed = true

theorem Moves.closesFirst (hmoves : Moves state action next) (hcloses : ClosesFirst state) :
    ClosesFirst next := by
  have hmono : state.channel.closed = true → next.channel.closed = true := by
    intro hclosed
    cases hmoves <;> simp [hclosed]
  have hmover : ∃ op phase, next.phase = Function.update state.phase op phase ∧
      (phase = .closing → next.channel.closed = true) := by
    cases hmoves with
    | exchange op _ _ => exact ⟨op, .closing, rfl, fun _ => rfl⟩
    | send _ op value used _ _ => exact ⟨op, .returned, rfl, by simp⟩
    | sendFails op value _ _ => exact ⟨op, .sendTried value, rfl, by simp⟩
    | recv _ op _ _ => exact ⟨op, .returned, rfl, by simp⟩
    | recvFails op _ _ _ => exact ⟨op, .recvTried, rfl, by simp⟩
    | sendSuspend op value _ => exact ⟨op, .suspended, rfl, by simp⟩
    | recvSuspend op _ => exact ⟨op, .suspended, rfl, by simp⟩
    | exchangeClosed op _ _ => exact ⟨op, .returned, rfl, by simp⟩
    | flush op _ => exact ⟨op, .returned, rfl, by simp⟩
  obtain ⟨op, phase, hphase, hclosing⟩ := hmover
  intro other hother
  rw [hphase] at hother
  by_cases heq : other = op
  · subst other
    exact hclosing (by simpa using hother)
  · rw [Function.update_of_ne heq] at hother
    exact hmono (hcloses other hother)

/-! ## How receives end after the flush -/

/-- A receive that found nothing has failed, or will when it registers. -/
def Fails (op : Op) (state : State Op V) : Prop :=
  state.phase op = .recvTried ∨ (op, false) ∈ answers state.log

theorem Moves.answers_subset (hmoves : Moves state action next) :
    answers state.log ⊆ answers next.log := by
  obtain ⟨events, hextends⟩ := hmoves.extends
  rw [hextends.log, answers_append]
  exact List.subset_append_left _ _

/-- A receive between its two steps can only register. -/
theorem Moves.registers_of_tried (hmoves : Moves state action next) {op : Op}
    (hphase : state.phase op = .recvTried) :
    next.phase op = .recvTried ∨
      next = state.suspends op (state.channel.registerRecvWaiter op op) := by
  have hkeeps : ∀ mover phase, state.phase mover ≠ .recvTried →
      next.phase = Function.update state.phase mover phase → next.phase op = .recvTried := by
    intro mover phase hmover hnext
    have hne : op ≠ mover := by
      rintro rfl
      exact hmover hphase
    rwa [hnext, Function.update_of_ne hne]
  cases hmoves with
  | send _ mover value used _ hmover => exact Or.inl (hkeeps mover _ (by simp [hmover]) rfl)
  | sendFails mover value hmover _ => exact Or.inl (hkeeps mover _ (by simp [hmover]) rfl)
  | recv _ mover _ hmover => exact Or.inl (hkeeps mover _ (by simp [hmover]) rfl)
  | recvFails mover hmover _ _ => exact Or.inl (hkeeps mover _ (by simp [hmover]) rfl)
  | sendSuspend mover value hmover => exact Or.inl (hkeeps mover _ (by simp [hmover]) rfl)
  | recvSuspend mover hmover =>
      by_cases heq : op = mover
      · subst mover
        exact Or.inr rfl
      · apply Or.inl
        rw [State.suspends_phase, Function.update_of_ne heq, hphase]
  | exchange mover hmover _ => exact Or.inl (hkeeps mover _ (by simp [hmover]) rfl)
  | exchangeClosed mover hmover _ => exact Or.inl (hkeeps mover _ (by simp [hmover]) rfl)
  | flush mover hmover => exact Or.inl (hkeeps mover _ (by simp [hmover]) rfl)

theorem Moves.fails (hmoves : Moves state action next) (hflushed : state.channel.Flushed)
    {op : Op} (hfails : Fails op state) : Fails op next := by
  rcases hfails with hphase | hanswer
  · refine (hmoves.registers_of_tried hphase).imp_right fun hnext => ?_
    rw [hnext, hflushed.registerRecvWaiter]
    simp [State.suspends]
  · exact Or.inr (hmoves.answers_subset hanswer)

/-- The attempt of a receive on a flushed channel succeeds if the buffer holds a
value, and is bound to fail otherwise. -/
theorem Moves.attempt_ends (hmoves : Moves state action next) (hflushed : state.channel.Flushed)
    {op : Op} (hattempt : action = .tryRecv op ∨ action = .recvReady op) :
    (state.channel.buffer ≠ [] ∧ (op, true) ∈ answers next.log) ∨
      (state.channel.buffer = [] ∧ Fails op next) := by
  cases hmoves with
  | send _ _ _ _ haction _ => rcases haction with rfl | rfl | rfl <;> simp at hattempt
  | recv _ mover haction _ =>
      have heq : op = mover := by
        rcases haction with rfl | rfl <;> simpa [eq_comm] using hattempt
      subst mover
      rcases hflushed.tryRecv op none with ⟨hbuffer, hout⟩ | ⟨front, buffer, hbuffer, hout⟩
      · exact Or.inr ⟨hbuffer, Or.inr (by simp [hout, State.recvReturns])⟩
      · exact Or.inl ⟨by simp [hbuffer], by simp [hout, State.recvReturns]⟩
  | recvFails mover _ hbuffer _ =>
      have heq : op = mover := by simpa [eq_comm] using hattempt
      subst mover
      exact Or.inr ⟨hbuffer, Or.inl (by simp)⟩
  | sendFails | sendSuspend | recvSuspend | exchange | exchangeClosed | flush =>
      simp at hattempt

/-- An operation with steps left has been told nothing. -/
theorem Ledger.answer_of_active [DecidableEq V] (hledger : Ledger state) {op : Op}
    {success : Bool} (hanswer : (op, success) ∈ answers state.log) :
    (state.phase op).finished = true := by
  cases hfinished : (state.phase op).finished with
  | true => rfl
  | false =>
      have honce := hledger.answeredOnce.once op
      have hcount := List.count_pos_iff.mpr hanswer
      rw [hfinished, receipts] at honce
      cases success <;> simp at honce <;> omega

section Runs

variable [DecidableEq V] {capacity : Nat} {actions : List (Action Op V)}

theorem ledger_of_exec (hledger : Ledger state)
    (hexec : (machine Op V capacity).exec state actions = some final) : Ledger final :=
  Machine.exec_invariant Ledger (fun _ _ _ hprior hstep => (moves_of_step hstep).ledger hprior)
    hledger hexec

omit [DecidableEq V] in
theorem closesFirst_of_exec (hcloses : ClosesFirst state)
    (hexec : (machine Op V capacity).exec state actions = some final) : ClosesFirst final :=
  Machine.exec_invariant ClosesFirst
    (fun _ _ _ hprior hstep => (moves_of_step hstep).closesFirst hprior) hcloses hexec

/-- How a receive ends is settled by the buffer its attempt finds. -/
theorem answers_of_attempt {tried : State Op V} {op : Op} (hflushed : state.channel.Flushed)
    (hledger : Ledger state) (hattempt : action = .tryRecv op ∨ action = .recvReady op)
    (htried : (machine Op V capacity).step state action = some tried)
    (hexec : (machine Op V capacity).exec tried actions = some final) :
    ((op, true) ∈ answers final.log ↔ state.channel.buffer ≠ []) ∧
      ((final.phase op).finished = true →
        ((op, false) ∈ answers final.log ↔ state.channel.buffer = [])) := by
  have hmoves := moves_of_step htried
  have hdrains := hmoves.drains hflushed
  have hledgerFinal := ledger_of_exec (hmoves.ledger hledger) hexec
  have hexclusive := hledgerFinal.conserved.exclusive op
  have hanswers : answers tried.log ⊆ answers final.log := by
    refine Machine.exec_invariant (fun state => answers tried.log ⊆ answers state.log)
      (fun _ _ _ hprior hstep => ?_) (List.Subset.refl _) hexec
    exact List.Subset.trans hprior (moves_of_step hstep).answers_subset
  rcases hmoves.attempt_ends hflushed hattempt with ⟨hbuffer, hsucceeded⟩ | ⟨hbuffer, hfails⟩
  · have hanswer := hanswers hsucceeded
    exact ⟨iff_of_true hanswer hbuffer, fun _ => iff_of_false (hexclusive hanswer) hbuffer⟩
  · have hfinal : final.channel.Flushed ∧ Fails op final := by
      refine Machine.exec_invariant (fun state => state.channel.Flushed ∧ Fails op state)
        (fun _ _ _ hprior hstep => ?_) ⟨hdrains.channel, hfails⟩ hexec
      have hnext := moves_of_step hstep
      exact ⟨(hnext.drains hprior.1).channel, hnext.fails hprior.1 hprior.2⟩
    refine ⟨iff_of_false (fun hanswer => ?_) (not_not_intro hbuffer), fun hfinished => ?_⟩
    · rcases hfinal.2 with hphase | hfailed
      · have hfinished := hledgerFinal.answer_of_active hanswer
        simp [hphase] at hfinished
      · exact hexclusive hanswer hfailed
    · refine iff_of_true (hfinal.2.resolve_left fun hphase => ?_) hbuffer
      simp [hphase] at hfinished

end Runs

/-- Once `close` has flushed a channel of any capacity, whatever runs later only
drains the buffer, in order and each value once. A receive that begins then
succeeds if a value is left at its attempt; when it has ended, it failed exactly
if everything had been taken. -/
theorem drains_after_flush (capacity : Nat) (front later : List (Action Op V)) (closer : Op)
    {state flushed final : State Op V}
    (hfront : (machine Op V capacity).exec (initial capacity) front = some state)
    (hflush : (machine Op V capacity).step state (.closeFlush closer) = some flushed)
    (hlater : (machine Op V capacity).exec flushed later = some final) :
    Drains flushed final ∧ (received final).Nodup ∧
      ∀ before attempt after middle op, later = before ++ attempt :: after →
        attempt = .tryRecv op ∨ attempt = .recvReady op →
        (machine Op V capacity).exec flushed before = some middle →
        ((op, true) ∈ answers final.log ↔ middle.channel.buffer ≠ []) ∧
          ((final.phase op).finished = true → ((op, false) ∈ answers final.log ↔
            received middle = received flushed ++ flushed.channel.buffer)) := by
  classical
  have hledgerState := ledger_of_exec (initial_ledger capacity) hfront
  have hcloses := closesFirst_of_exec nofun hfront
  have hmovesFlush := moves_of_step hflush
  have hflushed : flushed.channel.Flushed := by
    cases hmovesFlush with
    | send _ _ _ _ haction _ => simp at haction
    | recv _ _ haction _ => simp at haction
    | flush _ hphase => exact Channel.closeFlush_flushed (hcloses _ hphase)
  have hledger := hmovesFlush.ledger hledgerState
  refine ⟨drains_of_exec hflushed hlater, ?_, ?_⟩
  · have hplaces := (ledger_of_exec hledger hlater).places_nodup
    rw [List.append_assoc, List.append_assoc] at hplaces
    exact (List.nodup_append.mp hplaces).1
  · rintro before attempt after middle op rfl hattempt hbefore
    rw [Machine.exec_append, hbefore, Option.bind_some] at hlater
    obtain ⟨tried, htried, hafter⟩ := Option.bind_eq_some_iff.mp hlater
    have hdrains := drains_of_exec hflushed hbefore
    rw [hdrains.drained_iff]
    exact answers_of_attempt hdrains.channel (ledger_of_exec hledger hbefore) hattempt htried
      hafter

/-- One value is left at the flush: the first receive takes it, the second
fails. -/
theorem drains_after_flush_run :
    ∃ state flushed final,
      (machine Nat Nat 1).exec (initial 1) [.trySend 0 7, .closeExchange 1] = some state ∧
      (machine Nat Nat 1).step state (.closeFlush 1) = some flushed ∧
      (machine Nat Nat 1).exec flushed [.tryRecv 2, .recvReady 3, .recvSuspend 3] = some final ∧
      Drains flushed final ∧ received final = [⟨0, 7⟩] ∧ (3, false) ∈ answers final.log := by
  refine ⟨_, _, _, rfl, rfl, rfl, ?_⟩
  obtain ⟨hdrains, _, hends⟩ := drains_after_flush (V := Nat) 1 [.trySend 0 7, .closeExchange 1]
    [.tryRecv 2, .recvReady 3, .recvSuspend 3] 1 rfl rfl rfl
  have hend := hends [.tryRecv 2] (.recvReady 3) [.recvSuspend 3] _ 3 rfl (Or.inr rfl) rfl
  exact ⟨hdrains, rfl, (hend.2 rfl).mpr rfl⟩

end Interleaving

end Tang
