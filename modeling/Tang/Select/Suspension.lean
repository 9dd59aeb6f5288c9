import Tang.Select.ExactlyOne

/-! # Is a suspended `co_select` woken?

`register_waiter` stores the handle in the case and nowhere else, so no channel
ever schedules a coroutine suspended in `co_select`, and `wake_up` has no
caller. The wake-up is lost as soon as a case becomes executable.
-/

namespace Tang

open Foundation Effect

namespace Select

variable {Chan H A : Type} {T : Chan → Type} {n : Nat}

/-! ## The handle goes nowhere -/

section Handles

variable {V R : Type} [DecidableEq H] {channel : Channel H A V} {self : H}

/-- A handle that is neither stored nor registering is neither stored nor
scheduled afterwards. -/
theorem unscheduled_of_keepsHandles {out : Outcome H A V R} {registered : List H}
    (hkeeps : out.KeepsHandles channel registered) (hstored : channel.stored self = 0)
    (hother : self ∉ registered) :
    out.channel.stored self = 0 ∧ self ∉ schedules out.effects := by
  have hbalance := hkeeps self
  rw [hstored, List.count_eq_zero.mpr hother] at hbalance
  exact ⟨by omega, List.count_eq_zero.mp (by omega)⟩

theorem Foreign.unscheduled (call : Foreign H A V) (hstored : channel.stored self = 0)
    (hother : ∀ handle, call.handle? = some handle → some self ≠ some handle) :
    (call.run channel).1.stored self = 0 ∧ self ∉ (call.run channel).2 := by
  cases call with
  | trySend value =>
      exact unscheduled_of_keepsHandles (channel.trySendWith_keepsHandles value _) hstored
        List.not_mem_nil
  | trySendMove value =>
      exact unscheduled_of_keepsHandles (channel.trySendWith_keepsHandles value _) hstored
        List.not_mem_nil
  | tryRecv reader old =>
      exact unscheduled_of_keepsHandles (channel.tryRecv_keepsHandles reader old) hstored
        List.not_mem_nil
  | registerSendWaiter handle value =>
      have hne : self ∉ [handle] := by simpa using hother handle rfl
      by_cases hreceivers : channel.closed = false → channel.recvWaiters = []
      · exact unscheduled_of_keepsHandles
          (channel.registerSendWaiter_keepsHandles handle value hreceivers) hstored hne
      · obtain ⟨hclosed, hparked⟩ := Classical.not_imp.mp hreceivers
        exact unscheduled_of_keepsHandles
          (channel.registerSendWaiter_drops handle value hclosed hparked) hstored
          List.not_mem_nil
  | registerRecvWaiter handle awaiter =>
      have hne : self ∉ [handle] := by simpa using hother handle rfl
      exact unscheduled_of_keepsHandles
        (channel.registerRecvWaiter_keepsHandles handle awaiter) hstored hne
  | closeExchange => exact ⟨hstored, List.not_mem_nil⟩
  | closeFlush =>
      exact unscheduled_of_keepsHandles channel.closeFlush_keepsHandles hstored
        List.not_mem_nil

end Handles

variable {cases : Fin n → SelectCase Chan A T} {self : H} {state next : State Chan H A T n}
  {action : Action Chan H A T n}

/-! ## Woken for a case -/

/-- A suspended coroutine whose case could proceed has been scheduled, and one
that continues has taken exactly one case. -/
def WokenForCase (cases : Fin n → SelectCase Chan A T) (self : H) (state : State Chan H A T n) :
    Prop :=
  (state.phase = .suspended → (∃ case, (cases case).Executable state.channels) →
    self ∈ state.scheduled) ∧ ExactlyOne cases state

theorem wokenForCase_of_not_suspended (hone : ExactlyOne cases state)
    (hphase : state.phase ≠ .suspended) : WokenForCase cases self state :=
  ⟨fun hsuspended => absurd hsuspended hphase, hone⟩

section Condition

variable [DecidableEq Chan]

/-- The coroutine is suspended only when no case can proceed, no other party
lets a case proceed while it is suspended, and a case that is executed can still
proceed. -/
def StaysBlocked (cases : Fin n → SelectCase Chan A T) (state : State Chan H A T n) :
    Action Chan H A T n → Prop
  | .advance =>
      (∀ case, state.phase = .executing case → (cases case).Executable state.channels) ∧
        (state.phase = .probing .suspend [] →
          ∀ case, ¬ (cases case).Executable state.channels)
  | .foreign chan call => state.phase = .suspended → ∀ case, ¬ (cases case).Executable
      (Function.update state.channels chan (call.run (state.channels chan)).1)
  | .shuffle _ => True

theorem StaysBlocked.executesExecutable (hblocked : StaysBlocked cases state action) :
    ExecutesExecutable cases state action := by
  cases action with
  | advance => exact hblocked.1
  | shuffle | foreign => trivial

end Condition

variable [DecidableEq H]

/-- The caller's handle is in no waiter list and has not been scheduled. -/
def Unparked (self : H) (state : State Chan H A T n) : Prop :=
  (∀ chan, (state.channels chan).stored self = 0) ∧ self ∉ state.scheduled

/-- While the handle goes nowhere, a suspended state is a good one exactly if
every case is blocked. -/
theorem Unparked.wokenForCase_iff (hunparked : Unparked self state)
    (hphase : state.phase = .suspended) :
    WokenForCase cases self state ↔ ∀ case, ¬ (cases case).Executable state.channels := by
  constructor
  · intro hwoken case hexecutable
    exact hunparked.2 (hwoken.1 hphase ⟨case, hexecutable⟩)
  · intro hblocked
    refine ⟨fun _ hexecutable => ?_, exactlyOne_of_unpicked (by rw [hphase]; rfl)⟩
    obtain ⟨case, hexecutable⟩ := hexecutable
    exact absurd hexecutable (hblocked case)

variable [DecidableEq Chan]

/-! ## The caller's steps -/

theorem SelectCase.unscheduled (case : SelectCase Chan A T) (channels : Channels Chan H A T)
    (hstored : ∀ chan, (channels chan).stored self = 0) :
    (∀ chan, ((case.tryExecute channels).channels chan).stored self = 0) ∧
      self ∉ (case.tryExecute channels).scheduled := by
  cases case with
  | recv source reader callback =>
      obtain ⟨hnext, hscheduled⟩ := unscheduled_of_keepsHandles
        ((channels source).tryRecv_keepsHandles reader none) (hstored source) List.not_mem_nil
      refine ⟨fun chan => ?_, hscheduled⟩
      by_cases heq : chan = source
      · subst chan
        simpa [tryExecute] using hnext
      · simpa [tryExecute, heq] using hstored chan
  | send target value callback =>
      obtain ⟨hnext, hscheduled⟩ := unscheduled_of_keepsHandles
        ((channels target).trySendWith_keepsHandles value (some value)) (hstored target)
        List.not_mem_nil
      refine ⟨fun chan => ?_, hscheduled⟩
      by_cases heq : chan = target
      · subst chan
        simpa [tryExecute, Channel.trySend] using hnext
      · simpa [tryExecute, heq] using hstored chan
  | defaultCase callback => exact ⟨hstored, List.not_mem_nil⟩

theorem Moves.unparked (hmoves : Moves cases (some self) state action next)
    (hunparked : Unparked self state) : Unparked self next := by
  obtain ⟨hstored, hscheduled⟩ := hunparked
  cases hmoves with
  | shuffle | look | call => exact ⟨hstored, hscheduled⟩
  | execute case _ =>
      obtain ⟨hnext, hnew⟩ := (cases case).unscheduled state.channels hstored
      exact ⟨hnext, by simp [hscheduled, hnew]⟩
  | foreign other call hother =>
      obtain ⟨hnext, hnew⟩ := call.unscheduled (hstored other) hother
      refine ⟨fun chan => ?_, by simp [hscheduled, hnew]⟩
      by_cases heq : chan = other
      · subst chan
        simpa using hnext
      · simpa [heq] using hstored chan

/-- Out of a good state, exactly the steps that leave the coroutine suspended
in front of an executable case, or execute a blocked one, lead to a bad state. -/
theorem Moves.wokenForCase_iff (hmoves : Moves cases (some self) state action next)
    (hprogress : Progress cases state) (hunparked : Unparked self state)
    (hwoken : WokenForCase cases self state) :
    WokenForCase cases self next ↔ StaysBlocked cases state action := by
  have hone := hmoves.exactlyOne_iff hprogress hwoken.2
  have hunparkedNext := hmoves.unparked hunparked
  cases hmoves with
  | shuffle pass order hphase =>
      exact iff_of_true (wokenForCase_of_not_suspended (hone.mpr trivial) (by simp)) trivial
  | look target _ hidle htarget hsuspends =>
      have hexecutes : ∀ case, state.phase = .executing case →
          (cases case).Executable state.channels := fun case hcase => absurd hcase (hidle case)
      by_cases hsuspended : target = .suspended
      · rw [hunparkedNext.wokenForCase_iff hsuspended]
        exact ⟨fun hblocked => ⟨hexecutes, fun _ => hblocked⟩,
          fun hblocked => hblocked.2 (hsuspends.mp hsuspended)⟩
      · exact iff_of_true (wokenForCase_of_not_suspended (hone.mpr hexecutes) hsuspended)
          ⟨hexecutes, fun hprobing => absurd (hsuspends.mpr hprobing) hsuspended⟩
  | execute case hphase =>
      constructor
      · intro hnext
        exact ⟨hone.mp hnext.2, fun hprobing => by simp [hphase] at hprobing⟩
      · intro hblocked
        apply wokenForCase_of_not_suspended (hone.mpr hblocked.1)
        dsimp only
        split <;> simp
  | call case hphase =>
      have hexecutes : ∀ case, state.phase = .executing case →
          (cases case).Executable state.channels := fun case hcase => by simp [hphase] at hcase
      exact iff_of_true (wokenForCase_of_not_suspended (hone.mpr hexecutes) (by simp))
        ⟨hexecutes, fun hprobing => by simp [hphase] at hprobing⟩
  | foreign chan call _ =>
      by_cases hphase : state.phase = .suspended
      · rw [hunparkedNext.wokenForCase_iff hphase]
        exact ⟨fun hblocked _ => hblocked, fun hblocked => hblocked hphase⟩
      · exact iff_of_true (wokenForCase_of_not_suspended (hone.mpr trivial) hphase)
          fun hsuspended => absurd hsuspended hphase

/-- A coroutine whose handle is parked nowhere awaits `co_select` over any
channels, among any other parties. It is never left suspended in front of an
executable case without a wake-up, and takes exactly one case when it continues,
exactly if every case stays blocked while it is suspended and the executed case
is executable. -/
theorem wokenForCase_along_iff (cases : Fin n → SelectCase Chan A T) (self : H)
    (channels : Channels Chan H A T) (hself : ∀ chan, (channels chan).stored self = 0)
    (actions : List (Action Chan H A T n)) :
    (coSelect cases self channels).Along (WokenForCase cases self) (initial channels .ready)
        actions ↔
      (coSelect cases self channels).Meets (StaysBlocked cases) (initial channels .ready)
        actions := by
  apply Machine.along_iff_meets fun state => Progress cases state ∧ Unparked self state
  · rintro state action next ⟨hprogress, hunparked⟩ _ hblocked hstep
    have hmoves := moves_of_step cases hstep
    exact ⟨hmoves.progress hprogress hblocked.executesExecutable, hmoves.unparked hunparked⟩
  · rintro state action next ⟨hprogress, hunparked⟩ hwoken hstep
    exact (moves_of_step cases hstep).wokenForCase_iff hprogress hunparked hwoken
  · exact ⟨initial_progress channels .ready, hself, List.not_mem_nil⟩
  · exact wokenForCase_of_not_suspended (exactlyOne_of_unpicked rfl) (by simp [initial])

theorem wokenForCase_recv_run :
    (coSelect (fun _ : Fin 1 => (.recv () 0 true : SelectCase Unit Nat fun _ => Nat)) 7
        fun _ => .new 1).Along
      (WokenForCase (fun _ => .recv () 0 true) 7) (initial (fun _ => .new 1) .ready)
      [.shuffle ⟨[0], by decide⟩, .advance, .advance, .advance] ↔
    (coSelect (fun _ : Fin 1 => (.recv () 0 true : SelectCase Unit Nat fun _ => Nat)) 7
        fun _ => .new 1).Meets
      (StaysBlocked fun _ => .recv () 0 true) (initial (fun _ => .new 1) .ready)
      [.shuffle ⟨[0], by decide⟩, .advance, .advance, .advance] :=
  wokenForCase_along_iff (fun _ => .recv () 0 true) 7 (fun _ => .new 1) (fun _ => rfl) _

/-- The coroutine 7 finds the channel empty twice and is suspended. Then a value
is sent: it could be received, and nobody has scheduled the coroutine. -/
theorem unwoken_select_run :
    ¬ (coSelect (fun _ : Fin 1 => (.recv () 0 true : SelectCase Unit Nat fun _ => Nat)) 7
        fun _ => .new 1).Along
      (WokenForCase (fun _ => .recv () 0 true) 7) (initial (fun _ => .new 1) .ready)
      [.shuffle ⟨[0], by decide⟩, .advance, .advance, .advance, .shuffle ⟨[0], by decide⟩,
        .advance, .advance, .advance, .foreign () (.trySend 5)] := by
  intro halong
  have hlast := halong.last rfl
  have hscheduled := hlast.1 rfl ⟨0, Or.inl (by decide)⟩
  exact absurd hscheduled List.not_mem_nil

end Select

end Tang
