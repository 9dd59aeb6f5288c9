import Tang.Foundation.History
import Tang.EventLoop.Loop

/-! # `stop`, and one loop at a time

The flag `running_` is the entry lock of `run` and the stop request. A thread
reads it only between two waits, so a stop can miss a thread that waits without
a timeout, and a new `run` can overtake a loop that has not read the flag yet.
-/

namespace Tang.EventLoop.Stopping

open Foundation Loop

variable {Thread Source : Type}

/-- A thread is in `epoll_wait` without a timeout. -/
def BlockedAt (state : State Thread Source) (thread : Thread) : Prop :=
  ∃ phase ∈ (state.frames thread).head?, phase.unlimited

/-- A registered source other than those of the given descriptors has a pending
event. -/
def PendingWithout (state : State Thread Source) (fds : List Int) : Prop :=
  ∃ fd ∈ state.ready, fd ∉ fds ∧ (state.poller.sources fd).isSome

/-- Some thread waits without a timeout, and no event is pending. -/
def Stuck (state : State Thread Source) : Prop :=
  (∃ thread, BlockedAt state thread) ∧ ¬ PendingWithout state []

/-- The callers of a nested `run` are in callbacks and handlers. -/
def Nested (state : State Thread Source) : Prop :=
  ∀ thread, ∀ caller ∈ (state.frames thread).tail, caller.codeRuns

/-- Whether `stop` has returned since the last call of `run`. -/
def record (stopped : Bool) (_ : State Thread Source) (action : Action Thread Source)
    (_ : State Thread Source) : Bool :=
  match action with
  | .call _ .stop => true
  | .run _ => false
  | .call _ _ | .move _ _ | .arrive _ | .withdraw _ => stopped

/-- The event loop with the record. -/
def recorded (Thread Source : Type) [DecidableEq Thread] (opened : Bool) :
    Machine (State Thread Source × Bool) (Action Thread Source) :=
  (Loop.machine Thread Source opened).recording false record

/-- After a stop no thread waits for ever. -/
def Effective (watched : State Thread Source × Bool) : Prop :=
  ¬ (watched.2 = true ∧ Stuck watched.1)

/-- A stop finds no thread stuck; after it no thread enters a wait without a
timeout while no event is pending, and no pending event that such a wait needs
is taken or removed. -/
def Reaches (watched : State Thread Source × Bool) : Action Thread Source → Prop
  | .call _ .stop => ¬ Stuck watched.1
  | .call _ (.delete source fd fails) =>
      watched.2 = true → (watched.1.poller.deleteEvent source fd fails).2 →
        (∃ thread, BlockedAt watched.1 thread) → PendingWithout watched.1 [fd]
  | .move thread .poll =>
      watched.2 = true → ∀ pass callers, watched.1.frames thread = .timers pass :: callers →
        watched.1.poller.opened → Poller.waitTime pass.nextTimeout < 0 →
          PendingWithout watched.1 []
  | .move thread (.wake entries) =>
      watched.2 = true → (∃ other, other ≠ thread ∧ BlockedAt watched.1 other) →
        PendingWithout watched.1 (entries.map Prod.fst)
  | .withdraw fd =>
      watched.2 = true → (∃ thread, BlockedAt watched.1 thread) → PendingWithout watched.1 [fd]
  | .call _ _ | .run _ | .move _ _ | .arrive _ => True

section Waits

variable {state next middle : State Thread Source} {thread : Thread} {move : Move}
  {phase : Phase Source} {later : Option (Phase Source)} {callers : List (Phase Source)}

theorem effective_iff {stopped : Bool} :
    Effective (state, stopped) ↔
      (stopped = true → (∃ thread, BlockedAt state thread) → PendingWithout state []) := by
  constructor
  · intro heffective hstopped hblocked
    by_contra hpending
    exact heffective ⟨hstopped, hblocked, hpending⟩
  · rintro himp ⟨hstopped, hblocked, hpending⟩
    exact hpending (himp hstopped hblocked)

/-- Fewer waits and more events. -/
theorem Stuck.mono (hstuck : Stuck next)
    (hblocked : (∃ thread, BlockedAt next thread) → ∃ thread, BlockedAt state thread)
    (hpending : PendingWithout state [] → PendingWithout next []) : Stuck state :=
  ⟨hblocked hstuck.1, fun hstate => hstuck.2 (hpending hstate)⟩

theorem pendingWithout_filter {fds : List Int} :
    PendingWithout { state with ready := state.ready.filter fun fd => fd ∉ fds } [] ↔
      PendingWithout state fds := by
  simp [PendingWithout, and_assoc]

/-- The events that are left when a descriptor is deleted. -/
theorem pendingWithout_delete {fd : Int} {interest : Interest} :
    PendingWithout { state with
      poller := { state.poller with
        interest := interest, sources := Function.update state.poller.sources fd none }
      ready := state.ready.filter fun other => other != fd } [] ↔ PendingWithout state [fd] := by
  constructor
  · rintro ⟨other, hother, _, hregistered⟩
    obtain ⟨hready, hne⟩ := List.mem_filter.mp hother
    have hfd : other ≠ fd := by simpa using hne
    exact ⟨other, hready, by simpa using hfd, by simpa [hfd] using hregistered⟩
  · rintro ⟨other, hready, hne, hregistered⟩
    have hfd : other ≠ fd := by simpa using hne
    exact ⟨other, List.mem_filter.mpr ⟨hready, by simpa using hfd⟩, List.not_mem_nil,
      by simpa [hfd] using hregistered⟩

/-- Code does not wait. -/
theorem not_unlimited_of_codeRuns (hcode : phase.codeRuns) : phase.unlimited = false := by
  cases phase with
  | polling => cases hcode
  | testing | timers | dispatching | handling => rfl

/-- A call of `run` that does not enter a wait is not waiting, and neither is the
callback or handler it returns to. -/
theorem not_blocked_of_walks (hnested : Nested state)
    (hframes : state.frames thread = phase :: callers)
    (hlater : ∀ phase ∈ later, phase.unlimited = false) :
    ¬ ∃ phase ∈ (later.toList ++ callers).head?, phase.unlimited := by
  rintro ⟨phase', hphase, hunlimited⟩
  cases later with
  | some phase =>
      obtain rfl := Option.some.inj hphase
      exact absurd hunlimited (by simp [hlater phase rfl])
  | none =>
      have hmem : phase' ∈ callers := List.mem_of_head? hphase
      have hcode := hnested thread phase' (by rw [hframes]; exact hmem)
      exact absurd hunlimited (by simp [not_unlimited_of_codeRuns hcode])

variable [DecidableEq Thread]

/-- Who waits after the calls of one thread have changed. -/
theorem blocked_setFrames {frames : List (Phase Source)} :
    (∃ other, BlockedAt (state.setFrames thread frames) other) ↔
      (∃ phase ∈ frames.head?, phase.unlimited) ∨
        ∃ other, other ≠ thread ∧ BlockedAt state other := by
  constructor
  · rintro ⟨other, hblocked⟩
    by_cases hother : other = thread
    · subst hother
      exact Or.inl (by simpa [BlockedAt] using hblocked)
    · exact Or.inr ⟨other, hother, by simpa [BlockedAt, hother] using hblocked⟩
  · rintro (hblocked | ⟨other, hother, hblocked⟩)
    · exact ⟨thread, by simpa [BlockedAt] using hblocked⟩
    · exact ⟨other, by simpa [BlockedAt, hother] using hblocked⟩

theorem Nested.starts (hnested : Nested state) (hcode : codeRuns (state.frames thread)) :
    Nested ({ state with running := true }.setFrames thread (.testing :: state.frames thread)) := by
  intro other caller hcaller
  rw [State.setFrames_frames] at hcaller
  by_cases hother : other = thread
  · subst hother
    rw [Function.update_self, List.tail_cons] at hcaller
    cases hframes : state.frames other with
    | nil => simp [hframes] at hcaller
    | cons phase callers =>
        rw [hframes] at hcaller hcode
        rcases List.mem_cons.mp hcaller with rfl | hold
        · exact hcode
        · exact hnested other caller (by rw [hframes]; exact hold)
  · rw [Function.update_of_ne hother] at hcaller
    exact hnested other caller hcaller

theorem Nested.walks (hnested : Nested state) (hframes : state.frames thread = phase :: callers)
    (hwalks : Walks state phase move middle later) :
    Nested (middle.setFrames thread (later.toList ++ callers)) := by
  intro other caller hcaller
  rw [State.setFrames_frames, hwalks.frame.2.2] at hcaller
  by_cases hother : other = thread
  · subst hother
    rw [Function.update_self] at hcaller
    have hmem : caller ∈ callers := by
      cases later with
      | none => exact List.mem_of_mem_tail hcaller
      | some phase => exact hcaller
    exact hnested other caller (by rw [hframes]; exact hmem)
  · rw [Function.update_of_ne hother] at hcaller
    exact hnested other caller hcaller

end Waits

variable [DecidableEq Thread] {state next middle : State Thread Source} {stopped : Bool}
  {thread : Thread} {move : Move} {phase : Phase Source} {later : Option (Phase Source)}
  {callers : List (Phase Source)} {action : Action Thread Source}

/-- A step inside `run` that enters no wait and takes no event. -/
theorem effective_of_walks (hgood : Effective (state, stopped)) (hnested : Nested state)
    (hframes : state.frames thread = phase :: callers)
    (hwalks : Walks state phase move middle later) (hready : middle.ready = state.ready)
    (hlater : ∀ phase ∈ later, phase.unlimited = false) :
    Effective (middle.setFrames thread (later.toList ++ callers), stopped) := by
  rintro ⟨hstopped, hstuck⟩
  refine hgood ⟨hstopped, hstuck.mono (fun hblocked => ?_) fun hpending => ?_⟩
  · rcases blocked_setFrames.mp hblocked with hthread | ⟨other, _, hother⟩
    · exact absurd hthread (not_blocked_of_walks hnested hframes hlater)
    · exact ⟨other, by simpa [BlockedAt, hwalks.frame.2.2] using hother⟩
  · simpa [PendingWithout, hready, hwalks.frame.2.1] using hpending

/-- Entering a wait is all right unless it is one without a timeout, after a
stop, and with no event pending. -/
theorem effective_polls_iff (hgood : Effective (state, stopped)) {pass : Pass}
    (hframes : state.frames thread = .timers pass :: callers) (hopened : state.poller.opened) :
    Effective (state.setFrames thread (.polling (Poller.waitTime pass.nextTimeout) :: callers),
        stopped) ↔
      Reaches (state, stopped) (.move thread .poll) := by
  constructor
  · intro hnext hstopped pass' callers' hframes' _ hunlimited
    by_contra hpending
    obtain ⟨hphase, _⟩ := List.cons.inj (hframes.symm.trans hframes')
    obtain rfl := Phase.timers.inj hphase
    refine hnext ⟨hstopped, blocked_setFrames.mpr (Or.inl ⟨_, rfl, ?_⟩), hpending⟩
    exact decide_eq_true hunlimited
  · rintro hreaches ⟨hstopped, hblocked, hpending⟩
    rcases blocked_setFrames.mp hblocked with ⟨phase', hphase, hunlimited⟩ | ⟨other, _, hother⟩
    · obtain rfl := Option.some.inj hphase
      exact hpending (hreaches hstopped pass callers hframes hopened
        (of_decide_eq_true hunlimited))
    · exact hgood ⟨hstopped, ⟨other, hother⟩, hpending⟩

/-- A return from a wait is all right if it leaves the events others need. -/
theorem effective_wakes_iff {entries : List (Int × Mask)}
    {batch : List (Event Source)} :
    Effective ({ state with
        ready := state.ready.filter fun fd => fd ∉ entries.map Prod.fst }.setFrames thread
          (.dispatching batch :: callers), stopped) ↔
      Reaches (state, stopped) (.move thread (.wake entries)) := by
  have hpending : PendingWithout ({ state with
      ready := state.ready.filter fun fd => fd ∉ entries.map Prod.fst }.setFrames thread
        (.dispatching batch :: callers)) [] ↔ PendingWithout state (entries.map Prod.fst) :=
    pendingWithout_filter
  have hblocked : (∃ other, BlockedAt ({ state with
      ready := state.ready.filter fun fd => fd ∉ entries.map Prod.fst }.setFrames thread
        (.dispatching batch :: callers)) other) ↔
      ∃ other, other ≠ thread ∧ BlockedAt state other := by
    rw [blocked_setFrames]
    apply or_iff_right
    rintro ⟨phase', hphase, hunlimited⟩
    obtain rfl := Option.some.inj hphase
    cases hunlimited
  rw [effective_iff, hblocked, hpending]
  rfl

theorem walks_exact (hgood : Effective (state, stopped)) (hnested : Nested state)
    (hframes : state.frames thread = phase :: callers)
    (hwalks : Walks state phase move middle later) :
    Effective (middle.setFrames thread (later.toList ++ callers), stopped) ↔
      Reaches (state, stopped) (.move thread move) := by
  have hidle := effective_of_walks hgood hnested hframes hwalks
  cases hwalks with
  | polls pass _ hopened => exact effective_polls_iff hgood hframes hopened
  | fails pass _ hopened =>
      apply iff_of_true (hidle rfl (by simp [Phase.unlimited]))
      intro _ _ _ _ hopen
      simp [hopened] at hopen
  | wakes waitTime entries _ => exact effective_wakes_iff
  | enters | leaves | examines | erases | expires | interrupts | dispatches | handled | next
      | throws => exact iff_of_true (hidle rfl (by simp [Phase.unlimited])) trivial

/-- A step out of an effective state leads to an effective one exactly if the
stop reaches the waits. -/
theorem effective_exact (hgood : Effective (state, stopped)) (hnested : Nested state)
    (hmoves : Moves state action next) :
    Effective (next, record stopped state action next) ↔ Reaches (state, stopped) action := by
  cases hmoves with
  | calls thread call next _ hperform =>
      cases call with
      | stop =>
          cases hperform
          simp [Effective, Reaches, record, Stuck, PendingWithout, BlockedAt]
      | timer op =>
          obtain ⟨table, _, rfl⟩ := Option.map_eq_some_iff.mp hperform
          exact iff_of_true hgood trivial
      | register source fd events fails =>
          simp only [State.perform, Option.some.injEq] at hperform
          subst hperform
          refine iff_of_true ?_ trivial
          rintro ⟨hstopped, hstuck⟩
          refine hgood ⟨hstopped, hstuck.mono id fun hpending => ?_⟩
          rcases state.poller.registerEvent_cases source fd events fails with
            hfailed | ⟨hsource, hdone⟩
          · simpa only [PendingWithout, hfailed] using hpending
          · obtain ⟨other, hother, hnot, hregistered⟩ := hpending
            refine ⟨other, hother, hnot, ?_⟩
            simp only [hdone]
            by_cases hfd : other = fd
            · rw [hfd, Function.update_self]
              exact hsource
            · rw [Function.update_of_ne hfd]
              exact hregistered
      | modify source fd events fails =>
          simp only [State.perform, Option.some.injEq] at hperform
          subst hperform
          refine iff_of_true ?_ trivial
          rintro ⟨hstopped, hstuck⟩
          refine hgood ⟨hstopped, hstuck.mono id fun hpending => ?_⟩
          rcases state.poller.modifyEvent_cases source fd events fails with
            hfailed | ⟨_, hdone⟩
          · simpa only [PendingWithout, hfailed] using hpending
          · simpa only [PendingWithout, hdone] using hpending
      | delete source fd fails =>
          simp only [State.perform, Option.some.injEq] at hperform
          subst hperform
          rcases state.poller.deleteEvent_cases source fd fails with hfailed | hdone
          · simp only [hfailed, Reaches, Bool.false_eq_true, if_false]
            exact iff_of_true hgood fun _ h => h.elim
          · simp only [hdone, Reaches, if_true, forall_const]
            rw [effective_iff, pendingWithout_delete]
            rfl
  | returnsAtOnce | starts => exact iff_of_true (by simp [Effective, record]) trivial
  | walks thread move middle phase callers later hframes hwalks =>
      exact walks_exact hgood hnested hframes hwalks
  | arrives fd _ =>
      refine iff_of_true ?_ trivial
      rintro ⟨hstopped, hstuck⟩
      refine hgood ⟨hstopped, hstuck.mono id ?_⟩
      rintro ⟨other, hother, hpending⟩
      exact ⟨other, List.mem_append_left _ hother, hpending⟩
  | withdraws fd =>
      have hpending : PendingWithout { state with
          ready := state.ready.filter fun other => other != fd } [] ↔
            PendingWithout state [fd] := by
        simp [PendingWithout, and_assoc]
      rw [effective_iff, hpending]
      rfl

theorem nested_of_moves (hnested : Nested state) (hmoves : Moves state action next) :
    Nested next := by
  cases hmoves with
  | calls thread call next _ hperform =>
      unfold Nested
      rw [State.perform_frames hperform]
      exact hnested
  | starts thread hcode _ => exact hnested.starts hcode
  | walks thread move middle phase callers later hframes hwalks =>
      exact hnested.walks hframes hwalks
  | returnsAtOnce | arrives | withdraws => exact hnested

/-- In a run every stop takes effect exactly when it finds no thread in a wait
without a timeout, no thread enters such a wait afterwards, and no pending event
that such a wait needs is taken away. -/
theorem effective_iff_reaches (opened : Bool) (actions : List (Action Thread Source)) :
    (recorded Thread Source opened).Along Effective (recorded Thread Source opened).start actions ↔
      (recorded Thread Source opened).Meets Reaches (recorded Thread Source opened).start
        actions := by
  refine Machine.along_iff_meets (fun watched => Nested watched.1) ?_ ?_ ?_ ?_
  · intro watched action next hnested _ _ hstep
    exact nested_of_moves hnested (moves_of_step (Machine.recording_step hstep).1)
  · intro watched action next hnested hgood hstep
    obtain ⟨hmachine, hrecord⟩ := Machine.recording_step hstep
    have hexact := effective_exact hgood hnested (moves_of_step hmachine)
    rwa [← hrecord] at hexact
  · intro thread caller hcaller
    cases hcaller
  · rintro ⟨hstopped, _⟩
    cases hstopped

/-- A loop without timers and events waits without a timeout, and `stop` does not
end the wait. -/
theorem not_effective_idle :
    ∃ final, (recorded Bool Unit true).exec (recorded Bool Unit true).start
        [.run false, .move false (.test 0), .move false .poll, .call true .stop] = some final ∧
      final.1.running = false ∧ final.1.frames false = [.polling (-1)] ∧
        ¬ Effective final := by
  refine ⟨_, rfl, rfl, rfl, fun heffective => heffective ⟨rfl, ⟨false, ?_⟩, ?_⟩⟩
  · exact ⟨.polling (-1), rfl, rfl⟩
  · rintro ⟨fd, hfd, _⟩
    cases hfd

/-! ## One loop at a time -/

/-- At most one thread is in the body of the `while` loop. -/
def Exclusive (state : State Thread Source) : Prop :=
  ∀ thread other, (∃ phase ∈ state.frames thread, phase.inBody) →
    (∃ phase ∈ state.frames other, phase.inBody) → thread = other

/-- A call of `run` that finds `running_` cleared finds no other thread inside
`run`. -/
def Solitary (state : State Thread Source) : Action Thread Source → Prop
  | .run thread => state.running = false → ∀ other, other ≠ thread → state.frames other = []
  | .call _ _ | .move _ _ | .arrive _ | .withdraw _ => True

/-- At most one thread is inside `run`. -/
def Alone (state : State Thread Source) : Prop :=
  ∀ thread other, state.frames thread ≠ [] → state.frames other ≠ [] → thread = other

omit [DecidableEq Thread] in
theorem Alone.exclusive (halone : Alone state) : Exclusive state := by
  rintro thread other ⟨_, hthread, _⟩ ⟨_, hother, _⟩
  exact halone thread other (List.ne_nil_of_mem hthread) (List.ne_nil_of_mem hother)

/-- The calls of a thread change, and no other thread is inside. -/
theorem Alone.setFrames {frames : List (Phase Source)} (hframes : middle.frames = state.frames)
    (hothers : ∀ other, other ≠ thread → state.frames other = []) :
    Alone (middle.setFrames thread frames) := by
  have hinside : ∀ other, (middle.setFrames thread frames).frames other ≠ [] → other = thread := by
    intro other hother
    by_contra hne
    rw [State.setFrames_frames, hframes, Function.update_of_ne hne] at hother
    exact hother (hothers other hne)
  intro first second hfirst hsecond
  rw [hinside first hfirst, hinside second hsecond]

theorem alone_of_moves (halone : Alone state) (hsolitary : Solitary state action)
    (hmoves : Moves state action next) : Alone next := by
  cases hmoves with
  | calls thread call next _ hperform =>
      unfold Alone
      rw [State.perform_frames hperform]
      exact halone
  | starts thread _ hrunning => exact .setFrames rfl (hsolitary hrunning)
  | walks thread move middle phase callers later hframes hwalks =>
      refine .setFrames hwalks.frame.2.2 fun other hother => ?_
      by_contra hinside
      exact hother (halone other thread hinside (by simp [hframes]))
  | returnsAtOnce | arrives | withdraws => exact halone

/-- As long as a new `run` starts only after the earlier ones have returned, at
most one thread is in the body of the loop. -/
theorem exclusive_of_solitary (opened : Bool) (actions : List (Action Thread Source))
    (hmeets : (Loop.machine Thread Source opened).Meets Solitary
      (Loop.machine Thread Source opened).start actions) :
    (Loop.machine Thread Source opened).Along Exclusive
      (Loop.machine Thread Source opened).start actions := by
  refine Machine.along_of_meets Alone (fun _ _ _ halone hsolitary hstep =>
    alone_of_moves halone hsolitary (moves_of_step hstep)) (fun _ => Alone.exclusive) ?_ hmeets
  intro thread other hthread
  exact absurd rfl hthread

/-- A loop is stopped and left before another thread starts it again. -/
theorem exclusive_of_solitary_restart :
    (Loop.machine Bool Unit true).Along Exclusive (Loop.machine Bool Unit true).start
      [.run false, .call true .stop, .move false (.test 0), .run true, .move true (.test 0)] := by
  apply exclusive_of_solitary true _
  refine .cons rfl (fun _ other _ => rfl) (.cons rfl trivial (.cons rfl trivial ?_))
  refine .cons rfl (fun _ other hother => ?_) (.cons rfl trivial trivial)
  obtain rfl : other = false := by simpa using hother
  rfl

/-- A new `run` overtakes a loop that has not read the flag since it was cleared:
both threads are in `handle_timers`. -/
theorem not_exclusive_overtaken :
    ∃ final, (Loop.machine Bool Unit true).exec (Loop.machine Bool Unit true).start
        [.run false, .move false (.test 0), .move false .poll, .call true .stop, .run true,
          .move true (.test 0), .move false .interrupt, .move false (.test 0)] = some final ∧
      ¬ Exclusive final := by
  refine ⟨_, rfl, fun hexclusive => ?_⟩
  have hsame := hexclusive false true ⟨_, List.mem_singleton.mpr rfl, rfl⟩
    ⟨_, List.mem_singleton.mpr rfl, rfl⟩
  cases hsame

end Tang.EventLoop.Stopping
