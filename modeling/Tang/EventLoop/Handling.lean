import Tang.EventLoop.Rounds

/-! # Ready descriptors are handled

A ready descriptor ends every wait of the loop, limited or not. So a thread
alone in the loop polls again and again, and the handler of a registered source
is called, if the kernel does not overlook its descriptor for ever.
-/

namespace Tang.EventLoop.Handling

open Foundation Filter Loop Rounds

variable {Thread Source : Type}

section Events

variable {state next middle : State Thread Source} {action : Action Thread Source}
  {thread : Thread} {fd : Int} {source : Source} {call : Call Source}

/-- The kernel reports the descriptor to the thread. -/
def Announces (thread : Thread) (fd : Int) (action : Action Thread Source) : Prop :=
  ∃ entries, action = .move thread (.wake entries) ∧ fd ∈ entries.map Prod.fst

/-- The descriptor is ready, and registered for the source. -/
structure Ready (state : State Thread Source) (fd : Int) (source : Source) : Prop where
  ready : fd ∈ state.ready
  interest : (state.poller.interest fd).isSome
  source : state.poller.sources fd = some source

/-- The descriptor stays ready, and code does not delete it. -/
structure Retains (fd : Int) (action : Action Thread Source) : Prop where
  ready : action ≠ .withdraw fd
  kept : ∀ thread source fails, action ≠ .call thread (.delete source fd fails)

theorem perform_opened (hperform : state.perform call = some next) :
    next.poller.opened = state.poller.opened := by
  cases call with
  | stop =>
      cases hperform
      rfl
  | timer op =>
      obtain ⟨table, _, rfl⟩ := Option.map_eq_some_iff.mp hperform
      rfl
  | register source fd events fails =>
      cases hperform
      rcases state.poller.registerEvent_cases source fd events fails with heq | ⟨_, heq⟩ <;>
        simp only [heq]
  | modify source fd events fails =>
      cases hperform
      rcases state.poller.modifyEvent_cases source fd events fails with heq | ⟨_, heq⟩ <;>
        simp only [heq]
  | delete source fd fails =>
      cases hperform
      rcases state.poller.deleteEvent_cases source fd fails with heq | heq <;> simp only [heq]

/-- The kernel refuses a descriptor it watches. -/
theorem registerEvent_of_interest {poller : Poller Source} (other : Option Source)
    (events : Mask) (fails : Bool) (hinterest : (poller.interest fd).isSome) :
    poller.registerEvent other fd events fails = (poller, false) := by
  simp [Poller.registerEvent, Interest.add, hinterest]

/-- Calls of code leave a descriptor alone that is not deleted. -/
theorem Ready.perform (hready : Ready state fd source)
    (hkept : ∀ source fails, call ≠ .delete source fd fails)
    (hperform : state.perform call = some next) : Ready next fd source := by
  cases call with
  | stop =>
      cases hperform
      exact ⟨hready.ready, hready.interest, hready.source⟩
  | timer op =>
      obtain ⟨table, _, rfl⟩ := Option.map_eq_some_iff.mp hperform
      exact ⟨hready.ready, hready.interest, hready.source⟩
  | register other fd' events fails =>
      cases hperform
      by_cases hfd : fd' = fd
      · subst hfd
        rw [registerEvent_of_interest other events fails hready.interest]
        exact ⟨hready.ready, hready.interest, hready.source⟩
      · rcases state.poller.registerEvent_cases other fd' events fails with heq | ⟨_, heq⟩
        · rw [heq]
          exact ⟨hready.ready, hready.interest, hready.source⟩
        · rw [heq]
          refine ⟨hready.ready, ?_, ?_⟩
          · simpa [Function.update_of_ne (Ne.symm hfd)] using hready.interest
          · simpa [Function.update_of_ne (Ne.symm hfd)] using hready.source
  | modify other fd' events fails =>
      cases hperform
      rcases state.poller.modifyEvent_cases other fd' events fails with heq | ⟨_, heq⟩
      · rw [heq]
        exact ⟨hready.ready, hready.interest, hready.source⟩
      · rw [heq]
        refine ⟨hready.ready, ?_, hready.source⟩
        by_cases hfd : fd = fd'
        · simp [hfd]
        · simpa [Function.update_of_ne hfd] using hready.interest
  | delete other fd' fails =>
      have hfd : fd ≠ fd' := fun heq => hkept other fails (heq ▸ rfl)
      cases hperform
      rcases state.poller.deleteEvent_cases other fd' fails with heq | heq
      · rw [heq]
        exact ⟨hready.ready, hready.interest, hready.source⟩
      · rw [heq]
        refine ⟨?_, ?_, ?_⟩
        · simpa [hfd] using hready.ready
        · simpa [Function.update_of_ne hfd] using hready.interest
        · simpa [Function.update_of_ne hfd] using hready.source

variable [DecidableEq Thread]

/-- A descriptor stays ready until it is reported. -/
theorem Ready.moves (hready : Ready state fd source) (hretains : Retains fd action)
    (hquiet : ∀ thread, ¬ Announces thread fd action) (hmoves : Moves state action next) :
    Ready next fd source := by
  cases hmoves with
  | calls thread call _ _ hperform =>
      exact hready.perform (fun other fails heq => hretains.kept thread other fails (heq ▸ rfl))
        hperform
  | returnsAtOnce => exact hready
  | starts => exact ⟨hready.ready, hready.interest, hready.source⟩
  | walks thread move middle phase callers later _ hwalks =>
      have hpoller := hwalks.frame.2.1
      refine ⟨?_, hpoller ▸ hready.interest, hpoller ▸ hready.source⟩
      cases hwalks with
      | wakes waitTime entries _ =>
          have hnot : fd ∉ entries.map Prod.fst := fun hmem => hquiet thread ⟨entries, rfl, hmem⟩
          exact List.mem_filter.mpr ⟨hready.ready, by simpa using hnot⟩
      | _ => exact hready.ready
  | arrives => exact ⟨List.mem_append_left _ hready.ready, hready.interest, hready.source⟩
  | withdraws other =>
      have hne : fd ≠ other := fun heq => hretains.ready (heq ▸ rfl)
      exact ⟨List.mem_filter.mpr ⟨hready.ready, by simpa using hne⟩, hready.interest,
        hready.source⟩

theorem opened_of_moves (hmoves : Moves state action next) :
    next.poller.opened = state.poller.opened := by
  cases hmoves with
  | calls thread call _ _ hperform => exact perform_opened hperform
  | walks thread move middle phase callers later _ hwalks =>
      rw [State.setFrames_poller, hwalks.frame.2.1]
  | returnsAtOnce | starts | arrives | withdraws => rfl

theorem opened_states (schedule : Nat → Option (Action Thread Source)) (time : Nat) :
    ((Loop.machine Thread Source true).states schedule time).poller.opened = true := by
  have hmeets : (Loop.machine Thread Source true).MeetsAlways schedule fun _ _ => True :=
    fun _ _ _ => trivial
  refine @Machine.states_invariant _ _ _ _
    (fun state : State Thread Source => state.poller.opened = true) _ rfl ?_ hmeets time
  exact fun _ _ _ hopened _ hstep => (opened_of_moves (moves_of_step hstep)).trans hopened

variable {schedule : Nat → Option (Action Thread Source)} {first time : Nat}

/-- A pass ends in `epoll_wait`. -/
theorem exists_polling_of_pass (hsteady : Steady true schedule thread first)
    (htime : first ≤ time) {pass : Pass}
    (hlooping : Looping ((Loop.machine Thread Source true).states schedule time) thread
      (.timers pass)) :
    ∃ later, time ≤ later ∧ ∃ waitTime,
      Looping ((Loop.machine Thread Source true).states schedule (later + 1)) thread
        (.polling waitTime) := by
  refine hsteady.leads
    (fun now => ∃ pass,
      Looping ((Loop.machine Thread Source true).states schedule now) thread (.timers pass))
    _ (fun now hnow ⟨pass, hlooping⟩ => ?_) (fun now _ ⟨pass, hlooping⟩ => ?_)
    htime ⟨pass, hlooping⟩
  · have htest : ∀ reading, ¬ (Loop.machine Thread Source true).Takes schedule now
        (.move thread (.test reading)) := fun reading htakes => by
      cases hlooping.testing htakes.2
    rcases step_cases hsteady hnow hlooping with
      ⟨hnext, _⟩ | ⟨move, middle, later, _, hwalk, _, hlater⟩
    · exact Or.inl ⟨⟨pass, hnext⟩, htest⟩
    · cases passes_of_walk hwalk with
      | waits | fires | erases => exact Or.inl ⟨⟨_, hlater⟩, htest⟩
      | polls => exact Or.inr ⟨_, hlater⟩
      | fails _ hclosed => simp [opened_states schedule now] at hclosed
  · exact ⟨_, hlooping, rfl⟩

/-- The thread is in `epoll_wait` again and again. -/
theorem exists_polling (hsteady : Steady true schedule thread first) (htime : first ≤ time) :
    ∃ later, time ≤ later ∧ ∃ waitTime,
      Looping ((Loop.machine Thread Source true).states schedule later) thread
        (.polling waitTime) := by
  by_contra hnone
  obtain ⟨tested, htested, now, htakes⟩ :=
    hsteady.tests htime fun later hlater phase hlooping => by
      cases phase with
      | polling waitTime => exact absurd ⟨later, hlater, waitTime, hlooping⟩ hnone
      | testing | timers | dispatching | handling => rfl
  obtain ⟨hbegun, _⟩ := begins_of_test hsteady (htime.trans htested) htakes
  obtain ⟨later, hlater, hpolling⟩ := exists_polling_of_pass hsteady (by omega) hbegun
  exact hnone ⟨later + 1, by omega, hpolling⟩

/-- Nothing was reported of the descriptor since then. -/
def Unannounced (schedule : Nat → Option (Action Thread Source)) (thread : Thread) (fd : Int)
    (time later : Nat) : Prop :=
  ∀ earlier, time ≤ earlier → earlier < later →
    ¬ (Loop.machine Thread Source true).Acts schedule (Announces thread fd) earlier

theorem ready_states (hsteady : Steady true schedule thread first) (htime : first ≤ time)
    (hready : Ready ((Loop.machine Thread Source true).states schedule time) fd source)
    (hretains : ∀ later, time ≤ later → Unannounced schedule thread fd time later → ∀ action,
      (Loop.machine Thread Source true).Takes schedule later action → Retains fd action)
    (later : Nat) (hlater : time ≤ later)
    (hunannounced : Unannounced schedule thread fd time later) :
    Ready ((Loop.machine Thread Source true).states schedule later) fd source := by
  induction later, hlater using Nat.le_induction with
  | base => exact hready
  | succ later hlater ih =>
      have hbefore : Unannounced schedule thread fd time later :=
        fun earlier hearlier hless => hunannounced earlier hearlier (Nat.lt_succ_of_lt hless)
      rcases Machine.takes_or_rests (Loop.machine Thread Source true) schedule later with
        ⟨action, htakes⟩ | ⟨_, hrests⟩
      · refine (ih hbefore).moves (hretains later hlater hbefore action htakes) ?_
          (moves_of_step htakes.2)
        rintro other ⟨entries, rfl, hmem⟩
        obtain ⟨phase, hlooping, _⟩ := hsteady.stands later (htime.trans hlater)
        obtain rfl := hlooping.eq_of_move htakes.2
        exact hunannounced later hlater (Nat.lt_succ_self _) ⟨_, ⟨entries, rfl, hmem⟩, htakes⟩
      · rw [hrests]
        exact ih hbefore

omit [DecidableEq Thread] in
theorem enabled_announces [DecidableEq Thread] {opened : Bool} {waitTime : Int}
    (hlooping : Looping state thread (.polling waitTime)) (hready : fd ∈ state.ready) :
    (Loop.machine Thread Source opened).Enabled (Announces thread fd) state := by
  have hreports : Reports state.ready [(fd, 0)] :=
    ⟨by simp, by simp [Poller.maxEvents], by simp, by simpa using hready⟩
  refine ⟨.move thread (.wake [(fd, 0)]), ⟨_, rfl, by simp⟩, ?_⟩
  simpa [Loop.machine, Loop.step, hlooping.frames, Loop.walk] using hreports

theorem not_enabled_of_not_ready {opened : Bool} (hready : fd ∉ state.ready) :
    ¬ (Loop.machine Thread Source opened).Enabled (Announces thread fd) state := by
  rintro ⟨_, ⟨entries, rfl, hmem⟩, hsome⟩
  obtain ⟨next, hstep⟩ : ∃ next, step state (.move thread (.wake entries)) = some next :=
    Option.isSome_iff_exists.mp hsome
  have hmoves := moves_of_step hstep
  cases hmoves with
  | walks _ _ _ _ _ _ _ hwalks =>
      cases hwalks with
      | wakes _ _ hreports =>
          obtain ⟨entry, hentry, rfl⟩ := List.mem_map.mp hmem
          exact hready (hreports.2.2.2 entry hentry)

/-- A descriptor that stays ready is reported. -/
theorem exists_announced (hsteady : Steady true schedule thread first) (htime : first ≤ time)
    (hkernel : (Loop.machine Thread Source true).StronglyFair schedule (Announces thread fd))
    (hready : Ready ((Loop.machine Thread Source true).states schedule time) fd source)
    (hretains : ∀ later, time ≤ later → Unannounced schedule thread fd time later → ∀ action,
      (Loop.machine Thread Source true).Takes schedule later action → Retains fd action) :
    ∃ later, time ≤ later ∧
      (Loop.machine Thread Source true).Acts schedule (Announces thread fd) later := by
  by_contra hnone
  have hnever : ∀ later, Unannounced schedule thread fd time later :=
    fun later earlier hearlier _ hacts => hnone ⟨earlier, hearlier, hacts⟩
  -- it is ready at every wait, and could be reported there
  have hagain : ∃ᶠ later in atTop, (Loop.machine Thread Source true).Enabled
      (Announces thread fd) ((Loop.machine Thread Source true).states schedule later) := by
    refine frequently_atTop.mpr fun start => ?_
    have hlatest : first ≤ max first (max time start) := le_max_left _ _
    obtain ⟨later, hlater, waitTime, hpolling⟩ := exists_polling hsteady hlatest
    have hlate : time ≤ later ∧ start ≤ later := by omega
    have hstill := ready_states hsteady htime hready hretains later hlate.1 (hnever later)
    exact ⟨later, hlate.2, enabled_announces hpolling hstill.ready⟩
  obtain ⟨later, hacts, hlater⟩ :=
    ((hkernel hagain).and_eventually (eventually_ge_atTop time)).exists
  exact hnone ⟨later, hlater, hacts⟩

/-- An event of the source is in the batch the thread works off. -/
def Collected (state : State Thread Source) (thread : Thread) (source : Source) : Prop :=
  ∃ phase events, Looping state thread phase ∧ ⟨source, events⟩ ∈ phase.batch

/-- The handler of the source is called. -/
def Handles (schedule : Nat → Option (Action Thread Source)) (thread : Thread) (source : Source)
    (time : Nat) : Prop :=
  (Loop.machine Thread Source true).Takes schedule time (.move thread .dispatch) ∧
    ∃ events rest, ((Loop.machine Thread Source true).states schedule time).frames thread =
      [.dispatching (⟨source, events⟩ :: rest)]

/-- What was reported of a registered descriptor is collected. -/
theorem collected_of_announced (hsteady : Steady true schedule thread first)
    (htime : first ≤ time)
    (hready : Ready ((Loop.machine Thread Source true).states schedule time) fd source)
    (hacts : (Loop.machine Thread Source true).Acts schedule (Announces thread fd) time) :
    Collected ((Loop.machine Thread Source true).states schedule (time + 1)) thread source := by
  obtain ⟨_, ⟨entries, rfl, hmem⟩, htakes⟩ := hacts
  obtain ⟨phase, hlooping, -⟩ := hsteady.stands time htime
  rcases step_cases hsteady htime hlooping with
    ⟨_, hidles⟩ | ⟨move, middle, later, htaken, hwalk, hnext, hlater⟩
  · exact absurd htakes (hidles.idle _)
  · obtain rfl : .wake entries = move := by simpa using htaken.unique htakes
    have hwalks := walks_of_walk hwalk
    cases hwalks with
    | wakes waitTime _ _ =>
        obtain ⟨⟨_, mask⟩, hentry, rfl⟩ := List.mem_map.mp hmem
        refine ⟨_, fromEpollEvents mask, hlater, List.mem_filterMap.mpr ⟨_, hentry, ?_⟩⟩
        simp [hready.source]

/-- The thread works off its batch. -/
theorem Collected.step (hsteady : Steady true schedule thread first) (htime : first ≤ time)
    (hcollected : Collected ((Loop.machine Thread Source true).states schedule time) thread
      source) :
    Collected ((Loop.machine Thread Source true).states schedule (time + 1)) thread source ∨
      Handles schedule thread source time := by
  obtain ⟨phase, events, hlooping, hmem⟩ := hcollected
  rcases step_cases hsteady htime hlooping with
    ⟨hnext, _⟩ | ⟨move, middle, later, htakes, hwalk, _, hlater⟩
  · exact Or.inl ⟨phase, events, hnext, hmem⟩
  · have hwalks := walks_of_walk hwalk
    cases hwalks with
    | dispatches event rest =>
        rcases List.mem_cons.mp hmem with rfl | hrest
        · exact Or.inr ⟨htakes, events, rest, hlooping.frames⟩
        · exact Or.inl ⟨_, events, hlater, hrest⟩
    | handled batch => exact Or.inl ⟨_, events, hlater, hmem⟩
    | enters | examines | erases | polls | fails | wakes | expires | interrupts | next =>
        exact absurd hmem List.not_mem_nil

theorem Collected.handles (hsteady : Steady true schedule thread first) (htime : first ≤ time)
    (hcollected : Collected ((Loop.machine Thread Source true).states schedule time) thread
      source) :
    ∃ later, time ≤ later ∧ Handles schedule thread source later := by
  refine hsteady.leads
    (fun now => Collected ((Loop.machine Thread Source true).states schedule now) thread source)
    _ (fun now hnow hcollected => ?_) (fun now _ ⟨phase, events, hlooping, hmem⟩ => ?_)
    htime hcollected
  · refine (hcollected.step hsteady hnow).imp_left fun hnext => ⟨hnext, fun reading htakes => ?_⟩
    obtain ⟨phase, events, hlooping, hmem⟩ := hcollected
    obtain rfl := hlooping.testing htakes.2
    exact List.not_mem_nil hmem
  · refine ⟨phase, hlooping, ?_⟩
    cases phase with
    | polling waitTime => exact absurd hmem List.not_mem_nil
    | testing | timers | dispatching | handling => rfl

/-- Ready descriptors are handled. When a thread is alone in the loop, nobody
disturbs it, and the kernel does not overlook the descriptor for ever, the
handler of a registered source is called, unless the descriptor is deleted or
its readiness withdrawn before it is reported. -/
theorem event_handled (schedule : Nat → Option (Action Thread Source))
    (hsteady : Steady true schedule thread first) (htime : first ≤ time)
    (hkernel : (Loop.machine Thread Source true).StronglyFair schedule (Announces thread fd))
    (hready : Ready ((Loop.machine Thread Source true).states schedule time) fd source)
    (hretains : ∀ later, time ≤ later → Unannounced schedule thread fd time later → ∀ action,
      (Loop.machine Thread Source true).Takes schedule later action → Retains fd action) :
    ∃ later, time ≤ later ∧ Handles schedule thread source later := by
  classical
  have hannounced := exists_announced hsteady htime hkernel hready hretains
  -- at the first report the descriptor is still registered
  obtain ⟨hreported, hacts⟩ := Nat.find_spec hannounced
  have hunannounced : Unannounced schedule thread fd time (Nat.find hannounced) :=
    fun earlier hearlier hless hacts => Nat.find_min hannounced hless ⟨hearlier, hacts⟩
  have hstill := ready_states hsteady htime hready hretains _ hreported hunannounced
  have hcollected := collected_of_announced hsteady (htime.trans hreported) hstill hacts
  obtain ⟨later, hlater, hhandles⟩ := hcollected.handles hsteady (by omega)
  exact ⟨later, by omega, hhandles⟩

end Events

/-- A registered descriptor becomes ready while the loop waits for it. -/
def visit (time : Nat) : Option (Loop.Action Unit Unit) :=
  ([.call () (.register (some ()) 5 EventType.read false), .run ()] ++
    [.move () (.test 0), .move () .poll, .arrive 5, .move () (.wake [(5, Epoll.epollIn)]),
      .move () .dispatch, .move () .handled, .move () .next, .move () (.test 0),
      .move () .poll])[time]?

theorem event_handled_visit : ∃ later, 5 ≤ later ∧ Handles visit () () later := by
  have hsilent : ∀ time, 11 ≤ time → visit time = none := fun time htime =>
    List.getElem?_eq_none htime
  have hmoves : ∀ time action, 2 ≤ time → (Loop.machine Unit Unit true).Takes visit time action →
      action = .arrive 5 ∨ ∃ move, action = .move () move ∧ move ≠ .throws := by
    rintro time action htime ⟨hschedule, -⟩
    rw [visit, List.getElem?_append_right htime] at hschedule
    have hmem := List.mem_of_getElem? hschedule
    simp only [List.mem_cons, List.not_mem_nil, or_false] at hmem
    rcases hmem with rfl | rfl | rfl | rfl | rfl | rfl | rfl | rfl | rfl <;> simp
  have hsteady : Steady true visit () 2 :=
    { begins := ⟨.testing, ⟨rfl, rfl, nofun⟩, by simp⟩
      calm := fun time htime action htakes => by
        obtain rfl | ⟨move, rfl, hthrows⟩ := hmoves time action htime htakes
        · exact ⟨by simp, by simp, by simp⟩
        · exact ⟨by simp, by simpa using hthrows, by simp⟩
      fair := Machine.fair_of_silent hsilent
        (not_enabled_of_unlimited ⟨rfl, rfl, nofun⟩ (by decide)) }
  have hready : Ready ((Loop.machine Unit Unit true).states visit 5) 5 () := ⟨by decide, rfl, rfl⟩
  refine event_handled visit hsteady (by decide) ?_ hready ?_
  · apply Machine.stronglyFair_of_silent hsilent
    exact not_enabled_of_not_ready (by decide)
  · intro later hlater _ action htakes
    obtain rfl | ⟨move, rfl, -⟩ := hmoves later action (by omega) htakes
    · exact ⟨by simp, by simp⟩
    · exact ⟨by simp, by simp⟩

end Tang.EventLoop.Handling
