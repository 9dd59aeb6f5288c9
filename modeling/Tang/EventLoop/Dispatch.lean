import Tang.Foundation.History
import Tang.EventLoop.Loop

/-! # Handlers and removed sources

The batch holds the sources that were registered when it was collected. What a
handler removes is still in it, so a removal stops the calls of a handler only
if the source is in no batch.
-/

namespace Tang.EventLoop.Dispatch

open Foundation Loop

variable {Thread Source : Type}

/-- The source whose `on_event` a step calls. -/
def called (state : State Thread Source) : Action Thread Source → Option Source
  | .move thread .dispatch =>
      match state.frames thread with
      | .dispatching (event :: _) :: _ => some event.source
      | _ => none
  | _ => none

/-- Some call of `run` still has an event of the source to dispatch. -/
def Batched (state : State Thread Source) (source : Source) : Prop :=
  ∃ thread, ∃ phase ∈ state.frames thread, ∃ event ∈ phase.batch, event.source = source

section Batches

variable {state next middle : State Thread Source} {source : Source} {move : Move}
  {phase : Phase Source} {later : Option (Phase Source)}

theorem Batched.congr (hframes : next.frames = state.frames) (hbatched : Batched next source) :
    Batched state source := by
  simpa only [Batched, hframes] using hbatched

/-- What a call of `run` has in its batch after a step, it had before, or it is
an event of a registered source. -/
theorem mem_batch_of_walks (hwalks : Walks state phase move middle later) {event : Event Source}
    (hevent : ∃ phase' ∈ later, event ∈ phase'.batch) :
    event ∈ phase.batch ∨ ∃ fd, state.poller.sources fd = some event.source := by
  obtain ⟨phase', hlater, hevent⟩ := hevent
  cases hwalks with
  | wakes waitTime entries _ =>
      obtain rfl := Option.some.inj hlater
      obtain ⟨entry, _, hsource⟩ := Poller.mem_collect hevent
      exact Or.inr ⟨entry.1, hsource⟩
  | dispatches first rest =>
      obtain rfl := Option.some.inj hlater
      exact Or.inl (List.mem_cons_of_mem first hevent)
  | handled batch =>
      obtain rfl := Option.some.inj hlater
      exact Or.inl hevent
  | leaves | throws => cases hlater
  | _ =>
      obtain rfl := Option.some.inj hlater
      exact absurd hevent List.not_mem_nil

/-- A dispatched event was in a batch. -/
theorem batched_of_called {action : Action Thread Source}
    (hcalled : called state action = some source) : Batched state source := by
  unfold called at hcalled
  split at hcalled
  next thread =>
    split at hcalled
    next event rest callers hframes =>
      exact ⟨thread, _, hframes ▸ List.mem_cons_self, event, List.mem_cons_self,
        Option.some.inj hcalled⟩
    next => cases hcalled
  next => cases hcalled

variable [DecidableEq Thread]

/-- A step inside `run` puts only registered sources in a batch. -/
theorem batched_of_walks {thread : Thread} {callers : List (Phase Source)}
    (hframes : state.frames thread = phase :: callers)
    (hwalks : Walks state phase move middle later)
    (hbatched : Batched (middle.setFrames thread (later.toList ++ callers)) source) :
    Batched state source ∨ ∃ fd, state.poller.sources fd = some source := by
  obtain ⟨other, phase', hphase, event, hevent, rfl⟩ := hbatched
  rcases State.mem_setFrames hphase with ⟨rfl, hnew⟩ | hold
  · rcases List.mem_append.mp hnew with hlater | hcaller
    · have hsome : phase' ∈ later := by simpa using hlater
      rcases mem_batch_of_walks hwalks ⟨phase', hsome, hevent⟩ with hold | hregistered
      · exact Or.inl ⟨other, phase, hframes ▸ List.mem_cons_self, event, hold, rfl⟩
      · exact Or.inr hregistered
    · exact Or.inl ⟨other, phase', hframes ▸ List.mem_cons_of_mem _ hcaller, event, hevent, rfl⟩
  · rw [hwalks.frame.2.2] at hold
    exact Or.inl ⟨other, phase', hold, event, hevent, rfl⟩

/-- A new call of `run` has no batch. -/
theorem batched_of_starts {thread : Thread}
    (hbatched : Batched ({ state with running := true }.setFrames thread
      (.testing :: state.frames thread)) source) : Batched state source := by
  obtain ⟨other, phase, hphase, event, hevent, rfl⟩ := hbatched
  rcases State.mem_setFrames hphase with ⟨rfl, hnew⟩ | hold
  · rcases List.mem_cons.mp hnew with rfl | hold
    · exact absurd hevent List.not_mem_nil
    · exact ⟨other, phase, hold, event, hevent, rfl⟩
  · exact ⟨other, phase, hold, event, hevent, rfl⟩

end Batches

/-- A step does not call `on_event` of a removed source. -/
def Respects (watched : State Thread Source × (Source → Bool)) (action : Action Thread Source)
    (_ : State Thread Source × (Source → Bool)) : Prop :=
  ∀ source, called watched.1 action = some source → watched.2 source = false

/-- A source is removed only when it is in no batch, and under no descriptor
other than the one it now has. -/
def Detaches (watched : State Thread Source × (Source → Bool)) : Action Thread Source → Prop
  | .call _ (.delete (some source) fd fails) =>
      (watched.1.poller.deleteEvent (some source) fd fails).2 →
        ¬ Batched watched.1 source ∧
          ∀ other, watched.1.poller.sources other = some source → other = fd
  | _ => True

/-- A removed source is neither in a batch nor registered. -/
def Inv (watched : State Thread Source × (Source → Bool)) : Prop :=
  ∀ source, watched.2 source = true →
    ¬ Batched watched.1 source ∧ ∀ fd, watched.1.poller.sources fd ≠ some source

variable {state next : State Thread Source} {removed : Source → Bool}
  {action : Action Thread Source}

namespace Inv

/-- Nothing is recorded, nothing registered, and only registered sources are
collected. -/
theorem of_sources (hinv : Inv (state, removed))
    (hsources : next.poller.sources = state.poller.sources)
    (hbatched : ∀ source, Batched next source →
      Batched state source ∨ ∃ fd, state.poller.sources fd = some source) :
    Inv (next, removed) := by
  intro source hremoved
  obtain ⟨hnot, hunregistered⟩ := hinv source hremoved
  refine ⟨fun hnext => ?_, hsources ▸ hunregistered⟩
  rcases hbatched source hnext with hold | ⟨fd, hfd⟩
  · exact hnot hold
  · exact hunregistered fd hfd

/-- The calls of `run` and the registrations are left alone. -/
theorem of_frames (hinv : Inv (state, removed)) (hframes : next.frames = state.frames)
    (hsources : next.poller.sources = state.poller.sources) : Inv (next, removed) :=
  hinv.of_sources hsources fun _ hbatched => Or.inl (hbatched.congr hframes)

end Inv

variable [DecidableEq Source]

/-- Which sources have been removed by `delete_event`, and not registered since. -/
def record (removed : Source → Bool) (state : State Thread Source)
    (action : Action Thread Source) (_ : State Thread Source) : Source → Bool :=
  match action with
  | .call _ (.register (some source) fd events fails) =>
      if (state.poller.registerEvent (some source) fd events fails).2 then
        Function.update removed source false
      else removed
  | .call _ (.delete (some source) fd fails) =>
      if (state.poller.deleteEvent (some source) fd fails).2 then
        Function.update removed source true
      else removed
  | .call _ _ | .run _ | .move _ _ | .arrive _ | .withdraw _ => removed

/-- The event loop with the record. -/
def recorded (Thread Source : Type) [DecidableEq Thread] [DecidableEq Source] (opened : Bool) :
    Machine (State Thread Source × (Source → Bool)) (Action Thread Source) :=
  (Loop.machine Thread Source opened).recording (fun _ => false) record

namespace Inv

theorem register (hinv : Inv (state, removed)) {interest : Interest} (source : Source)
    (fd : Int) :
    Inv ({ state with poller := { state.poller with
        interest := interest, sources := Function.update state.poller.sources fd source } },
      Function.update removed source false) := by
  intro other hremoved
  have hother : other ≠ source := by
    rintro rfl
    simp at hremoved
  dsimp only at hremoved
  rw [Function.update_of_ne hother] at hremoved
  obtain ⟨hnot, hunregistered⟩ := hinv other hremoved
  refine ⟨fun hbatched => hnot (hbatched.congr rfl), fun place hplace => ?_⟩
  by_cases hfd : place = fd
  · subst hfd
    exact hother (by simpa using hplace.symm)
  · exact hunregistered place (by simpa [hfd] using hplace)

theorem delete (hinv : Inv (state, removed)) {interest : Interest} {ready : List Int}
    (source : Source) (fd : Int) (hnot : ¬ Batched state source)
    (honly : ∀ other, state.poller.sources other = some source → other = fd) :
    Inv ({ state with
        poller := { state.poller with
          interest := interest, sources := Function.update state.poller.sources fd none }
        ready := ready },
      Function.update removed source true) := by
  intro other hremoved
  by_cases hother : other = source
  · subst hother
    refine ⟨fun hbatched => hnot (hbatched.congr rfl), fun place hplace => ?_⟩
    by_cases hfd : place = fd
    · simp [hfd] at hplace
    · exact hfd (honly place (by simpa [hfd] using hplace))
  · dsimp only at hremoved
    rw [Function.update_of_ne hother] at hremoved
    obtain ⟨hunbatched, hunregistered⟩ := hinv other hremoved
    refine ⟨fun hbatched => hunbatched (hbatched.congr rfl), fun place hplace => ?_⟩
    by_cases hfd : place = fd
    · simp [hfd] at hplace
    · exact hunregistered place (by simpa [hfd] using hplace)

/-- A call of code, with what is recorded of it. -/
theorem call (hinv : Inv (state, removed)) {thread : Thread} {call : Call Source}
    (hdetaches : Detaches (state, removed) (.call thread call))
    (hperform : state.perform call = some next) :
    Inv (next, record removed state (.call thread call) next) := by
  cases call with
  | stop =>
      cases hperform
      exact hinv.of_frames rfl rfl
  | timer op =>
      obtain ⟨table, _, rfl⟩ := Option.map_eq_some_iff.mp hperform
      exact hinv.of_frames rfl rfl
  | register source fd events fails =>
      simp only [State.perform, Option.some.injEq] at hperform
      subst hperform
      cases source with
      | none => exact hinv.of_frames rfl rfl
      | some source =>
          rcases state.poller.registerEvent_cases (some source) fd events fails with
            hfailed | ⟨_, hdone⟩
          · simp only [record, hfailed, Bool.false_eq_true, if_false]
            exact hinv.of_frames rfl rfl
          · simp only [record, hdone, if_true]
            exact hinv.register source fd
  | modify source fd events fails =>
      simp only [State.perform, Option.some.injEq] at hperform
      subst hperform
      rcases state.poller.modifyEvent_cases source fd events fails with
        hfailed | ⟨_, hdone⟩
      · simp only [record, hfailed]
        exact hinv.of_frames rfl rfl
      · simp only [record, hdone]
        exact hinv.of_frames rfl rfl
  | delete source fd fails =>
      simp only [State.perform, Option.some.injEq] at hperform
      subst hperform
      cases source with
      | none => exact hinv.of_frames rfl rfl
      | some source =>
          rcases state.poller.deleteEvent_cases (some source) fd fails with
            hfailed | hdone
          · simp only [record, hfailed, Bool.false_eq_true, if_false]
            exact hinv.of_frames rfl rfl
          · obtain ⟨hnot, honly⟩ := hdetaches (by rw [hdone])
            simp only [record, hdone, if_true]
            exact hinv.delete source fd hnot honly

end Inv

variable [DecidableEq Thread]

theorem inv_step {opened : Bool} {watched after : State Thread Source × (Source → Bool)}
    (hinv : Inv watched) (hdetaches : Detaches watched action)
    (hstep : (recorded Thread Source opened).step watched action = some after) : Inv after := by
  obtain ⟨state, removed⟩ := watched
  obtain ⟨next, later⟩ := after
  obtain ⟨hmachine, hrecord⟩ := Machine.recording_step hstep
  have hmoves := moves_of_step hmachine
  dsimp only at hmoves hrecord
  subst hrecord
  cases hmoves with
  | calls thread call next _ hperform => exact hinv.call hdetaches hperform
  | returnsAtOnce => exact hinv
  | starts thread _ _ =>
      exact hinv.of_sources rfl fun _ hbatched => Or.inl (batched_of_starts hbatched)
  | walks thread move middle phase callers later hframes hwalks =>
      have hsources : middle.poller.sources = state.poller.sources := by rw [hwalks.frame.2.1]
      exact hinv.of_sources hsources fun _ hbatched => batched_of_walks hframes hwalks hbatched
  | arrives fd _ => exact hinv.of_frames rfl rfl
  | withdraws fd => exact hinv.of_frames rfl rfl

/-- As long as sources are removed only when they are in no batch, no handler of
a removed source is called. -/
theorem respects_of_detaches (opened : Bool) (actions : List (Action Thread Source))
    (hmeets : (recorded Thread Source opened).Meets Detaches (recorded Thread Source opened).start
      actions) :
    (recorded Thread Source opened).Throughout Respects (recorded Thread Source opened).start
      actions := by
  refine Machine.throughout_of_meets Inv
    (fun _ _ _ hinv hdetaches hstep => inv_step hinv hdetaches hstep) ?_ ?_ hmeets
  · intro watched action next hinv _ _ source hcalled
    by_contra hremoved
    exact (hinv source (Bool.of_not_eq_false hremoved)).1 (batched_of_called hcalled)
  · intro source hremoved
    cases hremoved

/-- A handler removes its own source once its batch is done. -/
theorem respects_of_detaches_self :
    (recorded Unit Bool true).Throughout Respects (recorded Unit Bool true).start
      [.call () (.register (some false) 5 1 false), .run (), .move () (.test 0), .move () .poll,
        .arrive 5, .move () (.wake [(5, 1)]), .move () .dispatch,
        .call () (.delete (some false) 5 false), .move () .handled, .move () .next] := by
  apply respects_of_detaches true _
  iterate 7 refine Machine.Meets.cons rfl trivial ?_
  refine Machine.Meets.cons rfl (fun _ => ⟨?_, ?_⟩) ?_
  · rintro ⟨_, phase, hphase, event, hevent, _⟩
    obtain rfl := List.mem_singleton.mp hphase
    exact List.not_mem_nil hevent
  · intro other hother
    have hsources : Function.update (fun _ => none) 5 (some false) other = some false := hother
    by_contra hne
    simp [hne] at hsources
  · exact Machine.Meets.cons rfl trivial (Machine.Meets.cons rfl trivial trivial)

/-- The handler of the first source of a batch removes the second one. -/
def removingHandler : List (Loop.Action Unit Bool) :=
  [.call () (.register (some false) 5 1 false), .call () (.register (some true) 6 1 false),
    .run (), .move () (.test 0), .move () .poll, .arrive 5, .arrive 6,
    .move () (.wake [(5, 1), (6, 1)]), .move () .dispatch,
    .call () (.delete (some true) 6 false), .move () .handled]

/-- The handler of the removed source is called next. -/
theorem not_respects_removingHandler :
    ¬ (recorded Unit Bool true).Throughout Respects (recorded Unit Bool true).start
      (removingHandler ++ [.move () .dispatch]) := by
  intro hrespects
  have hlast := Machine.Throughout.last removingHandler hrespects rfl rfl
  exact absurd (hlast true rfl) (by decide)

end Tang.EventLoop.Dispatch
