import Mathlib.Data.List.Forall2
import Tang.EventLoop.Dispatch

/-! # What becomes of a reported condition

The kernel reports errors and hang-ups whether they were asked for or not. The
translation has no flag for a hang-up, so an entry that reports nothing else
reaches its handler as an event without conditions; edge-triggered, it is not
reported again.
-/

namespace Tang.EventLoop

namespace Epoll

def epollHup : Mask := 0x10

end Epoll

namespace Conditions

open Foundation Epoll Loop

variable {Thread Source : Type}

/-- What the kernel can report of a descriptor. -/
structure Readiness where
  readable : Bool
  writable : Bool
  failed : Bool
  hungUp : Bool
  deriving DecidableEq

/-- The `events` of a `struct epoll_event`. -/
def Readiness.mask (readiness : Readiness) : Mask :=
  (if readiness.readable then epollIn else 0) ||| (if readiness.writable then epollOut else 0) |||
    (if readiness.failed then epollErr else 0) ||| (if readiness.hungUp then epollHup else 0)

/-- A mask the kernel reports: it has some of the four flags, and no other. -/
def Reported (mask : Mask) : Prop :=
  mask ≠ 0 ∧ ∃ readiness : Readiness, mask = readiness.mask

/-- An event goes to the source of the descriptor, with some condition. -/
def Carries (poller : Poller Source) (entry : Int × Mask) (event : Event Source) : Prop :=
  poller.sources entry.1 = some event.source ∧ event.events ≠ 0

/-- The batch has one event for each entry with a registered descriptor, in the
order of the entries. -/
def Delivers (poller : Poller Source) (entries : List (Int × Mask)) : Prop :=
  List.Forall₂ (Carries poller) (entries.filter fun entry => (poller.sources entry.1).isSome)
    (poller.collect entries)

/-- No registered descriptor is reported for a hang-up and nothing else. -/
def NoLoneHangUp (poller : Poller Source) (entries : List (Int × Mask)) : Prop :=
  ∀ entry ∈ entries, (poller.sources entry.1).isSome → entry.2 ≠ epollHup

/-- Only the hang-up is translated to nothing. -/
theorem fromEpollEvents_eq_zero_iff {mask : Mask} (hreported : Reported mask) :
    fromEpollEvents mask = 0 ↔ mask = epollHup := by
  obtain ⟨hmask, ⟨readable, writable, failed, hungUp⟩, rfl⟩ := hreported
  -- fifteen masks are left
  revert hmask
  revert readable writable failed hungUp
  decide

/-- A batch reaches the handlers with its conditions exactly if no registered
entry is a lone hang-up. -/
theorem delivers_iff (poller : Poller Source) (entries : List (Int × Mask))
    (hreported : ∀ entry ∈ entries, Reported entry.2) :
    Delivers poller entries ↔ NoLoneHangUp poller entries := by
  induction entries with
  | nil => exact iff_of_true .nil fun _ hentry => absurd hentry List.not_mem_nil
  | cons entry rest ih =>
      have hrest := ih fun other hother => hreported other (List.mem_cons_of_mem _ hother)
      have hhead := fromEpollEvents_eq_zero_iff (hreported entry List.mem_cons_self)
      unfold Delivers NoLoneHangUp Poller.collect at hrest ⊢
      rw [List.forall_mem_cons]
      -- an entry without a source is in neither list
      cases hsource : poller.sources entry.1 with
      | none => simpa [hsource] using hrest
      | some source =>
          rw [List.filter_cons_of_pos (by simp [hsource]),
            List.filterMap_cons_some (by rw [hsource, Option.map_some]), List.forall₂_cons]
          refine and_congr ?_ hrest
          simpa [Carries, hsource] using not_congr hhead

/-- A readable descriptor, and one that is not registered. -/
theorem delivers_iff_readable :
    let poller : Poller Unit := ⟨true, Function.update (fun _ => none) 3 (some ()),
      Function.update (fun _ => none) 3 (some (toEpollEvents EventType.read))⟩
    Delivers poller [(3, epollIn), (4, epollHup)] ↔
      NoLoneHangUp poller [(3, epollIn), (4, epollHup)] := by
  refine delivers_iff _ _ fun entry hentry => ?_
  rcases List.mem_cons.mp hentry with rfl | htail
  · exact ⟨by decide, ⟨true, false, false, false⟩, by decide⟩
  · obtain rfl := List.mem_singleton.mp htail
    exact ⟨by decide, ⟨false, false, false, true⟩, by decide⟩

/-- A peer hung up: the entry becomes an event without conditions. -/
theorem not_delivers_hangUp :
    let poller : Poller Unit :=
      ((Poller.create true).registerEvent (some ()) 3 EventType.read false).1
    Reported epollHup ∧ poller.collect [(3, epollHup)] = [⟨(), 0⟩] ∧
      ¬ Delivers poller [(3, epollHup)] := by
  intro poller
  have hreported : Reported epollHup := ⟨by decide, ⟨false, false, false, true⟩, by decide⟩
  have hcollect : poller.collect [(3, epollHup)] = [⟨(), 0⟩] := by decide
  refine ⟨hreported, hcollect, fun hdelivers => ?_⟩
  unfold Delivers at hdelivers
  rw [hcollect] at hdelivers
  obtain ⟨_, _, hcarries, _⟩ := List.forall₂_cons_right_iff.mp hdelivers
  exact hcarries.2 rfl

/-! ## What the handlers are told -/

/-- The event a step hands to `on_event`. -/
def handed (state : State Thread Source) : Action Thread Source → Option (Event Source)
  | .move thread .dispatch =>
      match state.frames thread with
      | .dispatching (event :: _) :: _ => some event
      | _ => none
  | _ => none

/-- What the kernel reports in this step is no lone hang-up. -/
def Informative (state : State Thread Source) (action : Action Thread Source) : Prop :=
  ∀ thread entries, action = .move thread (.wake entries) →
    (∀ entry ∈ entries, Reported entry.2) ∧ NoLoneHangUp state.poller entries

/-- A handler that is called is told of some condition. -/
def Informed (state : State Thread Source) (action : Action Thread Source)
    (_ : State Thread Source) : Prop :=
  ∀ event, handed state action = some event → event.events ≠ 0

/-- Every event that waits to be dispatched has a condition. -/
def Pending (state : State Thread Source) : Prop :=
  ∀ thread, ∀ phase ∈ state.frames thread, ∀ event ∈ phase.batch, event.events ≠ 0

section Runs

variable {state next middle : State Thread Source} {action : Action Thread Source}

theorem collect_conditions {poller : Poller Source} {entries : List (Int × Mask)}
    (hreported : ∀ entry ∈ entries, Reported entry.2) (hheard : NoLoneHangUp poller entries) :
    ∀ event ∈ poller.collect entries, event.events ≠ 0 := by
  intro event hevent
  obtain ⟨entry, hentry, hmap⟩ := List.mem_filterMap.mp hevent
  obtain ⟨source, hsource, rfl⟩ := Option.map_eq_some_iff.mp hmap
  intro hzero
  exact hheard entry hentry (by simp [hsource])
    ((fromEpollEvents_eq_zero_iff (hreported entry hentry)).mp hzero)

/-- An event that is handed over waited to be dispatched. -/
theorem mem_batch_of_handed {event : Event Source} (hhanded : handed state action = some event) :
    ∃ thread, ∃ phase ∈ state.frames thread, event ∈ phase.batch := by
  unfold handed at hhanded
  split at hhanded
  next thread =>
    split at hhanded
    next first rest callers hframes =>
      cases hhanded
      exact ⟨thread, _, hframes ▸ List.mem_cons_self, List.mem_cons_self⟩
    next => cases hhanded
  next => cases hhanded

variable [DecidableEq Thread]

theorem Pending.setFrames (hpending : Pending state) (hframes : middle.frames = state.frames)
    {thread : Thread} {frames : List (Phase Source)}
    (hnew : ∀ phase ∈ frames, ∀ event ∈ phase.batch, event.events ≠ 0) :
    Pending (middle.setFrames thread frames) := by
  intro other phase hphase
  rcases State.mem_setFrames hphase with ⟨_, hmem⟩ | hold
  · exact hnew phase hmem
  · rw [hframes] at hold
    exact hpending other phase hold

/-- A step inside `run` puts only events with conditions in a batch. -/
theorem Pending.walks (hpending : Pending state) (hinformative : Informative state action)
    {thread : Thread} {move : Move} {phase : Phase Source} {callers : List (Phase Source)}
    {later : Option (Phase Source)} (haction : action = .move thread move)
    (hframes : state.frames thread = phase :: callers)
    (hwalks : Walks state phase move middle later) :
    Pending (middle.setFrames thread (later.toList ++ callers)) := by
  have hphase : ∀ event ∈ phase.batch, event.events ≠ 0 :=
    hpending thread phase (hframes ▸ List.mem_cons_self)
  refine hpending.setFrames hwalks.frame.2.2 fun other hother => ?_
  rcases List.mem_append.mp hother with hlater | hcaller
  · have hsome : other ∈ later := by simpa using hlater
    cases hwalks with
    | wakes waitTime entries _ =>
        obtain rfl := Option.some.inj hsome
        obtain ⟨hreported, hheard⟩ := hinformative thread entries haction
        exact collect_conditions hreported hheard
    | dispatches first rest =>
        obtain rfl := Option.some.inj hsome
        exact fun event hevent => hphase event (List.mem_cons_of_mem first hevent)
    | handled batch =>
        obtain rfl := Option.some.inj hsome
        exact hphase
    | leaves | throws => cases hsome
    | _ =>
        obtain rfl := Option.some.inj hsome
        exact fun _ hevent => absurd hevent List.not_mem_nil
  · exact hpending thread other (hframes ▸ List.mem_cons_of_mem _ hcaller)

theorem pending_step (hpending : Pending state) (hinformative : Informative state action)
    (hstep : step state action = some next) : Pending next := by
  have hmoves := moves_of_step hstep
  cases hmoves with
  | calls thread call next _ hperform =>
      intro other phase hphase
      exact hpending other phase (State.perform_frames hperform ▸ hphase)
  | returnsAtOnce | arrives | withdraws => exact hpending
  | starts thread _ _ =>
      refine hpending.setFrames rfl fun phase hphase => ?_
      rcases List.mem_cons.mp hphase with rfl | hold
      · exact fun _ hevent => absurd hevent List.not_mem_nil
      · exact hpending thread phase hold
  | walks thread move middle phase callers later hframes hwalks =>
      exact hpending.walks hinformative rfl hframes hwalks

/-- As long as the kernel reports no registered descriptor for a hang-up alone,
no handler is called without a condition. -/
theorem informed_throughout (opened : Bool) (actions : List (Action Thread Source))
    (hmeets : (Loop.machine Thread Source opened).Meets Informative
      (Loop.machine Thread Source opened).start actions) :
    (Loop.machine Thread Source opened).Throughout Informed
      (Loop.machine Thread Source opened).start actions := by
  apply Machine.throughout_of_meets Pending ?_ ?_ ?_ hmeets
  · exact fun _ _ _ hpending hinformative hstep => pending_step hpending hinformative hstep
  · intro state action next hpending _ _ event hevent
    obtain ⟨thread, phase, hphase, hbatch⟩ := mem_batch_of_handed hevent
    exact hpending thread phase hphase event hbatch
  · exact fun _ _ hphase => absurd hphase List.not_mem_nil

end Runs

end Conditions

end Tang.EventLoop
