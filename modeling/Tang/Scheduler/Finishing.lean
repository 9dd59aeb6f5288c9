import Tang.Scheduler.Service

/-! # Queued coroutines come to their end

The loop that resumes a coroutine schedules it again when it has suspended
without being done. So a coroutine which is not in the queue is with the party
that resumes it, and from there it gets back to the queue or ends. The push
waits for `queue_mutex_`, which others take again and again: it needs a mutex
that passes nobody over for ever.
-/

namespace Tang.Scheduler

/-- The steps of a worker in its critical section. -/
def WorkerStage.hold : WorkerStage → Nat
  | .evaluating => 2
  | .parking | .taking => 1
  | _ => 0

namespace Service

open Foundation Filter Joining Termination

variable {Worker Thread : Type} [DecidableEq Worker] [DecidableEq Thread]
  {state next : State Worker Thread} {action : Action Worker Thread}

/-! ## The mutex is free again and again -/

/-- A worker in its critical section stays there, goes on, or leaves it. -/
theorem hold_of_moves (hmoves : Moves state action next) {worker : Worker}
    (hholds : (state.workers worker).holds) :
    (next.workers worker = state.workers worker ∧ ∀ move, action ≠ .worker worker move) ∨
      next.owner = none ∨ (next.workers worker).holds ∧
        (next.workers worker).hold < (state.workers worker).hold := by
  have hfares := fares_of_moves hmoves worker
  generalize next.workers worker = later at hfares
  cases hfares with
  | stays _ hother => exact Or.inl ⟨rfl, hother⟩
  | woken _ hblocked => simp [hblocked, WorkerStage.holds] at hholds
  | works move middle _ hworks hnext =>
      have howner : next.owner = middle.owner := by rw [hnext]; rfl
      rw [howner]
      generalize state.workers worker = stage at hworks hholds ⊢
      cases hworks with
      | parks | passes => exact Or.inr (Or.inr ⟨rfl, by simp [WorkerStage.hold]⟩)
      | blocks | misses | pops | quits => exact Or.inr (Or.inl rfl)
      | enters | leaves | locks | relocks | stirs | returns | keeps | drops | ends | works =>
          cases hholds
  | spawned hunstarted => simp [hunstarted, WorkerStage.holds] at hholds
  | joined _ _ hworkers =>
      simp [WorkerStage.not_holds_of_joinable (hworkers worker)] at hholds

variable [Fintype Worker]

/-- Who can go on again and again does so, and every `handle.resume()` returns. -/
structure Promptly (schedule : Nat → Option (Action Worker Thread)) : Prop where
  parties : ∀ party, (machine Worker Thread).StronglyFair schedule (Own party)
  returns : ∀ party, ∃ᶠ time in atTop,
    body ((machine Worker Thread).states schedule time) party = none

variable {schedule : Nat → Option (Action Worker Thread)}

theorem Promptly.fairly (hpromptly : Promptly schedule) : Fairly schedule where
  parties := fun party => (hpromptly.parties party).fair
  returns := fun worker => hpromptly.returns (some worker)

theorem free_of_holds (hfairly : Fairly schedule) {worker : Worker} (time : Nat)
    (hholds : (((machine Worker Thread).states schedule time).workers worker).holds) :
    ∃ later, time ≤ later ∧ ((machine Worker Thread).states schedule later).owner = none := by
  induction hrank : (((machine Worker Thread).states schedule time).workers worker).hold
    using Nat.strong_induction_on generalizing time with
  | _ rank ih =>
    have hleads := Machine.Fair.leads
      (fun now => ((machine Worker Thread).states schedule now).workers worker =
        ((machine Worker Thread).states schedule time).workers worker)
      (fun now => ((machine Worker Thread).states schedule (now + 1)).owner = none ∨
        (((machine Worker Thread).states schedule (now + 1)).workers worker).holds ∧
          (((machine Worker Thread).states schedule (now + 1)).workers worker).hold < rank)
      (fun now hnow => ?_) (hfairly.parties (some worker))
      (fun now hnow => enabled_of_workerStep (hnow ▸ workerStep_of_holds hholds)) rfl
    · obtain ⟨later, hlater, hfree | ⟨hstill, hless⟩⟩ := hleads
      · exact ⟨later + 1, by omega, hfree⟩
      · obtain ⟨last, hlast, hfree⟩ := ih _ hless (later + 1) hstill rfl
        exact ⟨last, by omega, hfree⟩
    · rcases Machine.takes_or_rests (machine Worker Thread) schedule now with
        ⟨action, htakes⟩ | ⟨hidle, hrests⟩
      · have hmoved := hold_of_moves (moves_of_takes htakes) (hnow ▸ hholds)
        rw [hnow, hrank] at hmoved
        refine hmoved.imp_left fun ⟨hsame, hother⟩ => ⟨hsame, ?_⟩
        rintro ⟨_, ⟨move, _, _, rfl⟩, hacts⟩
        exact hother move (hacts.unique htakes)
      · exact Or.inl ⟨by rw [hrests]; exact hnow, hidle _⟩

/-- The mutex is free at some later time. -/
theorem exists_free (hmeets : (machine Worker Thread).MeetsAlways schedule Unstopping)
    (hfairly : Fairly schedule) (time : Nat) :
    ∃ later, time ≤ later ∧ ((machine Worker Thread).states schedule later).owner = none := by
  cases howner : ((machine Worker Thread).states schedule time).owner with
  | none => exact ⟨time, le_rfl, howner⟩
  | some worker =>
      exact free_of_holds hfairly time (((awake_states hmeets time).held worker).mpr howner)

/-! ## From the coroutine back to the queue -/

/-- Somebody stops to resume the coroutine, which is not done. -/
def Suspends (schedule : Nat → Option (Action Worker Thread)) (handle : Handle) (time : Nat) :
    Prop :=
  ∃ party, body ((machine Worker Thread).states schedule time) party = some handle ∧
    body ((machine Worker Thread).states schedule (time + 1)) party = none ∧
      ((machine Worker Thread).states schedule (time + 1)).done handle = false

/-- Who has resumed a coroutine looks whether it is done. -/
theorem resumed_of_body {party : Option Worker} {handle : Handle} {time : Nat}
    (hbody : body ((machine Worker Thread).states schedule time) party = some handle)
    (hleft : body ((machine Worker Thread).states schedule (time + 1)) party ≠ some handle) :
    round? ((machine Worker Thread).states schedule (time + 1)) party = some (.resumed handle) := by
  rw [body_eq_round] at hbody hleft
  obtain ⟨round, hround, hresuming⟩ := Option.bind_eq_some_iff.mp hbody
  cases round with
  | resuming other post =>
      obtain rfl : other = handle := Option.some.inj hresuming
      rcases round_of_states hround (by simp) with
        ⟨hsame, _⟩ | ⟨move, middle, later, hrounds, hlater, -⟩
      · exact absurd (by rw [hsame]; rfl) hleft
      · cases hrounds with
        | suspends | finishes => exact hlater
        | calls | posts => exact absurd (by rw [hlater]; rfl) hleft
  | ready | resumed | rescheduling | completing | decrementing | finished => cases hresuming

/-- Every `handle.resume()` returns. -/
theorem exists_return (hpromptly : Promptly schedule) {party : Option Worker} {handle : Handle}
    {time : Nat} (hbody : body ((machine Worker Thread).states schedule time) party = some handle) :
    ∃ later, time ≤ later ∧
      body ((machine Worker Thread).states schedule later) party = some handle ∧
      round? ((machine Worker Thread).states schedule (later + 1)) party =
        some (.resumed handle) := by
  by_contra hnever
  push Not at hnever
  have hforever : ∀ later, time ≤ later →
      body ((machine Worker Thread).states schedule later) party = some handle := by
    intro later hlater
    induction later, hlater using Nat.le_induction with
    | base => exact hbody
    | succ later hlater ih =>
        by_contra hleft
        exact hnever later hlater ih (resumed_of_body ih hleft)
  obtain ⟨later, hlater, hreturned⟩ := frequently_atTop.mp (hpromptly.returns party) time
  simp [hforever later hlater] at hreturned

/-- A party takes the next step of its round. -/
theorem round_leads (hfairly : Fairly schedule) {party : Option Worker} {round : Round}
    {time : Nat} (hround : round? ((machine Worker Thread).states schedule time) party = some round)
    (hgoes : ∀ state : State Worker Thread, (roundStep state round .go).isSome) :
    ∃ later, time ≤ later ∧ ∃ move middle after,
      Rounds ((machine Worker Thread).states schedule later) round move middle after ∧
        round? ((machine Worker Thread).states schedule (later + 1)) party = some after ∧
        ((machine Worker Thread).states schedule (later + 1)).queue = middle.queue ∧
        ((machine Worker Thread).states schedule (later + 1)).done = middle.done := by
  have hfinished : ∀ skipped, round ≠ .finished skipped := by
    rintro skipped rfl
    cases hgoes ((machine Worker Thread).states schedule time)
  exact Machine.Fair.leads
    (fun now => round? ((machine Worker Thread).states schedule now) party = some round) _
    (fun now hnow => round_of_states hnow hfinished) (hfairly.parties party)
    (fun now hnow => enabled_of_roundStep hnow (hgoes _)) hround

/-- A call of `schedule` at the push gets the mutex. -/
theorem queued_of_pushing (hmeets : (machine Worker Thread).MeetsAlways schedule Unstopping)
    (hpromptly : Promptly schedule) {party : Option Worker} {handle : Handle} {time : Nat}
    (hround : round? ((machine Worker Thread).states schedule time) party =
      some (.rescheduling (.pushing handle))) :
    ∃ later, time ≤ later ∧
      handle ∈ ((machine Worker Thread).states schedule (later + 1)).queue := by
  refine Machine.StronglyFair.leads
    (fun now => round? ((machine Worker Thread).states schedule now) party =
      some (.rescheduling (.pushing handle)))
    _ (fun now hnow => ?_) (hpromptly.parties party) (fun now hnow => ?_) hround
  · refine (round_of_states hnow (by simp)).imp_right ?_
    rintro ⟨move, middle, after, hrounds, -, hqueue, -⟩
    rw [hqueue]
    cases hrounds with
    | reposts _ _ _ _ hposts =>
        cases hposts with
        | pushes => simp
  · obtain ⟨later, hlater, hfree⟩ := exists_free hmeets hpromptly.fairly now
    obtain ⟨target, htarget⟩ := exists_notifies ((machine Worker Thread).states schedule later)
    refine ⟨later, hlater, fun hwaits => enabled_of_roundStep hwaits
      (?_ : (roundStep _ _ (.push target)).isSome)⟩
    simp [roundStep, postStep, hfree, htarget]

/-- A coroutine that has been resumed is done, or gets back to the queue. -/
theorem queued_of_resumed (hmeets : (machine Worker Thread).MeetsAlways schedule Unstopping)
    (hpromptly : Promptly schedule) {party : Option Worker} {handle : Handle} {time : Nat}
    (hround : round? ((machine Worker Thread).states schedule time) party =
      some (.resumed handle)) :
    ∃ later, time ≤ later ∧ (((machine Worker Thread).states schedule later).done handle ∨
      handle ∈ ((machine Worker Thread).states schedule later).queue) := by
  have hfairly := hpromptly.fairly
  obtain ⟨first, hfirst, _, _, _, hresumed, hchecking, -⟩ := round_leads hfairly hround fun state =>
    by simp only [roundStep]; split <;> rfl
  cases hresumed with
  | completes _ hdone => exact ⟨first, hfirst, Or.inl hdone⟩
  | reschedules =>
    obtain ⟨second, hsecond, _, _, _, hchecked, hcounting, -⟩ := round_leads hfairly hchecking
      fun state => by simp only [roundStep, postStep]; split <;> rfl
    cases hchecked with
    | reposts _ _ _ _ hposts =>
      cases hposts with
      | refuses _ hdone => exact ⟨second, by omega, Or.inl hdone⟩
      | admits =>
        obtain ⟨third, hthird, _, _, _, hcounted, hpushing, -⟩ := round_leads hfairly hcounting
          fun state => rfl
        cases hcounted with
        | reposts _ _ _ _ hposts =>
          cases hposts with
          | counts =>
            obtain ⟨later, hlater, hqueued⟩ := queued_of_pushing hmeets hpromptly hpushing
            exact ⟨later + 1, by omega, Or.inr hqueued⟩

/-! ## The end of a coroutine -/

/-- A queued coroutine is done, or suspends and is queued again. -/
theorem queued_again (hmeets : (machine Worker Thread).MeetsAlways schedule Unstopping)
    (hpromptly : Promptly schedule) {time : Nat} {handle : Handle} {worker : Worker}
    (hqueued : handle ∈ ((machine Worker Thread).states schedule time).queue)
    (hstarted : ((machine Worker Thread).states schedule time).workers worker ≠ .unstarted) :
    (∃ later, time ≤ later ∧ ((machine Worker Thread).states schedule later).done handle) ∨
      ∃ middle later, time ≤ middle ∧ middle < later ∧ Suspends schedule handle middle ∧
        handle ∈ ((machine Worker Thread).states schedule later).queue := by
  have hfairly := hpromptly.fairly
  obtain ⟨_, ready, hready, hround⟩ := ready_of_queued hmeets hfairly hqueued hstarted
  obtain ⟨first, hfirst, hdone | ⟨party, _, hbody⟩⟩ := resumes_of_ready hfairly hround
  · exact Or.inl ⟨first, by omega, hdone⟩
  obtain ⟨middle, hmiddle, hnow, hresumed⟩ := exists_return hpromptly hbody
  by_cases hdone : ((machine Worker Thread).states schedule (middle + 1)).done handle
  · exact Or.inl ⟨middle + 1, by omega, hdone⟩
  have hsuspends : Suspends schedule handle middle :=
    ⟨party, hnow, by rw [body_eq_round, hresumed]; rfl, by simpa using hdone⟩
  obtain ⟨later, hlater, hended | hagain⟩ := queued_of_resumed hmeets hpromptly hresumed
  · exact Or.inl ⟨later, by omega, hended⟩
  · exact Or.inr ⟨middle, later, by omega, by omega, hsuspends, hagain⟩

/-- Every task is finished. In every run in which nobody stops the scheduler, no
thread is passed over for ever and no body blocks its thread, a queued coroutine
that suspends only finitely often runs to its end; one started worker is enough. -/
theorem queued_finishes (schedule : Nat → Option (Action Worker Thread))
    (hmeets : (machine Worker Thread).MeetsAlways schedule Unstopping)
    (hpromptly : Promptly schedule) {time : Nat} {handle : Handle} {worker : Worker}
    (hqueued : handle ∈ ((machine Worker Thread).states schedule time).queue)
    (hstarted : ((machine Worker Thread).states schedule time).workers worker ≠ .unstarted)
    (hends : ∀ᶠ later in atTop, ¬ Suspends schedule handle later) :
    ∃ later, time ≤ later ∧ ((machine Worker Thread).states schedule later).done handle := by
  obtain ⟨last, hlast⟩ := eventually_atTop.mp hends
  -- on the time left until it does not suspend any more
  induction hleft : last - time using Nat.strong_induction_on generalizing time with
  | _ left ih =>
    rcases queued_again hmeets hpromptly hqueued hstarted with
      hdone | ⟨middle, later, hmiddle, hlater, hsuspends, hagain⟩
    · exact hdone
    have hbefore : middle < last := by
      by_contra hafter
      exact hlast middle (by omega) hsuspends
    obtain ⟨final, hfinal, hdone⟩ := ih (last - later) (by omega) hagain
      (started_states hmeets hstarted later (by omega)) rfl
    exact ⟨final, by omega, hdone⟩

/-- The one coroutine suspends, is scheduled again, and ends. -/
def relay (time : Nat) : Option (Action Unit Unit) :=
  [.main .go, .main .go, .main (.spawn ()), .main .go, .thread () (.call 7), .thread () .go,
    .thread () .go, .thread () (.push none), .worker () .go, .worker () .go, .worker () .go,
    .worker () .go, .worker () .go, .worker () .go, .worker () .suspend, .worker () .go,
    .worker () .go, .worker () .go, .worker () (.push none), .worker () .go, .worker () .go,
    .worker () .go, .worker () .go, .worker () .go, .worker () .go, .worker () .go,
    .worker () .finish, .worker () .go, .worker () .go, .worker () .go, .worker () .go,
    .worker () .go, .worker () .go, .worker () .go, .worker () .go, .main .go, .main .go][time]?

set_option maxRecDepth 1000 in
theorem queued_finishes_relay : Suspends relay 7 14 ∧
    ∃ later, 8 ≤ later ∧ ((machine Unit Unit).states relay later).done 7 := by
  have hsilent : ∀ time, 37 ≤ time → relay time = none := fun time htime =>
    List.getElem?_eq_none htime
  have hbodies : ∀ party, ∀ᶠ time in atTop,
      body ((machine Unit Unit).states relay time) party = none := by
    refine fun party => eventually_atTop.mpr ⟨37, fun time htime => ?_⟩
    rw [Machine.states_of_silent hsilent time htime]
    cases party <;> rfl
  have hmeets : (machine Unit Unit).MeetsAlways relay Unstopping := by
    rintro time action ⟨hschedule, -⟩ thread rfl
    have hmem := List.mem_of_getElem? hschedule
    simp at hmem
  have hpromptly : Promptly relay :=
    { parties := fun party => by
        apply Machine.stronglyFair_of_silent hsilent
        rintro ⟨_, ⟨move, hspurious, hexpire, rfl⟩, hsome⟩
        cases party <;> cases move <;>
          first | exact hspurious rfl | exact hexpire rfl | cases hsome
      returns := fun party => (hbodies party).frequently }
  have hends : ∀ᶠ later in atTop, ¬ Suspends relay 7 later := by
    filter_upwards [eventually_all.mpr hbodies] with later hnone
    rintro ⟨party, hbody, -⟩
    simp [hnone party] at hbody
  have hqueued : 7 ∈ ((machine Unit Unit).states relay 8).queue := by decide
  have hstarted : ((machine Unit Unit).states relay 8).workers () ≠ .unstarted := by decide
  exact ⟨⟨some (), rfl, rfl, rfl⟩,
    queued_finishes relay hmeets hpromptly hqueued hstarted hends⟩

end Service

end Tang.Scheduler
