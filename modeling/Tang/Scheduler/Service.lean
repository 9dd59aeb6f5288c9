import Tang.Scheduler.Joining
import Tang.Scheduler.Termination
import Tang.Scheduler.Wakeup

/-! # Queued coroutines are resumed

Handles are taken from the front of the queue and pushed at its end, so the
place of a queued handle never gets worse and is better after each pop. Were it
never popped, the pops would come to an end with the queue not empty. Then each
worker would come to rest, none of them on its way to the queue, and a
notification would have been lost.
-/

namespace Tang.Scheduler

/-- How far a worker is from its next pop when the queue is not empty. -/
def WorkerStage.distance : WorkerStage → Nat
  | .taking => 0
  | .evaluating => 1
  | .locking | .notified => 2
  | .top | .blocked => 3
  | .popped none => 4
  | .working round => round.rank + 4
  | .popped (some _) => 11
  | .unstarted | .parking => 12
  | .exited => 0

/-- The round a worker is in. -/
def WorkerStage.round? : WorkerStage → Option Round
  | .working round => some round
  | _ => none

/-- The round the thread inside `run` is in. -/
def MainStage.round? : MainStage → Option Round
  | .working round | .extra round => some round
  | _ => none

namespace Service

open Foundation Filter Joining Termination

variable {Worker Thread : Type} [DecidableEq Worker] {state next middle : State Worker Thread}

/-! ## On the way to the queue -/

theorem distance_of_rounds {round later : Round} {move : Move Worker}
    (hrounds : Rounds state round move next later) :
    later.rank < round.rank ∨ (WorkerStage.working round).resumes ∧
      (WorkerStage.working later).resumes ∧ later.rank = round.rank := by
  cases hrounds with
  | calls | posts => exact Or.inr ⟨rfl, rfl, rfl⟩
  | reposts _ _ _ _ hposts => exact Or.inl (rank_of_posts hposts)
  | skips | resumes | suspends | finishes | completes | reschedules | counts | leaves
  | decrements => exact Or.inl (by simp [Round.rank, Post.rank])

/-- A worker pops, gets closer to its next pop, or stays in the body of a coroutine. -/
theorem distance_of_works {worker : Worker} {stage later : WorkerStage} {move : Move Worker}
    (hqueue : state.queue ≠ []) (hstarted : stage ≠ .unstarted → state.running)
    (hworks : Works state worker stage move next later) :
    (∃ front, state.queue = front :: next.queue) ∨ later.distance < stage.distance ∨
      stage.resumes ∧ later.resumes ∧ later.distance = stage.distance := by
  cases hworks with
  | pops front rest _ hpopped => exact Or.inl ⟨front, hpopped⟩
  | parks hempty | misses _ hempty => exact absurd hempty hqueue
  | leaves hrunning | quits hrunning | drops _ hrunning =>
      simp [hstarted (by simp)] at hrunning
  | enters | locks | relocks | passes | blocks | stirs | returns | keeps | ends =>
      exact Or.inr (Or.inl (by simp [WorkerStage.distance, Round.rank]))
  | works _ _ _ _ hrounds =>
      refine Or.inr ((distance_of_rounds hrounds).imp (Nat.add_lt_add_right · 4) ?_)
      rintro ⟨hresumes, hlater, heq⟩
      exact ⟨hresumes, hlater, congrArg (· + 4) heq⟩

variable [DecidableEq Thread] {action : Action Worker Thread}

/-- What a step without a pop does to a worker while the queue is not empty. -/
theorem distance_of_moves (hawake : Awake state) (hqueue : state.queue ≠ [])
    (hmoves : Moves state action next)
    (hkept : ∀ front, state.queue ≠ front :: next.queue) (worker : Worker) :
    (next.workers worker = state.workers worker ∧ ∀ move, action ≠ .worker worker move) ∨
      (next.workers worker).distance < (state.workers worker).distance ∨
      (state.workers worker).resumes ∧ (next.workers worker).resumes ∧
        (next.workers worker).distance = (state.workers worker).distance := by
  have hfares := fares_of_moves hmoves worker
  have hstarted := hawake.unstopped.started worker
  generalize next.workers worker = later at hfares
  cases hfares with
  | stays _ hother => exact Or.inl ⟨rfl, hother⟩
  | woken _ hblocked => exact Or.inr (Or.inl (by simp [hblocked, WorkerStage.distance]))
  | works move middle _ hworks hnext =>
      subst hnext
      refine Or.inr ((distance_of_works hqueue hstarted hworks).resolve_left ?_)
      exact fun ⟨front, hpopped⟩ => hkept front hpopped
  | spawned hworker => exact Or.inr (Or.inl (by simp [hworker, WorkerStage.distance]))
  | joined thread hthread =>
      have hidle := hawake.unstopped.threads thread
      simp [hthread] at hidle

/-! ## The rounds of a party -/

/-- The round of a worker, or of the thread inside `run`. -/
def round? (state : State Worker Thread) : Option Worker → Option Round
  | some worker => (state.workers worker).round?
  | none => state.main.round?

omit [DecidableEq Worker] [DecidableEq Thread] in
theorem body_eq_round (state : State Worker Thread) (party : Option Worker) :
    body state party = (round? state party).bind Round.body := by
  cases party with
  | some worker => simp only [body, round?]; cases state.workers worker <;> rfl
  | none => simp only [body, round?]; cases state.main <;> rfl

omit [DecidableEq Worker] [DecidableEq Thread] in
theorem resumes_eq_isSome (state : State Worker Thread) (worker : Worker) :
    (state.workers worker).resumes = (body state (some worker)).isSome := by
  simp only [body]
  cases state.workers worker with
  | working round => cases round <;> rfl
  | unstarted | top | locking | evaluating | parking | blocked | notified | taking | popped
  | exited => rfl

/-- What a party does itself: the end of a wait is not its own step. -/
def Own (party : Option Worker) (action : Action Worker Thread) : Prop :=
  ∃ move, move ≠ .spurious ∧ move ≠ .expire ∧ action = act party move

omit [DecidableEq Thread] in
theorem own_of_rounds {round later : Round} {move : Move Worker}
    (hrounds : Rounds state round move next later) : move ≠ .spurious ∧ move ≠ .expire := by
  cases hrounds with
  | posts _ _ _ _ _ hposts | reposts _ _ _ _ hposts => cases hposts <;> simp
  | skips | resumes | calls | suspends | finishes | completes | reschedules | counts | leaves
  | decrements => simp

omit [DecidableEq Worker] [DecidableEq Thread] in
theorem working_of_round {worker : Worker} {round : Round}
    (hround : round? state (some worker) = some round) : state.workers worker = .working round := by
  simp only [round?] at hround
  generalize state.workers worker = stage at hround
  cases stage with
  | working => rw [Option.some.inj hround]
  | unstarted | top | locking | evaluating | parking | blocked | notified | taking | popped
  | exited => cases hround

/-- A round that is not over stays as it is until its party goes on with it. -/
theorem round_of_moves (hmoves : Moves state action next) {party : Option Worker} {round : Round}
    (hround : round? state party = some round) (hfinished : ∀ skipped, round ≠ .finished skipped) :
    (round? next party = some round ∧ ∀ move, action ≠ act party move) ∨
      ∃ move middle later, Rounds state round move middle later ∧
        round? next party = some later ∧ next.queue = middle.queue ∧ next.done = middle.done := by
  cases party with
  | some worker =>
      have hstage : state.workers worker = .working round := working_of_round hround
      have hfares := fares_of_moves hmoves worker
      simp only [round?] at hround ⊢
      generalize next.workers worker = after at hfares ⊢
      cases hfares with
      | stays _ hother => exact Or.inl ⟨hround, hother⟩
      | woken _ hblocked => cases hblocked.symm.trans hstage
      | works move middle _ hworks hnext =>
          rw [hstage] at hworks
          cases hworks with
          | ends skipped => exact absurd rfl (hfinished skipped)
          | works _ later _ _ hrounds =>
              exact Or.inr
                ⟨move, middle, later, hrounds, rfl, by rw [hnext]; rfl, by rw [hnext]; rfl⟩
      | spawned hunstarted => cases hunstarted.symm.trans hstage
      | joined _ _ hworkers =>
          have hjoinable := hworkers worker
          rw [hstage] at hjoinable
          cases hjoinable
  | none =>
      have hproceeds := proceeds_of_moves hmoves
      simp only [round?] at hround ⊢
      generalize next.main = after at hproceeds ⊢
      cases hproceeds with
      | stays _ hother => exact Or.inl ⟨hround, hother⟩
      | woken _ hblocked =>
          rw [hblocked] at hround
          cases hround
      | mains move middle _ hmains hnext =>
          generalize state.main = stage at hmains hround
          cases hmains with
          | works _ later _ _ hrounds | extras _ later _ _ hrounds =>
              obtain rfl := Option.some.inj hround
              exact Or.inr
                ⟨move, middle, later, hrounds, rfl, by rw [hnext]; rfl, by rw [hnext]; rfl⟩
          | strolls _ _ _ hstrolls =>
              cases hstrolls with
              | ends skipped | returns skipped =>
                  exact absurd (Option.some.inj hround).symm (hfinished skipped)
              | calls | skips | spawned | tests | inspects | checks | compares | lingers | probes
              | sweeps | rests | finds | leaves => cases hround
          | starts | spawns | locks | relocks | stirs | expires | gives | pops => cases hround

/-! ## Fair runs -/

variable [Fintype Worker]

/-- Every party that can go on does so at some time, and every `handle.resume()`
of a worker returns. -/
structure Fairly (schedule : Nat → Option (Action Worker Thread)) : Prop where
  parties : ∀ party, (machine Worker Thread).Fair schedule (Own party)
  returns : ∀ worker, ∃ᶠ time in atTop,
    body ((machine Worker Thread).states schedule time) (some worker) = none

/-- Nobody calls `stop`. -/
def Unstopping (_ : State Worker Thread) (action : Action Worker Thread) : Prop :=
  ∀ thread, action ≠ .thread thread .stop

variable {schedule : Nat → Option (Action Worker Thread)}

theorem moves_of_takes {time : Nat} (htakes : (machine Worker Thread).Takes schedule time action) :
    Moves ((machine Worker Thread).states schedule time) action
      ((machine Worker Thread).states schedule (time + 1)) :=
  moves_of_step htakes.2

theorem awake_states (hmeets : (machine Worker Thread).MeetsAlways schedule Unstopping)
    (time : Nat) : Awake ((machine Worker Thread).states schedule time) := by
  refine Machine.states_invariant ?_ ?_ hmeets time
  · exact
      { unstopped := ⟨fun _ => Or.inl rfl, fun _ => by simp [machine], by simp [machine],
          by simp [machine]⟩
        held := fun _ => by simp [machine, WorkerStage.holds]
        vacant := fun _ => by simp [machine]
        covered := fun _ => Or.inl rfl }
  · exact fun _ _ _ hawake hstop hstep => hawake.moves (moves_of_step hstep) hstop

theorem enabled_of_workerStep {worker : Worker}
    (hstep : ∃ move, move ≠ Move.spurious ∧
      (workerStep state worker (state.workers worker) move).isSome) :
    (machine Worker Thread).Enabled (Own (some worker)) state := by
  obtain ⟨move, hmove, hsome⟩ := hstep
  have hexpire : move ≠ .expire := by
    rintro rfl
    obtain ⟨⟨after, later⟩, hafter⟩ := Option.isSome_iff_exists.mp hsome
    have hworks := works_of_workerStep hafter
    generalize state.workers worker = stage at hworks
    cases hworks with
    | works _ _ _ _ hrounds => exact (own_of_rounds hrounds).2 rfl
  refine ⟨.worker worker move, ⟨move, hmove, hexpire, rfl⟩, ?_⟩
  simpa [machine, step] using hsome

omit [DecidableEq Worker] [Fintype Worker] in
theorem blocked_of_asleep {stage : WorkerStage} (hasleep : stage.awake = false)
    (hstarted : stage ≠ .unstarted) (hexited : stage ≠ .exited) : stage = .blocked := by
  cases stage with
  | blocked => rfl
  | unstarted => exact absurd rfl hstarted
  | exited => exact absurd rfl hexited
  | top | locking | evaluating | parking | notified | taking | popped | working => cases hasleep

omit [Fintype Worker] in
/-- The thread inside `run` pops when it is woken up and the queue is not empty. -/
theorem advances_of_woken {move : Move Worker}
    (hmoves : Moves state (.main move : Action Worker Thread) next) (hwoken : state.main.woken)
    (hqueue : state.queue ≠ []) :
    ∃ front, state.queue = front :: next.queue := by
  cases hmoves with
  | mains _ middle later hmains =>
      generalize state.main = stage at hmains hwoken
      cases hmains with
      | relocks _ _ hpops | gives _ _ hpops =>
          cases hpops with
          | misses _ hempty => exact absurd hempty hqueue
          | pops front rest _ hpopped => exact ⟨front, hpopped⟩
      | strolls _ _ _ hstrolls => cases hstrolls <;> cases hwoken
      | starts | spawns | locks | stirs | expires | works | pops | extras => cases hwoken

theorem enabled_of_woken (hwoken : state.main.woken) (howner : state.owner = none) :
    (machine Worker Thread).Enabled (Own none) state := by
  have hpop : ∀ empty, (mainPop state empty).isSome := by
    intro empty
    simp only [mainPop, howner, if_true]
    cases state.queue <;> rfl
  refine ⟨.main .go, ⟨.go, by simp, by simp, rfl⟩, ?_⟩
  simp only [machine, step, Option.isSome_map]
  generalize state.main = stage at hwoken
  cases stage <;> first | exact hpop _ | cases hwoken

section Idle

variable (hmeets : (machine Worker Thread).MeetsAlways schedule Unstopping)
  (hfairly : Fairly schedule)
  (hqueue : ∀ᶠ time in atTop, ((machine Worker Thread).states schedule time).queue ≠ [] ∧
    ∀ front, ((machine Worker Thread).states schedule time).queue ≠
      front :: ((machine Worker Thread).states schedule (time + 1)).queue)

include hmeets hfairly hqueue

/-- Without pops a worker comes to rest outside of coroutines. -/
theorem eventually_still (worker : Worker) : ∃ stage : WorkerStage, ¬ stage.resumes ∧
    ∀ᶠ time in atTop, ((machine Worker Thread).states schedule time).workers worker = stage ∧
      ¬ (machine Worker Thread).Acts schedule (Own (some worker)) time := by
  refine Machine.eventually_rests
    (fun time => ((machine Worker Thread).states schedule time).workers worker)
    WorkerStage.distance (fun stage => stage.resumes) _ ?_
    ((hfairly.returns worker).mono fun time hreturns => by
      rw [resumes_eq_isSome, hreturns]
      simp)
  filter_upwards [hqueue] with time ⟨hnonempty, hkept⟩
  rcases Machine.takes_or_rests (machine Worker Thread) schedule time with
    ⟨action, htakes⟩ | ⟨hidle, hrests⟩
  · refine (distance_of_moves (awake_states hmeets time) hnonempty (moves_of_takes htakes) hkept
      worker).imp_left fun ⟨hsame, hother⟩ => ⟨hsame, ?_⟩
    rintro ⟨_, ⟨move, _, _, rfl⟩, hacts⟩
    exact hother move (hacts.unique htakes)
  · exact Or.inl ⟨by rw [hrests], hidle _⟩

/-- In the end nobody is in a critical section. -/
theorem eventually_free : ∀ᶠ time in atTop,
    ((machine Worker Thread).states schedule time).owner = none := by
  have hout : ∀ worker, ∀ᶠ time in atTop,
      (((machine Worker Thread).states schedule time).workers worker).holds = false := by
    intro worker
    obtain ⟨stage, _, hstage⟩ := eventually_still hmeets hfairly hqueue worker
    refine hstage.mono fun time ⟨hsame, _⟩ => ?_
    rw [hsame]
    by_contra hholds
    refine (hfairly.parties (some worker)).not_eventually_enabled (hstage.mono fun _ => And.right)
      (hstage.mono fun later ⟨hlater, _⟩ => enabled_of_workerStep ?_)
    rw [hlater]
    exact workerStep_of_holds (by simpa using hholds)
  filter_upwards [eventually_all.mpr hout] with time hnone
  cases howner : ((machine Worker Thread).states schedule time).owner with
  | none => rfl
  | some worker =>
      have hholds := ((awake_states hmeets time).held worker).mpr howner
      simp [hnone worker] at hholds

/-- In the end no worker is on its way to the queue. -/
theorem eventually_asleep : ∀ᶠ time in atTop, ∀ worker,
    (((machine Worker Thread).states schedule time).workers worker).awake = false := by
  refine eventually_all.mpr fun worker => ?_
  obtain ⟨stage, hbody, hstage⟩ := eventually_still hmeets hfairly hqueue worker
  refine hstage.mono fun time ⟨hsame, _⟩ => ?_
  rw [hsame]
  by_contra hawake
  refine (hfairly.parties (some worker)).not_eventually_enabled (hstage.mono fun _ => And.right) ?_
  filter_upwards [hstage, eventually_free hmeets hfairly hqueue] with later ⟨hlater, _⟩ howner
  apply enabled_of_workerStep
  rw [hlater]
  refine workerStep_of_free howner ?_ ?_ (by simpa using hbody)
  · cases stage <;> first | rfl | exact absurd rfl hawake
  · rintro rfl
    exact hawake rfl

/-- With a worker that has been started, the pops do not come to an end: the
notification of the last push went to the thread inside `run`, which pops. -/
theorem not_eventually_started (worker : Worker) : ¬ ∀ᶠ time in atTop,
    ((machine Worker Thread).states schedule time).workers worker ≠ .unstarted := by
  intro hstarted
  have hwoken : ∀ᶠ time in atTop,
      ((machine Worker Thread).states schedule time).main.woken := by
    filter_upwards [hstarted, eventually_asleep hmeets hfairly hqueue, hqueue] with time
      hworker hasleep ⟨hnonempty, _⟩
    have hawake := awake_states hmeets time
    have hblocked : ((machine Worker Thread).states schedule time).workers worker = .blocked :=
      blocked_of_asleep (hasleep worker) hworker (hawake.unstopped.exited worker)
    rcases hawake.covered ⟨worker, hblocked⟩ with hempty | ⟨other, hother⟩ | ⟨hwoken, _⟩
    · exact absurd hempty hnonempty
    · simp [hasleep other] at hother
    · exact hwoken
  refine (hfairly.parties none).not_eventually_enabled ?_ ?_
  · filter_upwards [hwoken, hqueue] with time hnow ⟨hnonempty, hkept⟩
    rintro ⟨_, ⟨move, _, _, rfl⟩, htakes⟩
    obtain ⟨front, hpopped⟩ := advances_of_woken (moves_of_takes htakes) hnow hnonempty
    exact hkept front hpopped
  · filter_upwards [hwoken, eventually_free hmeets hfairly hqueue] with time hnow howner
    exact enabled_of_woken hnow howner

end Idle

/-! ## The place in the queue -/

omit [DecidableEq Thread] [DecidableEq Worker] [Fintype Worker] in
/-- Somebody has just taken the handle from the queue. -/
def Taken (state : State Worker Thread) (handle : Handle) : Prop :=
  (∃ worker, state.workers worker = .popped (some handle)) ∨
    round? state none = some (.ready handle)

omit [Fintype Worker] in
/-- A queued handle is taken, or does not fall back, and comes closer to the
front with each pop. -/
theorem place_of_moves (hawake : Awake state) (hmoves : Moves state action next)
    {handle : Handle} (hqueued : handle ∈ state.queue) :
    Taken next handle ∨ handle ∈ next.queue ∧
      next.queue.idxOf handle ≤ state.queue.idxOf handle ∧
        ((∃ front, state.queue = front :: next.queue) →
          next.queue.idxOf handle < state.queue.idxOf handle) := by
  have hbehind : ∀ {front : Handle}, state.queue = front :: next.queue → front ≠ handle →
      handle ∈ next.queue ∧ next.queue.idxOf handle + 1 = state.queue.idxOf handle := by
    intro front hqueue hne
    rw [hqueue] at hqueued ⊢
    rw [List.idxOf_cons_ne _ hne]
    exact ⟨(List.mem_cons.mp hqueued).resolve_left (Ne.symm hne), rfl⟩
  have hlonger : state.queue.length ≤ next.queue.length →
      ¬ ∃ front, state.queue = front :: next.queue := by
    rintro hlength ⟨front, hqueue⟩
    rw [hqueue, List.length_cons] at hlength
    omega
  cases serves_of_moves hmoves with
  | keeps _ hqueue =>
      refine Or.inr ⟨by rwa [hqueue], by rw [hqueue], fun hpop => ?_⟩
      exact absurd hpop (hlonger (by rw [hqueue]))
  | pushes _ pushed _ hqueue =>
      refine Or.inr ⟨by rw [hqueue]; exact List.mem_append_left _ hqueued, ?_, fun hpop => ?_⟩
      · rw [hqueue, List.idxOf_append_of_mem hqueued]
      · exact absurd hpop (hlonger (by rw [hqueue, List.length_append]; omega))
  | worker worker front hqueue hnext =>
      by_cases heq : front = handle
      · exact Or.inl (Or.inl ⟨worker, by rw [hnext, heq]⟩)
      · obtain ⟨hmem, hplace⟩ := hbehind hqueue heq
        exact Or.inr ⟨hmem, by omega, fun _ => by omega⟩
  | main front hqueue hnext =>
      by_cases heq : front = handle
      · subst heq
        exact Or.inl (Or.inr (by rcases hnext with hmain | hmain <;> rw [round?, hmain] <;> rfl))
      · obtain ⟨hmem, hplace⟩ := hbehind hqueue heq
        exact Or.inr ⟨hmem, by omega, fun _ => by omega⟩
  | clears thread hthread =>
      have hidle := hawake.unstopped.threads thread
      simp [hthread] at hidle

omit [Fintype Worker] in
theorem started_of_moves (hawake : Awake state) (hmoves : Moves state action next)
    {worker : Worker} (hstarted : state.workers worker ≠ .unstarted) :
    next.workers worker ≠ .unstarted := by
  have hfares := fares_of_moves hmoves worker
  generalize next.workers worker = later at hfares
  cases hfares with
  | stays => exact hstarted
  | woken | spawned => simp
  | works move middle later hworks =>
      generalize state.workers worker = stage at hworks
      cases hworks <;> simp
  | joined thread hthread =>
      have hidle := hawake.unstopped.threads thread
      simp [hthread] at hidle

section Serving

variable (hmeets : (machine Worker Thread).MeetsAlways schedule Unstopping) {time : Nat}

include hmeets

theorem started_states {worker : Worker}
    (hstarted : ((machine Worker Thread).states schedule time).workers worker ≠ .unstarted)
    (later : Nat) (hlater : time ≤ later) :
    ((machine Worker Thread).states schedule later).workers worker ≠ .unstarted := by
  induction later, hlater using Nat.le_induction with
  | base => exact hstarted
  | succ later hlater ih =>
      rcases Machine.takes_or_rests (machine Worker Thread) schedule later with
        ⟨action, htakes⟩ | ⟨_, hrests⟩
      · exact started_of_moves (awake_states hmeets later) (moves_of_takes htakes) ih
      · rwa [hrests]

/-- A queued handle is taken at some time. -/
theorem taken_of_queued (hfairly : Fairly schedule) {handle : Handle} {worker : Worker}
    (hqueued : handle ∈ ((machine Worker Thread).states schedule time).queue)
    (hstarted : ((machine Worker Thread).states schedule time).workers worker ≠ .unstarted) :
    ∃ later, time ≤ later ∧ Taken ((machine Worker Thread).states schedule later) handle := by
  by_contra hnever
  push Not at hnever
  have hstep : ∀ later, time ≤ later →
      handle ∈ ((machine Worker Thread).states schedule later).queue →
      let now := ((machine Worker Thread).states schedule later).queue
      let after := ((machine Worker Thread).states schedule (later + 1)).queue
      handle ∈ after ∧ after.idxOf handle ≤ now.idxOf handle ∧
        ((∃ front, now = front :: after) → after.idxOf handle < now.idxOf handle) := by
    intro later hlater hnow
    rcases Machine.takes_or_rests (machine Worker Thread) schedule later with
      ⟨action, htakes⟩ | ⟨_, hrests⟩
    · exact (place_of_moves (awake_states hmeets later) (moves_of_takes htakes) hnow).resolve_left
        (hnever (later + 1) (Nat.le_succ_of_le hlater))
    · rw [hrests]
      exact ⟨hnow, le_rfl, fun ⟨_, hpop⟩ => absurd hpop (List.cons_ne_self _ _).symm⟩
  have hstays : ∀ later, time ≤ later →
      handle ∈ ((machine Worker Thread).states schedule later).queue := by
    intro later hlater
    induction later, hlater using Nat.le_induction with
    | base => exact hqueued
    | succ later hlater ih => exact (hstep later hlater ih).1
  have hsteps := fun later hlater => hstep later hlater (hstays later hlater)
  -- each pop brings the handle closer to the front, so there are not infinitely many
  have hkept := Machine.eventually_not_lowered
    (fun later => ((machine Worker Thread).states schedule later).queue.idxOf handle)
    (fun later => ∃ front, ((machine Worker Thread).states schedule later).queue =
      front :: ((machine Worker Thread).states schedule (later + 1)).queue)
    (eventually_atTop.mpr ⟨time, fun later hlater => (hsteps later hlater).2.1⟩)
    (eventually_atTop.mpr ⟨time, fun later hlater => (hsteps later hlater).2.2⟩)
  refine not_eventually_started hmeets hfairly ?_ worker
    (eventually_atTop.mpr ⟨time, started_states hmeets hstarted⟩)
  filter_upwards [hkept, eventually_ge_atTop time] with later hnot hlater
  exact ⟨List.ne_nil_of_mem (hstays later hlater), fun front hpop => hnot ⟨front, hpop⟩⟩

end Serving

/-! ## From the queue to the coroutine -/

omit [Fintype Worker] in
/-- A worker with a popped handle keeps it until it gets ready to resume it. -/
theorem ready_of_moves (hawake : Awake state) (hmoves : Moves state action next) {worker : Worker}
    {handle : Handle} (hpopped : state.workers worker = .popped (some handle)) :
    (next.workers worker = .popped (some handle) ∧ ∀ move, action ≠ .worker worker move) ∨
      round? next (some worker) = some (.ready handle) := by
  have hrunning := hawake.unstopped.started worker (by simp [hpopped])
  have hfares := fares_of_moves hmoves worker
  simp only [round?]
  generalize next.workers worker = after at hfares ⊢
  cases hfares with
  | stays _ hother => exact Or.inl ⟨hpopped, hother⟩
  | woken _ hblocked => cases hblocked.symm.trans hpopped
  | works move middle _ hworks =>
      rw [hpopped] at hworks
      cases hworks with
      | keeps => exact Or.inr rfl
      | drops _ hcleared => simp [hrunning] at hcleared
  | spawned hunstarted => cases hunstarted.symm.trans hpopped
  | joined thread hthread =>
      have hidle := hawake.unstopped.threads thread
      simp [hthread] at hidle

theorem ready_of_popped (hmeets : (machine Worker Thread).MeetsAlways schedule Unstopping)
    (hfairly : Fairly schedule) {time : Nat} {worker : Worker} {handle : Handle}
    (hpopped : ((machine Worker Thread).states schedule time).workers worker =
      .popped (some handle)) :
    ∃ later, time ≤ later ∧ round? ((machine Worker Thread).states schedule (later + 1))
      (some worker) = some (.ready handle) := by
  refine Machine.Fair.leads
    (fun now => ((machine Worker Thread).states schedule now).workers worker =
      .popped (some handle)) _ (fun now hnow => ?_) (hfairly.parties (some worker))
    (fun now hnow => enabled_of_workerStep ⟨.go, by simp, ?_⟩) hpopped
  · rcases Machine.takes_or_rests (machine Worker Thread) schedule now with
      ⟨action, htakes⟩ | ⟨hidle, hrests⟩
    · refine (ready_of_moves (awake_states hmeets now) (moves_of_takes htakes) hnow).imp_left ?_
      rintro ⟨hsame, hother⟩
      refine ⟨hsame, ?_⟩
      rintro ⟨_, ⟨move, _, _, rfl⟩, hacts⟩
      exact hother move (hacts.unique htakes)
    · exact Or.inl ⟨by rw [hrests]; exact hnow, hidle _⟩
  · rw [hnow]
    simp only [workerStep]
    split <;> rfl

/-- A step of a round, or a step of others. -/
theorem round_of_states {party : Option Worker} {round : Round} {time : Nat}
    (hround : round? ((machine Worker Thread).states schedule time) party = some round)
    (hfinished : ∀ skipped, round ≠ .finished skipped) :
    let now := (machine Worker Thread).states schedule time
    let next := (machine Worker Thread).states schedule (time + 1)
    (round? next party = some round ∧ ¬ (machine Worker Thread).Acts schedule (Own party) time) ∨
      ∃ move middle later, Rounds now round move middle later ∧
        round? next party = some later ∧ next.queue = middle.queue ∧ next.done = middle.done := by
  intro now next
  rcases Machine.takes_or_rests (machine Worker Thread) schedule time with
    ⟨action, htakes⟩ | ⟨hidle, hrests⟩
  · refine (round_of_moves (moves_of_takes htakes) hround hfinished).imp_left ?_
    rintro ⟨hsame, hother⟩
    refine ⟨hsame, ?_⟩
    rintro ⟨_, ⟨move, _, _, rfl⟩, hacts⟩
    exact hother move (hacts.unique htakes)
  · exact Or.inl ⟨by simp only [next, hrests]; exact hround, hidle _⟩

/-- A party can take any step of its round. -/
theorem enabled_of_roundStep {party : Option Worker} {round : Round} {move : Move Worker}
    (hround : round? state party = some round) (hsome : (roundStep state round move).isSome) :
    (machine Worker Thread).Enabled (Own party) state := by
  obtain ⟨⟨after, later⟩, hafter⟩ := Option.isSome_iff_exists.mp hsome
  have hown := own_of_rounds (rounds_of_roundStep hafter)
  refine ⟨act party move, ⟨move, hown.1, hown.2, rfl⟩, ?_⟩
  have hfinished : ∀ skipped, round ≠ .finished skipped := by
    rintro skipped rfl
    cases hafter
  cases party with
  | some worker =>
      simp only [act, machine, step, working_of_round hround, Option.isSome_map]
      cases round with
      | finished skipped => exact absurd rfl (hfinished skipped)
      | ready | resuming | resumed | rescheduling | completing | decrementing =>
          simpa [workerStep] using hsome
  | none =>
      simp only [act, machine, step, Option.isSome_map]
      simp only [round?] at hround
      generalize state.main = stage at hround
      cases stage with
      | working other | extra other =>
          obtain rfl : other = round := Option.some.inj hround
          cases other with
          | finished skipped => exact absurd rfl (hfinished skipped)
          | ready | resuming | resumed | rescheduling | completing | decrementing =>
              simpa [mainStep] using hsome
      | outside | initializing | spawning | testing | inspecting | locking | blocked | notified
      | expired | checking | comparing | extending | probing | sweeping | locked
      | waiting => cases hround

/-- The coroutine is done, or somebody begins to resume it. -/
def Resumes (schedule : Nat → Option (Action Worker Thread)) (handle : Handle) (time : Nat) :
    Prop :=
  ((machine Worker Thread).states schedule time).done handle ∨
    ∃ party, body ((machine Worker Thread).states schedule time) party = none ∧
      body ((machine Worker Thread).states schedule (time + 1)) party = some handle

theorem resumes_of_ready (hfairly : Fairly schedule) {time : Nat} {party : Option Worker}
    {handle : Handle}
    (hready : round? ((machine Worker Thread).states schedule time) party = some (.ready handle)) :
    ∃ later, time ≤ later ∧ Resumes schedule handle later := by
  refine Machine.Fair.leads
    (fun now => round? ((machine Worker Thread).states schedule now) party = some (.ready handle))
    _ (fun now hnow => ?_) (hfairly.parties party)
    (fun now hnow => enabled_of_roundStep hnow (?_ : (roundStep _ _ .go).isSome)) hready
  · refine (round_of_states hnow (by simp)).imp_right ?_
    rintro ⟨move, middle, later, hrounds, hlater, -⟩
    cases hrounds with
    | skips _ hdone => exact Or.inl hdone
    | resumes =>
        refine Or.inr ⟨party, ?_, ?_⟩
        · rw [body_eq_round, hnow]
          rfl
        · rw [body_eq_round, hlater]
          rfl
  · simp only [roundStep]
    split <;> rfl

/-- Somebody with a queued handle gets ready to resume it. -/
theorem ready_of_queued (hmeets : (machine Worker Thread).MeetsAlways schedule Unstopping)
    (hfairly : Fairly schedule) {time : Nat} {handle : Handle} {worker : Worker}
    (hqueued : handle ∈ ((machine Worker Thread).states schedule time).queue)
    (hstarted : ((machine Worker Thread).states schedule time).workers worker ≠ .unstarted) :
    ∃ party later, time ≤ later ∧
      round? ((machine Worker Thread).states schedule later) party = some (.ready handle) := by
  obtain ⟨first, hfirst, htaken⟩ := taken_of_queued hmeets hfairly hqueued hstarted
  rcases htaken with ⟨other, hpopped⟩ | hmain
  · obtain ⟨second, hsecond, hready⟩ := ready_of_popped hmeets hfairly hpopped
    exact ⟨some other, second + 1, by omega, hready⟩
  · exact ⟨none, first, hfirst, hmain⟩

/-- No coroutine starves. In every run in which nobody stops the scheduler and
the threads are scheduled fairly, a coroutine in the queue is resumed at some
later time unless it is done by then, whatever is pushed and resumed meanwhile;
one started worker is enough. -/
theorem queued_resumes (schedule : Nat → Option (Action Worker Thread))
    (hmeets : (machine Worker Thread).MeetsAlways schedule Unstopping) (hfairly : Fairly schedule)
    {time : Nat} {handle : Handle} {worker : Worker}
    (hqueued : handle ∈ ((machine Worker Thread).states schedule time).queue)
    (hstarted : ((machine Worker Thread).states schedule time).workers worker ≠ .unstarted) :
    ∃ later, time ≤ later ∧ Resumes schedule handle later := by
  obtain ⟨party, second, hsecond, hready⟩ := ready_of_queued hmeets hfairly hqueued hstarted
  obtain ⟨later, hlater, hresumes⟩ := resumes_of_ready hfairly hready
  exact ⟨later, by omega, hresumes⟩

/-- A worker resumes the one coroutine, which ends, while `run` waits. -/
def errand (time : Nat) : Option (Action Unit Unit) :=
  [.main .go, .main .go, .main (.spawn ()), .main .go, .thread () (.call 7), .thread () .go,
    .thread () .go, .thread () (.push none), .worker () .go, .worker () .go, .worker () .go,
    .worker () .go, .worker () .go, .worker () .go, .main .go, .main .go, .worker () .finish,
    .worker () .go, .worker () .go, .worker () .go, .worker () .go, .worker () .go,
    .worker () .go, .worker () .go, .worker () .go][time]?

theorem queued_resumes_errand : ∃ later, 8 ≤ later ∧ Resumes errand 7 later := by
  have hsilent : ∀ time, 25 ≤ time → errand time = none := fun time htime =>
    List.getElem?_eq_none htime
  have hmeets : (machine Unit Unit).MeetsAlways errand Unstopping := by
    rintro time action ⟨hschedule, -⟩ thread rfl
    have hmem := List.mem_of_getElem? hschedule
    simp at hmem
  have hfairly : Fairly errand :=
    { parties := fun party => by
        apply Machine.fair_of_silent hsilent
        rintro ⟨_, ⟨move, hspurious, hexpire, rfl⟩, hsome⟩
        cases party <;> cases move <;>
          first | exact hspurious rfl | exact hexpire rfl | cases hsome
      returns := fun worker => by
        refine (eventually_atTop.mpr ⟨25, fun time htime => ?_⟩).frequently
        rw [Machine.states_of_silent hsilent time htime]
        rfl }
  have hqueued : 7 ∈ ((machine Unit Unit).states errand 8).queue := by decide
  have hstarted : ((machine Unit Unit).states errand 8).workers () ≠ .unstarted := by decide
  exact queued_resumes errand hmeets hfairly hqueued hstarted

end Service

end Tang.Scheduler
