import Tang.Foundation.Fairness
import Tang.Foundation.History
import Tang.Scheduler.Parties

/-! # Workers leave after a stop

`stop` clears `running_` without the mutex and notifies with it. A worker that read
the flag before it was cleared holds the mutex until it is blocked, so `notify_all`
reaches it; a worker that reads it later leaves. From then on every step of a worker
takes it closer to its end.
-/

namespace Tang.Scheduler

/-- A call of `stop` that has cleared the flag. -/
def ThreadStage.stopping : ThreadStage → Bool
  | .notifying | .joining | .settling | .clearing | .resetting => true
  | .idle | .posting _ | .exchanging => false

/-- A call of `stop` after `notify_all`. -/
def ThreadStage.announced : ThreadStage → Bool
  | .joining | .settling | .clearing | .resetting => true
  | .idle | .posting _ | .exchanging | .notifying => false

/-- The resumptions a worker is committed to. -/
def WorkerStage.pending : WorkerStage → Nat
  | .working (.ready _) => 1
  | _ => 0

/-- A worker in the body of a coroutine. -/
def WorkerStage.resumes : WorkerStage → Bool
  | .working (.resuming _ _) => true
  | _ => false

def Post.rank : Post → Nat
  | .checking _ => 2
  | .counting _ => 1
  | .pushing _ => 0

def Round.rank : Round → Nat
  | .ready _ => 6
  | .resuming _ _ => 5
  | .resumed _ => 4
  | .rescheduling post => post.rank + 1
  | .completing _ => 2
  | .decrementing _ => 1
  | .finished _ => 0

/-- How far a worker is from its end when the flag is cleared. -/
def WorkerStage.rank : WorkerStage → Nat
  | .exited => 0
  | .top | .taking | .popped _ => 1
  | .unstarted | .evaluating => 2
  | .locking | .notified => 3
  | .blocked => 4
  | .parking => 5
  | .working round => round.rank + 2

namespace Joining

open Foundation Filter

variable {Worker Thread : Type} [DecidableEq Worker]

/-- The worker that resumes a coroutine in the step. -/
def resumer (state : State Worker Thread) : Action Worker Thread → Option Worker
  | .worker worker .go =>
      match state.workers worker with
      | .working (.ready handle) => if state.done handle then none else some worker
      | _ => none
  | _ => none

/-- Counts the resumptions of each worker since the last `notify_all`. -/
def record (resumptions : Worker → Nat) (state : State Worker Thread)
    (action : Action Worker Thread) (_ : State Worker Thread) (worker : Worker) : Nat :=
  match action with
  | .thread thread .go => if state.threads thread = .notifying then 0 else resumptions worker
  | _ => if resumer state action = some worker then resumptions worker + 1 else resumptions worker

/-- Nobody starts the scheduler again while a call of `stop` is under way. -/
def Unrestarted (watched : State Worker Thread × (Worker → Nat))
    (action : Action Worker Thread) : Prop :=
  action = .main .go → watched.1.main = .initializing →
    ∀ thread, (watched.1.threads thread).stopping = false

/-- After `notify_all` the flag stays cleared, no worker is blocked or about to
block, and none resumes a second coroutine. -/
def Released (watched : State Worker Thread × (Worker → Nat)) : Prop :=
  ∀ thread, (watched.1.threads thread).announced → watched.1.running = false ∧
    ∀ worker, watched.1.workers worker ≠ .blocked ∧ watched.1.workers worker ≠ .parking ∧
      watched.2 worker ≤ 1

variable {state next middle : State Worker Thread}

theorem stopping_of_announced {stage : ThreadStage} (hannounced : stage.announced) :
    stage.stopping := by
  cases stage with
  | joining | settling | clearing | resetting => rfl
  | idle | posting | exchanging | notifying => cases hannounced

/-- A worker that finds the flag cleared commits itself to no further resumption. -/
theorem record_pending_le (next : State Worker Thread) {worker : Worker} {move : Move Worker}
    {later : WorkerStage} (hrunning : state.running = false)
    (hworks : Works state worker (state.workers worker) move middle later)
    (resumptions : Worker → Nat) :
    record resumptions state (.worker worker move) next worker + later.pending ≤
      resumptions worker + (state.workers worker).pending := by
  generalize hstage : state.workers worker = stage at hworks
  cases hworks with
  | enters hset | parks _ hset | misses hset | pops _ _ hset | returns hset | keeps _ hset =>
      simp [hrunning] at hset
  | leaves | locks | relocks | passes | blocks | stirs | quits | drops | ends =>
      simp [record, resumer, hstage, WorkerStage.pending]
  | works _ _ _ _ hrounds =>
      cases hrounds with
      | skips handle hdone | resumes handle hdone =>
          simp [record, resumer, hstage, hdone, WorkerStage.pending]
      | posts _ _ move => cases move <;> simp [record, resumer, hstage, WorkerStage.pending]
      | reposts _ move _ rest =>
          cases rest <;> cases move <;> simp [record, resumer, hstage, WorkerStage.pending]
      | calls | suspends | finishes | completes | reschedules | counts | leaves | decrements =>
          simp [record, resumer, hstage, WorkerStage.pending]

/-- The count of a worker that does not take the step does not grow. -/
theorem record_le (state next : State Worker Thread) (resumptions : Worker → Nat)
    {worker : Worker} {action : Action Worker Thread}
    (hother : ∀ move, action ≠ .worker worker move) :
    record resumptions state action next worker ≤ resumptions worker := by
  have hresumer : resumer state action ≠ some worker := by
    unfold resumer
    split
    next mover =>
      split
      next =>
        split
        next => simp
        next => exact fun heq => hother .go (by rw [Option.some.inj heq])
      next => simp
    next => simp
  unfold record
  split
  next thread =>
    split
    next => exact Nat.zero_le _
    next => exact le_rfl
  next => rw [if_neg hresumer]

variable [DecidableEq Thread]

/-- A call of `stop` that is under way has been so before, or clears the flag. -/
theorem stopping_of_moves {action : Action Worker Thread} (hmoves : Moves state action next)
    {thread : Thread} (hstopping : (next.threads thread).stopping) :
    (state.threads thread).stopping ∨
      action = .thread thread .go ∧ state.running = true ∧ next.running = false := by
  have hattends := attends_of_moves hmoves thread
  generalize next.threads thread = later at hattends hstopping
  cases hattends with
  | stays => exact Or.inl hstopping
  | threads move middle _ hthreads hnext =>
      generalize state.threads thread = stage at hthreads
      cases hthreads with
      | clears hrunning => exact Or.inr ⟨rfl, hrunning, by rw [hnext]; rfl⟩
      | notifies | joins | settles | destroys => exact Or.inl rfl
      | posts _ _ _ rest => cases rest <;> cases hstopping
      | calls | stops | skips | resets => cases hstopping

/-- What holds while a stop is under way. -/
structure Stopping (watched : State Worker Thread × (Worker → Nat)) : Prop where
  held : Held watched.1
  cleared : ∀ thread, (watched.1.threads thread).stopping → watched.1.running = false
  alone : ∀ thread other, (watched.1.threads thread).stopping →
    (watched.1.threads other).stopping → thread = other
  released : ∀ thread, (watched.1.threads thread).announced → ∀ worker,
    watched.1.workers worker ≠ .blocked ∧ watched.1.workers worker ≠ .parking ∧
      watched.2 worker + (watched.1.workers worker).pending ≤ 1

variable {resumptions : Worker → Nat} {action : Action Worker Thread}

omit [DecidableEq Worker] [DecidableEq Thread] in
theorem Stopping.released_state (hstopping : Stopping (state, resumptions)) :
    Released (state, resumptions) := by
  intro thread hannounced
  refine ⟨hstopping.cleared thread (stopping_of_announced hannounced), fun worker => ?_⟩
  obtain ⟨hblocked, hparking, hcount⟩ := hstopping.released thread hannounced worker
  exact ⟨hblocked, hparking, le_trans (Nat.le_add_right _ _) hcount⟩

theorem cleared_of_moves (hstopping : Stopping (state, resumptions))
    (hunrestarted : Unrestarted (state, resumptions) action) (hmoves : Moves state action next)
    {thread : Thread} (hnext : (next.threads thread).stopping) : next.running = false := by
  rcases stopping_of_moves hmoves hnext with hstate | ⟨_, _, hcleared⟩
  · have hrunning : state.running = false := hstopping.cleared thread hstate
    cases flips_of_moves hmoves with
    | keeps _ hkept => rwa [hkept]
    | sets hmain =>
        have hfree := hunrestarted rfl hmain thread
        exact absurd hstate (by simp [hfree])
    | clears _ _ hset => simp [hrunning] at hset
  · exact hcleared

omit [DecidableEq Thread] in
/-- A worker after `notify_all`, when it was neither blocked nor about to block. -/
theorem released_of_fares {worker : Worker} {later : WorkerStage}
    (hfares : Fares state next worker action later) (hrunning : state.running = false)
    (hblocked : state.workers worker ≠ .blocked) (hparking : state.workers worker ≠ .parking)
    (hcount : resumptions worker + (state.workers worker).pending ≤ 1) :
    later ≠ .blocked ∧ later ≠ .parking ∧
      record resumptions state action next worker + later.pending ≤ 1 := by
  cases hfares with
  | stays _ hother =>
      have hle := record_le state next resumptions hother
      exact ⟨hblocked, hparking, by omega⟩
  | woken _ hwoken => exact absurd hwoken hblocked
  | works move middle later hworks =>
      have hle := record_pending_le next hrunning hworks resumptions
      refine ⟨?_, ?_, by omega⟩
      · rintro rfl
        generalize state.workers worker = stage at hworks hparking
        cases hworks
        exact hparking rfl
      · rintro rfl
        generalize state.workers worker = stage at hworks
        cases hworks with
        | parks _ hset => simp [hrunning] at hset
  | spawned =>
      have hle : record resumptions state (.main (.spawn worker)) next worker ≤
          resumptions worker := record_le state next resumptions nofun
      exact ⟨by simp, by simp, by simp only [WorkerStage.pending]; omega⟩
  | joined thread =>
      have hle : record resumptions state (.thread thread .go) next worker ≤
          resumptions worker := record_le state next resumptions nofun
      exact ⟨by simp, by simp, by simp only [WorkerStage.pending]; omega⟩

omit [DecidableEq Thread] in
/-- A worker right after `notify_all`. -/
theorem released_of_notifies (next : State Worker Thread) (hheld : Held state)
    (howner : state.owner = none) (worker : Worker) {thread : Thread}
    (hthread : state.threads thread = .notifying) :
    state.wakeAll.workers worker ≠ .blocked ∧ state.wakeAll.workers worker ≠ .parking ∧
      record resumptions state (.thread thread .go) next worker +
        (state.wakeAll.workers worker).pending ≤ 1 := by
  have hworker := hheld worker
  have hpending : ∀ stage : WorkerStage, stage.pending ≤ 1 := by
    intro stage
    unfold WorkerStage.pending
    split <;> omega
  have hwoken : state.wakeAll.workers worker =
      if state.workers worker = .blocked then .notified else state.workers worker := rfl
  refine ⟨?_, ?_, ?_⟩
  · rw [hwoken]
    split
    next => simp
    next hblocked => exact hblocked
  · rw [hwoken]
    split
    next => simp
    next =>
      intro hparking
      rw [hparking, howner] at hworker
      cases hworker.mp rfl
  · have hzero : record resumptions state (.thread thread .go) next worker = 0 := if_pos hthread
    rw [hzero, Nat.zero_add]
    exact hpending _

theorem Stopping.moves (hstopping : Stopping (state, resumptions))
    (hunrestarted : Unrestarted (state, resumptions) action) (hmoves : Moves state action next) :
    Stopping (next, record resumptions state action next) where
  held := hstopping.held.moves hmoves
  cleared _ := cleared_of_moves hstopping hunrestarted hmoves
  alone thread other hthread hother := by
    rcases stopping_of_moves hmoves hthread with hstate | ⟨hactor, hset, _⟩
    · have hrunning : state.running = false := hstopping.cleared thread hstate
      rcases stopping_of_moves hmoves hother with hstate' | ⟨_, hset, _⟩
      · exact hstopping.alone thread other hstate hstate'
      · simp [hrunning] at hset
    · rcases stopping_of_moves hmoves hother with hstate | ⟨hactor', _, _⟩
      · have hrunning : state.running = false := hstopping.cleared other hstate
        simp [hrunning] at hset
      · cases hactor.symm.trans hactor'
        rfl
  released thread hannounced worker := by
    have hattends := attends_of_moves hmoves thread
    have hfares := fares_of_moves hmoves worker
    have hstate : (state.threads thread).announced → _ := fun hstate =>
      released_of_fares hfares (hstopping.cleared thread (stopping_of_announced hstate))
        (hstopping.released thread hstate worker).1 (hstopping.released thread hstate worker).2.1
        (hstopping.released thread hstate worker).2.2
    dsimp only at hannounced
    generalize next.threads thread = later at hattends hannounced
    cases hattends with
    | stays => exact hstate hannounced
    | threads move middle _ hthreads hnext =>
        generalize hstage : state.threads thread = stage at hthreads hstate
        cases hthreads with
        | joins | settles | destroys => exact hstate rfl
        | notifies howner =>
            subst hnext
            exact released_of_notifies (state.wakeAll.setThread thread .joining)
              hstopping.held howner worker hstage
        | posts _ _ _ rest => cases rest <;> cases hannounced
        | calls | stops | clears | skips | resets => cases hannounced

/-! ## Every worker leaves -/

omit [DecidableEq Thread] in
theorem rank_of_posts {post : Post} {move : Move Worker} {rest : Option Post}
    (hposts : Posts state post move next rest) :
    (rest.elim (.finished false) .rescheduling : Round).rank < (Round.rescheduling post).rank := by
  cases hposts with
  | refuses | admits | counts | pushes => simp [Round.rank, Post.rank]

omit [DecidableEq Thread] in
/-- A step takes the worker closer to its end, or stays in the body of a coroutine. -/
theorem rank_of_works {worker : Worker} {stage later : WorkerStage} {move : Move Worker}
    (hrunning : state.running = false) (hworks : Works state worker stage move next later) :
    later.rank < stage.rank ∨ stage.resumes ∧ later.resumes ∧ later.rank = stage.rank := by
  cases hworks with
  | enters hset | parks _ hset | misses hset | pops _ _ hset | returns hset | keeps _ hset =>
      simp [hrunning] at hset
  | leaves | locks | relocks | passes | blocks | stirs | quits | drops | ends =>
      exact Or.inl (by simp [WorkerStage.rank, Round.rank])
  | works _ _ _ _ hrounds =>
      cases hrounds with
      | calls | posts => exact Or.inr ⟨rfl, rfl, rfl⟩
      | reposts _ _ _ _ hposts => exact Or.inl (Nat.add_lt_add_right (rank_of_posts hposts) 2)
      | skips | resumes | suspends | finishes | completes | reschedules | counts | leaves
      | decrements => exact Or.inl (by simp [WorkerStage.rank, Round.rank, Post.rank])

theorem settling_of_moves {thread : Thread} (hmoves : Moves state action next)
    (hthread : state.threads thread = .joining) :
    (∀ move, action ≠ .thread thread move) ∧ next.threads thread = .joining ∨
      next.threads thread = .settling ∧ ∀ worker, (state.workers worker).joinable := by
  have hattends := attends_of_moves hmoves thread
  generalize next.threads thread = later at hattends ⊢
  cases hattends with
  | stays _ hother => exact Or.inl ⟨hother, hthread⟩
  | threads move middle _ hthreads =>
      rw [hthread] at hthreads
      cases hthreads with
      | joins hworkers => exact Or.inr ⟨rfl, hworkers⟩

/-- A worker while a call of `stop` waits for the workers. -/
theorem rank_of_moves (hstopping : Stopping (state, resumptions)) (hmoves : Moves state action next)
    {thread : Thread} (hnow : state.threads thread = .joining)
    (hlater : next.threads thread = .joining) (worker : Worker) :
    (next.workers worker = state.workers worker ∧ ∀ move, action ≠ .worker worker move) ∨
      (next.workers worker).rank < (state.workers worker).rank ∨
        (state.workers worker).resumes ∧ (next.workers worker).resumes ∧
          (next.workers worker).rank = (state.workers worker).rank := by
  have hannounced : (state.threads thread).announced := by simp [hnow, ThreadStage.announced]
  have hrunning : state.running = false :=
    hstopping.cleared thread (stopping_of_announced hannounced)
  have hfares := fares_of_moves hmoves worker
  generalize next.workers worker = later at hfares ⊢
  cases hfares with
  | stays _ hother => exact Or.inl ⟨rfl, hother⟩
  | woken _ hblocked =>
      exact absurd hblocked (hstopping.released thread hannounced worker).1
  | works move middle _ hworks => exact Or.inr (rank_of_works hrunning hworks)
  | spawned hworker => exact Or.inr (Or.inl (by simp [hworker, WorkerStage.rank]))
  | joined other hother =>
      obtain rfl : other = thread := hstopping.alone other thread
        (by simp [hother, ThreadStage.stopping]) (stopping_of_announced hannounced)
      rcases settling_of_moves hmoves hnow with ⟨hactor, _⟩ | ⟨hsettling, _⟩
      · exact absurd rfl (hactor .go)
      · simp [hlater] at hsettling

/-! ## Who can go on -/

section Steps

omit [DecidableEq Thread]

omit [DecidableEq Worker] in
theorem exists_notifies (state : State Worker Thread) : ∃ target, state.Notifies target := by
  by_cases hworker : ∃ worker, state.workers worker = .blocked
  · obtain ⟨worker, hblocked⟩ := hworker
    exact ⟨some (.worker worker), hblocked⟩
  · by_cases hmain : state.main = .blocked
    · exact ⟨some .main, hmain⟩
    · exact ⟨none, fun worker hblocked => hworker ⟨worker, hblocked⟩, hmain⟩

variable [Fintype Worker]

/-- A worker in its critical section can always go on. -/
theorem workerStep_of_holds {worker : Worker} {stage : WorkerStage} (hholds : stage.holds) :
    ∃ move, move ≠ Move.spurious ∧ (workerStep state worker stage move).isSome := by
  refine ⟨.go, by simp, ?_⟩
  cases stage with
  | evaluating => simp only [workerStep]; split <;> rfl
  | parking => rfl
  | taking =>
      simp only [workerStep]
      split
      next => split <;> rfl
      next => rfl
  | unstarted | top | locking | blocked | notified | popped | working | exited => cases hholds

theorem postStep_of_free (howner : state.owner = none) (post : Post) :
    ∃ move, move ≠ Move.spurious ∧ (postStep state post move).isSome := by
  cases post with
  | checking handle =>
      refine ⟨.go, by simp, ?_⟩
      simp only [postStep]
      split <;> rfl
  | counting handle => exact ⟨.go, by simp, rfl⟩
  | pushing handle =>
      obtain ⟨target, htarget⟩ := exists_notifies state
      exact ⟨.push target, by simp, by simp [postStep, howner, htarget]⟩

theorem roundStep_of_free (howner : state.owner = none) {round : Round}
    (hbody : (WorkerStage.working round).resumes = false)
    (hfinished : ∀ skipped, round ≠ .finished skipped) :
    ∃ move, move ≠ Move.spurious ∧ (roundStep state round move).isSome := by
  cases round with
  | ready handle | resumed handle =>
      refine ⟨.go, by simp, ?_⟩
      simp only [roundStep]
      split <;> rfl
  | resuming => cases hbody
  | rescheduling post =>
      obtain ⟨move, hmove, hpost⟩ := postStep_of_free howner post
      exact ⟨move, hmove, by simpa [roundStep] using hpost⟩
  | completing skipped =>
      refine ⟨.go, by simp, ?_⟩
      simp only [roundStep]
      split <;> rfl
  | decrementing skipped => exact ⟨.go, by simp, rfl⟩
  | finished skipped => exact absurd rfl (hfinished skipped)

/-- With the mutex free, a worker outside of a coroutine that is not blocked can go on. -/
theorem workerStep_of_free (howner : state.owner = none) {worker : Worker} {stage : WorkerStage}
    (hjoinable : stage.joinable = false) (hblocked : stage ≠ .blocked)
    (hbody : stage.resumes = false) :
    ∃ move, move ≠ Move.spurious ∧ (workerStep state worker stage move).isSome := by
  cases stage with
  | evaluating | parking | taking => exact workerStep_of_holds rfl
  | unstarted | exited => cases hjoinable
  | blocked => exact absurd rfl hblocked
  | top | popped =>
      refine ⟨.go, by simp, ?_⟩
      simp only [workerStep]
      split <;> rfl
  | locking | notified => exact ⟨.go, by simp, by simp [workerStep, howner]⟩
  | working round =>
      by_cases hfinished : ∃ skipped, round = .finished skipped
      · obtain ⟨skipped, rfl⟩ := hfinished
        exact ⟨.go, by simp, rfl⟩
      · have hother : ∀ skipped, round ≠ .finished skipped := fun skipped heq =>
          hfinished ⟨skipped, heq⟩
        obtain ⟨move, hmove, hround⟩ := roundStep_of_free howner hbody hother
        refine ⟨move, hmove, ?_⟩
        cases round with
        | finished skipped => exact absurd rfl (hother skipped)
        | ready | resuming | resumed | rescheduling | completing | decrementing =>
            simpa [workerStep] using hround

end Steps

/-! ## Runs -/

variable [Fintype Worker]

/-- The scheduler with the count. -/
def recorded (Worker Thread : Type) [DecidableEq Worker] [DecidableEq Thread] [Fintype Worker] :
    Machine (State Worker Thread × (Worker → Nat)) (Action Worker Thread) :=
  (machine Worker Thread).recording (fun _ => 0) record

/-- What a worker does itself: a spurious wake-up is not its own step. -/
def OwnStep (worker : Worker) (action : Action Worker Thread) : Prop :=
  ∃ move, move ≠ .spurious ∧ action = .worker worker move

/-- Every worker and every call of `stop` that can go on does so at some time, and every
`handle.resume()` returns. -/
structure Fairly (schedule : Nat → Option (Action Worker Thread)) : Prop where
  workers : ∀ worker, (recorded Worker Thread).Fair schedule (OwnStep worker)
  threads : ∀ thread, (recorded Worker Thread).Fair schedule (· = .thread thread .go)
  returns : ∀ worker, ∃ᶠ time in atTop,
    (((recorded Worker Thread).states schedule time).1.workers worker).resumes = false

variable {schedule : Nat → Option (Action Worker Thread)}

theorem moves_of_takes {time : Nat}
    (htakes : (recorded Worker Thread).Takes schedule time action) :
    Moves ((recorded Worker Thread).states schedule time).1 action
      ((recorded Worker Thread).states schedule (time + 1)).1 :=
  moves_of_step (Machine.recording_step htakes.2).1

theorem stopping_states
    (hmeets : (recorded Worker Thread).MeetsAlways schedule Unrestarted) (time : Nat) :
    Stopping ((recorded Worker Thread).states schedule time) := by
  refine Machine.states_invariant ?_ ?_ hmeets time
  · exact
      { held := fun _ => by simp [recorded, Machine.recording, machine, WorkerStage.holds]
        cleared := nofun
        alone := nofun
        released := nofun }
  · intro watched action after hstopping hunrestarted hstep
    obtain ⟨hnext, hrecord⟩ := Machine.recording_step hstep
    obtain ⟨next, _⟩ := after
    cases hrecord
    exact hstopping.moves hunrestarted (moves_of_step hnext)

theorem enabled_of_workerStep {watched : State Worker Thread × (Worker → Nat)} {worker : Worker}
    (hstep : ∃ move, move ≠ Move.spurious ∧
      (workerStep watched.1 worker (watched.1.workers worker) move).isSome) :
    (recorded Worker Thread).Enabled (OwnStep worker) watched := by
  obtain ⟨move, hmove, hsome⟩ := hstep
  refine ⟨.worker worker move, ⟨move, hmove, rfl⟩, ?_⟩
  simpa [recorded, Machine.recording, machine, step] using hsome

theorem enabled_of_joinable {watched : State Worker Thread × (Worker → Nat)} {thread : Thread}
    (hthread : watched.1.threads thread = .joining)
    (hworkers : ∀ worker, (watched.1.workers worker).joinable) :
    (recorded Worker Thread).Enabled (· = .thread thread .go) watched := by
  refine ⟨_, rfl, ?_⟩
  simp [recorded, Machine.recording, machine, step, threadStep, hthread, hworkers]

section Waiting

variable (hmeets : (recorded Worker Thread).MeetsAlways schedule Unrestarted)
  (hfairly : Fairly schedule) {thread : Thread}
  (hjoining : ∀ᶠ time in atTop,
    ((recorded Worker Thread).states schedule time).1.threads thread = .joining)

include hmeets hjoining

/-- From one time to the next a worker keeps still, or gets closer to its end, or
stays in the body of a coroutine. -/
theorem eventually_rank (worker : Worker) : ∀ᶠ time in atTop,
    let now := ((recorded Worker Thread).states schedule time).1.workers worker
    let later := ((recorded Worker Thread).states schedule (time + 1)).1.workers worker
    (later = now ∧ ¬ (recorded Worker Thread).Acts schedule (OwnStep worker) time) ∨
      later.rank < now.rank ∨ now.resumes ∧ later.resumes ∧ later.rank = now.rank := by
  filter_upwards [hjoining, (tendsto_add_atTop_nat 1).eventually hjoining] with time hnow hlater
  rcases Machine.takes_or_rests (recorded Worker Thread) schedule time with
    ⟨action, htakes⟩ | ⟨hidle, hrests⟩
  · refine (rank_of_moves (stopping_states hmeets time) (moves_of_takes htakes) hnow hlater
      worker).imp_left fun ⟨hsame, hother⟩ => ⟨hsame, ?_⟩
    rintro ⟨_, ⟨move, _, rfl⟩, hacts⟩
    exact hother move (hacts.unique htakes)
  · exact Or.inl ⟨by rw [hrests], hidle _⟩

include hfairly

/-- In the end a worker keeps still outside of coroutines. -/
theorem eventually_still (worker : Worker) : ∃ stage : WorkerStage, stage.resumes = false ∧
    ∀ᶠ time in atTop, ((recorded Worker Thread).states schedule time).1.workers worker = stage ∧
      ¬ (recorded Worker Thread).Acts schedule (OwnStep worker) time := by
  have hrank := eventually_rank hmeets hjoining worker
  have hlevel := Machine.eventually_level
    (fun time => (((recorded Worker Thread).states schedule time).1.workers worker).rank)
    (hrank.mono fun time htime => by
      rcases htime with ⟨hsame, _⟩ | hlt | ⟨_, _, heq⟩
      · exact le_of_eq (congrArg _ hsame)
      · exact hlt.le
      · exact heq.le)
  have hcases := hrank.and hlevel
  have hbody := Machine.eventually_not
    (fun time =>
      (((recorded Worker Thread).states schedule time).1.workers worker).resumes = true)
    (hcases.mono fun time ⟨hcase, hequal⟩ hresumes => by
      rcases hcase with ⟨hsame, _⟩ | hlt | ⟨_, hlater, _⟩
      · rwa [hsame]
      · exact absurd hequal hlt.ne
      · exact hlater)
    ((hfairly.returns worker).mono fun time hreturns => by simp [hreturns])
  have hstill := (hcases.and hbody).mono fun time ⟨⟨hcase, hequal⟩, hout⟩ => by
    rcases hcase with hstays | hlt | ⟨hresumes, _⟩
    · exact hstays
    · exact absurd hequal hlt.ne
    · exact absurd hresumes hout
  obtain ⟨stage, hstage⟩ := Machine.eventually_constant
    (fun time => ((recorded Worker Thread).states schedule time).1.workers worker)
    (hstill.mono fun _ => And.left)
  refine ⟨stage, ?_, (hstage.and hstill).mono fun _ ⟨hsame, _, hidle⟩ => ⟨hsame, hidle⟩⟩
  obtain ⟨time, hsame, hout⟩ := (hstage.and hbody).exists
  simpa [hsame] using hout

/-- In the end nobody is in a critical section. -/
theorem eventually_free : ∀ᶠ time in atTop,
    ((recorded Worker Thread).states schedule time).1.owner = none := by
  have hout : ∀ worker, ∀ᶠ time in atTop,
      (((recorded Worker Thread).states schedule time).1.workers worker).holds = false := by
    intro worker
    obtain ⟨stage, _, hstage⟩ := eventually_still hmeets hfairly hjoining worker
    refine hstage.mono fun time ⟨hsame, _⟩ => ?_
    rw [hsame]
    by_contra hholds
    refine (hfairly.workers worker).not_eventually_enabled (hstage.mono fun _ => And.right)
      (hstage.mono fun later ⟨hlater, _⟩ => enabled_of_workerStep ?_)
    rw [hlater]
    exact workerStep_of_holds (by simpa using hholds)
  filter_upwards [Filter.eventually_all.mpr hout] with time hnone
  cases howner : ((recorded Worker Thread).states schedule time).1.owner with
  | none => rfl
  | some worker =>
      have hholds := ((stopping_states hmeets time).held worker).mpr howner
      simp [hnone worker] at hholds

theorem eventually_joinable : ∀ᶠ time in atTop, ∀ worker,
    (((recorded Worker Thread).states schedule time).1.workers worker).joinable := by
  refine Filter.eventually_all.mpr fun worker => ?_
  obtain ⟨stage, hbody, hstage⟩ := eventually_still hmeets hfairly hjoining worker
  refine hstage.mono fun time ⟨hsame, _⟩ => ?_
  rw [hsame]
  by_contra hjoinable
  refine (hfairly.workers worker).not_eventually_enabled (hstage.mono fun _ => And.right) ?_
  filter_upwards [hstage, hjoining, eventually_free hmeets hfairly hjoining] with later
    ⟨hlater, _⟩ hthread howner
  apply enabled_of_workerStep
  have hreleased := (stopping_states hmeets later).released thread
    (by simp [hthread, ThreadStage.announced]) worker
  rw [hlater] at hreleased ⊢
  exact workerStep_of_free howner (by simpa using hjoinable) hreleased.1 hbody

end Waiting

/-- A stop strands no worker. After `notify_all` no worker is blocked or can block again,
and each resumes at most one coroutine; when the threads are scheduled fairly and every
`handle.resume()` returns, all workers leave and the calls of `join` return. -/
theorem stop_strands_nobody (schedule : Nat → Option (Action Worker Thread))
    (hmeets : (recorded Worker Thread).MeetsAlways schedule Unrestarted) :
    (∀ time, Released ((recorded Worker Thread).states schedule time)) ∧
      (Fairly schedule → ∀ time thread,
        ((recorded Worker Thread).states schedule time).1.threads thread = .joining →
          ∃ later, time ≤ later ∧
            (∀ worker, (((recorded Worker Thread).states schedule later).1.workers
              worker).joinable) ∧
            ((recorded Worker Thread).states schedule (later + 1)).1.threads thread =
              .settling) := by
  refine ⟨fun time => (stopping_states hmeets time).released_state, ?_⟩
  intro hfairly time thread hthread
  by_contra hnever
  -- otherwise the call waits for ever
  have hwaits : ∀ later, time ≤ later →
      ((recorded Worker Thread).states schedule later).1.threads thread = .joining ∧
        ¬ (recorded Worker Thread).Acts schedule (· = .thread thread .go) later := by
    have hstep : ∀ later, time ≤ later →
        ((recorded Worker Thread).states schedule later).1.threads thread = .joining →
        ((recorded Worker Thread).states schedule (later + 1)).1.threads thread = .joining ∧
          ¬ (recorded Worker Thread).Acts schedule (· = .thread thread .go) later := by
      intro later hlater hnow
      rcases Machine.takes_or_rests (recorded Worker Thread) schedule later with
        ⟨action, htakes⟩ | ⟨hidle, hrests⟩
      · rcases settling_of_moves (moves_of_takes htakes) hnow with ⟨hother, hkept⟩ |
          ⟨hsettling, hworkers⟩
        · refine ⟨hkept, ?_⟩
          rintro ⟨_, rfl, hacts⟩
          exact hother .go (hacts.unique htakes)
        · exact absurd ⟨later, hlater, hworkers, hsettling⟩ hnever
      · exact ⟨by rw [hrests, hnow], hidle _⟩
    have hstays : ∀ later, time ≤ later →
        ((recorded Worker Thread).states schedule later).1.threads thread = .joining := by
      intro later hlater
      induction later, hlater using Nat.le_induction with
      | base => exact hthread
      | succ later hlater ih => exact (hstep later hlater ih).1
    exact fun later hlater => ⟨hstays later hlater, (hstep later hlater (hstays later hlater)).2⟩
  have hjoining : ∀ᶠ later in atTop,
      ((recorded Worker Thread).states schedule later).1.threads thread = .joining :=
    eventually_atTop.mpr ⟨time, fun later hlater => (hwaits later hlater).1⟩
  refine (hfairly.threads thread).not_eventually_enabled
    (eventually_atTop.mpr ⟨time, fun later hlater => (hwaits later hlater).2⟩) ?_
  filter_upwards [hjoining, eventually_joinable hmeets hfairly hjoining] with later hnow hworkers
  exact enabled_of_joinable hnow hworkers

/-- A stop that clears the flag while a worker is about to block. -/
def window (time : Nat) : Option (Action Bool Unit) :=
  [.main .go, .main .go, .main (.spawn false), .main (.spawn true), .main .go,
    .worker false .go, .worker false .go, .worker false .go, .thread () .stop, .thread () .go,
    .worker false .go, .thread () .go, .worker true .go, .worker false .go, .worker false .go,
    .worker false .go, .thread () .go, .thread () .go, .thread () .go, .thread () .go][time]?

theorem stop_strands_nobody_window :
    ∃ later, 12 ≤ later ∧
      (∀ worker, (((recorded Bool Unit).states window later).1.workers worker).joinable) ∧
      ((recorded Bool Unit).states window (later + 1)).1.threads () = .settling := by
  have hsilent : ∀ time, 20 ≤ time → window time = none := fun time htime =>
    List.getElem?_eq_none htime
  have hmeets : (recorded Bool Unit).MeetsAlways window Unrestarted := by
    have hfirst : ∀ time < 20, window time = some (.main .go) →
        ((recorded Bool Unit).states window time).1.main = .initializing →
        ∀ thread,
          (((recorded Bool Unit).states window time).1.threads thread).stopping = false := by
      decide
    rintro time action ⟨hschedule, -⟩ rfl hmain
    refine hfirst time ?_ hschedule hmain
    by_contra htime
    rw [hsilent time (by omega)] at hschedule
    cases hschedule
  have hfairly : Fairly window :=
    { workers := fun worker => by
        apply Machine.fair_of_silent hsilent
        rintro ⟨_, ⟨move, _, rfl⟩, hsome⟩
        cases hsome
      threads := fun thread => by
        apply Machine.fair_of_silent hsilent
        rintro ⟨_, rfl, hsome⟩
        cases hsome
      returns := fun worker => by
        refine (eventually_atTop.mpr ⟨20, fun time htime => ?_⟩).frequently
        rw [Machine.states_of_silent hsilent time htime]
        rfl }
  exact (stop_strands_nobody window hmeets).2 hfairly 12 () rfl

end Joining

end Tang.Scheduler
