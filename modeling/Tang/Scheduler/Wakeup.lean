import Tang.Scheduler.Parties

/-! # Wake-ups of the task queue

Before a stop no worker leaves its loop. One `notify_one` for each push is then
enough: a queue with tasks and a blocked worker is covered by a worker that is
not blocked, or holds the one task whose notification the thread inside `run`
has received.
-/

namespace Tang.Scheduler

open Foundation

variable {Worker Thread : Type} {state next : State Worker Thread}

/-- A worker thread in its loop that is not blocked without a notification. -/
def WorkerStage.awake : WorkerStage → Bool
  | .unstarted | .blocked | .exited => false
  | _ => true

/-- Woken up from the timed wait, before the pop. -/
def MainStage.woken : MainStage → Bool
  | .notified | .expired => true
  | _ => false

/-- The queue has a task and a worker is blocked, but nobody is about to pop: every
worker in its loop is blocked, and the thread inside `run` is not on its way from a
timed wait to the queue. -/
def LostWakeup (state : State Worker Thread) : Prop :=
  state.queue ≠ [] ∧ (∃ worker, state.workers worker = .blocked) ∧
    (∀ worker, (state.workers worker).awake = false) ∧ state.main.woken = false

/-- Nobody has called `stop`, and the workers run. -/
structure Unstopped (state : State Worker Thread) : Prop where
  threads : ∀ thread, state.threads thread = .idle ∨ ∃ post, state.threads thread = .posting post
  exited : ∀ worker, state.workers worker ≠ .exited
  spawning : state.main = .spawning → state.running
  started : ∀ worker, state.workers worker ≠ .unstarted → state.running

/-- A worker that has found the queue empty still holds the mutex. -/
def Vacant (state : State Worker Thread) : Prop :=
  ∀ worker, state.workers worker = .parking → state.queue = []

/-- A blocked worker is needed for no task. -/
def Covered (state : State Worker Thread) : Prop :=
  (∃ worker, state.workers worker = .blocked) → state.queue = [] ∨
    (∃ worker, (state.workers worker).awake) ∨ (state.main.woken ∧ state.queue.length = 1)

theorem Covered.not_lostWakeup (hcovered : Covered state) : ¬ LostWakeup state := by
  rintro ⟨hqueue, hblocked, hasleep, hmain⟩
  rcases hcovered hblocked with hempty | ⟨worker, hawake⟩ | ⟨hwoken, _⟩
  · exact hqueue hempty
  · simp [hasleep worker] at hawake
  · simp [hmain] at hwoken

namespace Covered

theorem of_awake (worker : Worker) (hawake : (state.workers worker).awake) : Covered state :=
  fun _ => Or.inr (Or.inl ⟨worker, hawake⟩)

/-- The thread inside `run`, which has received no notification, does something else
than pop. -/
theorem congr (hcovered : Covered state) (hmain : state.main.woken = false)
    (hworkers : next.workers = state.workers) (hqueue : next.queue = state.queue) :
    Covered next := by
  intro hblocked
  rw [hworkers] at hblocked ⊢
  rw [hqueue]
  rcases hcovered hblocked with hempty | hawake | ⟨hwoken, _⟩
  · exact Or.inl hempty
  · exact Or.inr (Or.inl hawake)
  · simp [hmain] at hwoken

/-- The thread inside `run` pops. -/
theorem pop (hcovered : Covered state) {handle : Handle} {rest : List Handle}
    (hqueue : state.queue = handle :: rest) (hworkers : next.workers = state.workers)
    (hnext : next.queue = rest) : Covered next := by
  intro hblocked
  rw [hworkers] at hblocked ⊢
  rcases hcovered hblocked with hempty | hawake | ⟨_, hlength⟩
  · simp [hqueue] at hempty
  · exact Or.inr (Or.inl hawake)
  · apply Or.inl
    rw [hqueue, List.length_cons] at hlength
    rw [hnext]
    exact List.length_eq_zero_iff.mp (by omega)

variable [DecidableEq Worker]

/-- The notification of a push goes to a worker, to the thread inside `run`, or to
nobody when nobody is blocked. -/
theorem push (hcovered : Covered state) (handle : Handle) {target : Option (Waiter Worker)}
    (htarget : state.Notifies target) : Covered (state.push handle target) := by
  cases target with
  | none =>
      rintro ⟨worker, hblocked⟩
      exact absurd hblocked (htarget.1 worker)
  | some waiter =>
      cases waiter with
      | worker worker =>
          have hwoken : (state.push handle (some (.worker worker))).workers worker = .notified := by
            simp [State.push_workers]
          exact of_awake worker (congrArg WorkerStage.awake hwoken)
      | main =>
          rintro ⟨worker, hblocked⟩
          rcases hcovered ⟨worker, hblocked⟩ with hempty | ⟨other, hawake⟩ | ⟨hwoken, _⟩
          · exact Or.inr (Or.inr ⟨rfl, by simp [hempty]⟩)
          · exact Or.inr (Or.inl ⟨other, hawake⟩)
          · have hmain : state.main = .blocked := htarget
            simp [hmain, MainStage.woken] at hwoken

end Covered

/-! ## The steps -/

variable [DecidableEq Worker]

/-- A step with a popped handle wakes only who is blocked. -/
theorem Rounds.main_eq {round later : Round} {move : Move Worker}
    (hrounds : Rounds state round move next later) (hmain : state.main ≠ .blocked) :
    next.main = state.main := by
  rcases hrounds.frame with ⟨active, done, rfl⟩ | ⟨handle, target, _, htarget, rfl⟩
  · rfl
  · rw [State.push_main]
    split
    next heq =>
      subst heq
      exact absurd htarget hmain
    next => rfl

theorem Covered.rounds (hcovered : Covered state) {round later : Round} {move : Move Worker}
    (hrounds : Rounds state round move next later) : Covered next := by
  rcases hrounds.frame with ⟨active, done, rfl⟩ | ⟨handle, target, _, htarget, rfl⟩
  · exact hcovered
  · exact hcovered.push handle htarget

theorem Covered.of_works (hvacant : Vacant state) (hunstopped : Unstopped state)
    {worker : Worker} {move : Move Worker} {later : WorkerStage}
    (hworks : Works state worker (state.workers worker) move next later) :
    Covered (next.setWorker worker later) := by
  have hawake : later.awake → Covered (next.setWorker worker later) := fun hlater =>
    of_awake worker (by rwa [State.setWorker_self])
  have hstarted := hunstopped.started worker
  have hempty := hvacant worker
  generalize state.workers worker = stage at hworks hstarted hempty
  cases hworks with
  | enters | locks | relocks | parks | passes | stirs | misses | pops | returns | keeps | ends
  | works => exact hawake rfl
  | blocks => exact fun _ => Or.inl (hempty rfl)
  | leaves hrunning | quits hrunning | drops _ hrunning =>
      simp [hstarted (by simp)] at hrunning

omit [DecidableEq Worker] in
theorem Covered.pops (hcovered : Covered state) {empty later : MainStage}
    (hpops : Pops state empty next later) : Covered (next.setMain later) := by
  cases hpops with
  | misses _ hqueue => exact fun _ => Or.inl hqueue
  | pops handle rest _ hqueue => exact hcovered.pop hqueue rfl rfl

theorem Covered.mains (hcovered : Covered state) {move : Move Worker} {later : MainStage}
    (hmains : Mains state state.main move next later) : Covered (next.setMain later) := by
  generalize hstage : state.main = stage at hmains
  cases hmains with
  | strolls _ _ _ hstrolls =>
      have hmain : state.main.woken = false := by
        rw [hstage]
        cases hstrolls <;> rfl
      obtain ⟨lastActive, noProgress, rounds, rfl⟩ := hstrolls.frame
      exact hcovered.congr hmain rfl rfl
  | starts | stirs | expires => exact hcovered.congr (by rw [hstage]; rfl) rfl rfl
  | spawns worker =>
      exact of_awake worker
        (congrArg WorkerStage.awake (State.setWorker_self state worker .top))
  | locks _ _ hpops | relocks _ _ hpops | gives _ _ hpops => exact hcovered.pops hpops
  | pops handle rest _ hqueue => exact hcovered.pop hqueue rfl rfl
  | works _ _ _ _ hrounds | extras _ _ _ _ hrounds =>
      refine (hcovered.rounds hrounds).congr ?_ rfl rfl
      rw [hrounds.main_eq (by simp [hstage]), hstage]
      rfl

variable [DecidableEq Thread]

/-- A worker about to block holds the mutex, so nobody pushes. -/
theorem Vacant.moves (hvacant : Vacant state) (hheld : Held state)
    {action : Action Worker Thread} (hmoves : Moves state action next) : Vacant next := by
  intro worker hparking
  have hfares := fares_of_moves hmoves worker
  rw [hparking] at hfares
  generalize hlater : WorkerStage.parking = later at hfares
  cases hfares with
  | stays =>
      have hempty := hvacant worker hlater.symm
      cases serves_of_moves hmoves with
      | keeps _ hqueue => rwa [hqueue]
      | pushes _ _ howner =>
          have hholds := hheld worker
          rw [← hlater, howner] at hholds
          cases hholds.mp rfl
      | worker _ _ hqueue | main _ hqueue => simp [hempty] at hqueue
      | clears _ _ hqueue => exact hqueue
  | works move middle _ hworks hnext =>
      subst hlater hnext
      generalize state.workers worker = stage at hworks
      cases hworks with
      | parks hqueue => exact hqueue
  | woken | spawned | joined => cases hlater

omit [DecidableEq Worker] [DecidableEq Thread] in
theorem Strolls.ne_spawning {stage later : MainStage} (hstrolls : Strolls state stage next later) :
    later ≠ .spawning := by
  cases hstrolls with
  | tests _ hlater | inspects _ hlater | probes _ hlater | compares _ _ _ _ hlater =>
      rcases hlater with rfl | rfl <;> simp
  | lingers _ hlater => rcases hlater with rfl | rfl | rfl <;> simp
  | ends skipped => cases skipped <;> simp
  | calls | skips | spawned | checks | sweeps | rests | finds | returns | leaves => simp

theorem Unstopped.running_moves (hunstopped : Unstopped state) {action : Action Worker Thread}
    (hmoves : Moves state action next) (hrunning : state.running) : next.running := by
  cases flips_of_moves hmoves with
  | keeps _ hkept => rwa [hkept]
  | sets _ _ hnext => exact hnext
  | clears thread hthread =>
      have hidle := hunstopped.threads thread
      simp [hthread] at hidle

theorem Unstopped.moves (hunstopped : Unstopped state) {action : Action Worker Thread}
    (hmoves : Moves state action next) (hstop : ∀ thread, action ≠ .thread thread .stop) :
    Unstopped next where
  threads thread := by
    have hattends := attends_of_moves hmoves thread
    have hthread := hunstopped.threads thread
    generalize next.threads thread = stage at hattends ⊢
    cases hattends with
    | stays => exact hthread
    | threads move middle later hthreads =>
        generalize state.threads thread = stage at hthread hthreads
        cases hthreads with
        | calls handle => exact Or.inr ⟨_, rfl⟩
        | posts _ _ _ rest =>
            cases rest with
            | none => exact Or.inl rfl
            | some post => exact Or.inr ⟨post, rfl⟩
        | stops => exact absurd rfl (hstop thread)
        | clears | skips | notifies | joins | settles | destroys | resets => simp at hthread
  exited worker := by
    have hfares := fares_of_moves hmoves worker
    have hstarted := hunstopped.started worker
    generalize next.workers worker = stage at hfares
    cases hfares with
    | stays => exact hunstopped.exited worker
    | woken | spawned => simp
    | works move middle later hworks =>
        generalize state.workers worker = stage at hstarted hworks
        cases hworks with
        | leaves hrunning | quits hrunning | drops _ hrunning =>
            simp [hstarted (by simp)] at hrunning
        | enters | locks | relocks | parks | passes | blocks | stirs | misses | pops | returns
        | keeps | ends | works => simp
    | joined => simp
  spawning := by
    have hproceeds := proceeds_of_moves hmoves
    have hkept := hunstopped.running_moves hmoves
    generalize next.main = stage at hproceeds
    cases hproceeds with
    | stays => exact fun hmain => hkept (hunstopped.spawning hmain)
    | woken => simp
    | mains move middle later hmains hnext =>
        generalize hstage : state.main = stage at hmains
        cases hmains with
        | strolls _ _ _ hstrolls => exact fun hlater => absurd hlater hstrolls.ne_spawning
        | starts =>
            rw [hnext]
            exact fun _ => rfl
        | spawns => exact fun _ => hkept (hunstopped.spawning hstage)
        | locks _ _ hpops | relocks _ _ hpops | gives _ _ hpops => cases hpops <;> simp
        | stirs | expires | works | pops | extras => simp
  started worker := by
    have hfares := fares_of_moves hmoves worker
    have hkept := hunstopped.running_moves hmoves
    have hstarted := hunstopped.started worker
    generalize next.workers worker = stage at hfares
    cases hfares with
    | stays => exact fun hworker => hkept (hstarted hworker)
    | woken _ hblocked => exact fun _ => hkept (hstarted (by simp [hblocked]))
    | works move middle later hworks =>
        refine fun _ => hkept (hstarted ?_)
        rintro hunstarted
        rw [hunstarted] at hworks
        cases hworks
    | spawned _ hmain => exact fun _ => hkept (hunstopped.spawning hmain)
    | joined => simp

/-! ## Runs -/

/-- What the steps before a stop keep. -/
structure Awake (state : State Worker Thread) : Prop where
  unstopped : Unstopped state
  held : Held state
  vacant : Vacant state
  covered : Covered state

theorem Covered.moves (hcovered : Covered state) (hvacant : Vacant state)
    (hunstopped : Unstopped state) {action : Action Worker Thread}
    (hmoves : Moves state action next) : Covered next := by
  cases hmoves with
  | works _ _ _ _ hworks => exact of_works hvacant hunstopped hworks
  | mains _ _ _ hmains => exact hcovered.mains hmains
  | threads thread move middle later hthreads =>
      have hthread := hunstopped.threads thread
      generalize state.threads thread = stage at hthread hthreads
      cases hthreads with
      | calls | stops => exact hcovered
      | posts _ _ _ _ hposts =>
          rcases hposts.frame with ⟨active, rfl⟩ | ⟨handle, target, _, htarget, rfl⟩
          · exact hcovered
          · exact hcovered.push handle htarget
      | clears | skips | notifies | joins | settles | destroys | resets => simp at hthread
  | completes => exact hcovered

theorem Awake.moves (hawake : Awake state) {action : Action Worker Thread}
    (hmoves : Moves state action next) (hstop : ∀ thread, action ≠ .thread thread .stop) :
    Awake next where
  unstopped := hawake.unstopped.moves hmoves hstop
  held := hawake.held.moves hmoves
  vacant := hawake.vacant.moves hawake.held hmoves
  covered := hawake.covered.moves hawake.vacant hawake.unstopped hmoves

variable [Fintype Worker]

/-- No wake-up is lost before a stop. -/
theorem not_lostWakeup_of_unstopped (actions : List (Action Worker Thread))
    (hmeets : (machine Worker Thread).Meets
      (fun _ action => ∀ thread, action ≠ .thread thread .stop) (machine Worker Thread).start
      actions) :
    (machine Worker Thread).Along (fun state => ¬ LostWakeup state) (machine Worker Thread).start
      actions := by
  have hstart : Awake (machine Worker Thread).start :=
    { unstopped := ⟨fun _ => Or.inl rfl, fun _ => by simp [machine], by simp [machine],
        by simp [machine]⟩
      held := fun _ => by simp [machine, WorkerStage.holds]
      vacant := fun _ => by simp [machine]
      covered := fun _ => Or.inl rfl }
  exact Machine.along_of_meets Awake
    (fun _ _ _ hawake hstop hnext => hawake.moves (moves_of_step hnext) hstop)
    (fun _ hawake => hawake.covered.not_lostWakeup) hstart hmeets

/-- Both workers are blocked when a task is scheduled, and the worker that is
notified loses the task to the thread inside `run`. -/
theorem not_lostWakeup_of_unstopped_overtaken :
    (machine Bool Unit).Along (fun state => ¬ LostWakeup state) (machine Bool Unit).start
      [.main .go, .main .go, .main (.spawn false), .main (.spawn true), .main .go,
        .worker false .go, .worker false .go, .worker false .go, .worker false .go,
        .worker true .go, .worker true .go, .worker true .go, .worker true .go,
        .thread () (.call 7), .thread () .go, .thread () .go,
        .thread () (.push (some (.worker true))), .main .go, .main .go, .worker true .go,
        .worker true .go] :=
  not_lostWakeup_of_unstopped _ (by decide)

end Tang.Scheduler
