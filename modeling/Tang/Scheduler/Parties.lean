import Tang.Scheduler.Moves

/-! # What a step does to one party

Each step is one party's, and touches another party only when that one is blocked or
joined. The same step is described here for a worker, for the thread inside `run`, for
a thread that calls `schedule` and `stop`, for `running_`, and for the queue.
-/

namespace Tang.Scheduler

variable {Worker Thread : Type} [DecidableEq Worker] [DecidableEq Thread]
  {state next : State Worker Thread}

/-- The stage of a worker after a step of anybody. -/
inductive Fares (state next : State Worker Thread) (worker : Worker) :
    Action Worker Thread → WorkerStage → Prop
  | stays (action : Action Worker Thread) (hother : ∀ move, action ≠ .worker worker move) :
      Fares state next worker action (state.workers worker)
  | woken (action : Action Worker Thread) (hblocked : state.workers worker = .blocked) :
      Fares state next worker action .notified
  | works (move : Move Worker) (middle : State Worker Thread) (later : WorkerStage)
      (hworks : Works state worker (state.workers worker) move middle later)
      (hnext : next = middle.setWorker worker later) :
      Fares state next worker (.worker worker move) later
  | spawned (hworker : state.workers worker = .unstarted) (hmain : state.main = .spawning) :
      Fares state next worker (.main (.spawn worker)) .top
  | joined (thread : Thread) (hthread : state.threads thread = .joining)
      (hworkers : ∀ other, (state.workers other).joinable) :
      Fares state next worker (.thread thread .go) .unstarted

/-- `running_` after a step. -/
inductive Flips (state next : State Worker Thread) : Action Worker Thread → Prop
  | keeps (action : Action Worker Thread) (hrunning : next.running = state.running) :
      Flips state next action
  | sets (hmain : state.main = .initializing) (hrunning : state.running = false)
      (hnext : next.running = true) : Flips state next (.main .go)
  | clears (thread : Thread) (hthread : state.threads thread = .exchanging)
      (hrunning : state.running = true) (hnext : next.running = false)
      (hlater : next.threads thread = .notifying) : Flips state next (.thread thread .go)

/-- The stage of the thread inside `run` after a step of anybody. -/
inductive Proceeds (state next : State Worker Thread) : Action Worker Thread → MainStage → Prop
  | stays (action : Action Worker Thread) (hother : ∀ move, action ≠ .main move) :
      Proceeds state next action state.main
  | woken (action : Action Worker Thread) (hblocked : state.main = .blocked) :
      Proceeds state next action .notified
  | mains (move : Move Worker) (middle : State Worker Thread) (later : MainStage)
      (hmains : Mains state state.main move middle later) (hnext : next = middle.setMain later) :
      Proceeds state next (.main move) later

/-- The stage of another thread after a step of anybody. -/
inductive Attends (state next : State Worker Thread) (thread : Thread) :
    Action Worker Thread → ThreadStage → Prop
  | stays (action : Action Worker Thread) (hother : ∀ move, action ≠ .thread thread move) :
      Attends state next thread action (state.threads thread)
  | threads (move : Move Worker) (middle : State Worker Thread) (later : ThreadStage)
      (hthreads : Threads state (state.threads thread) move middle later)
      (hnext : next = middle.setThread thread later) :
      Attends state next thread (.thread thread move) later

/-- The queue and the calls of `destroy()` after a step. -/
inductive Serves (state next : State Worker Thread) : Action Worker Thread → Prop
  | keeps (action : Action Worker Thread) (hqueue : next.queue = state.queue)
      (hdestroyed : next.destroyed = state.destroyed) : Serves state next action
  | pushes (action : Action Worker Thread) (handle : Handle) (howner : state.owner = none)
      (hqueue : next.queue = state.queue ++ [handle])
      (hdestroyed : next.destroyed = state.destroyed) : Serves state next action
  | worker (worker : Worker) (front : Handle) (hqueue : state.queue = front :: next.queue)
      (hnext : next.workers worker = .popped (some front))
      (hdestroyed : next.destroyed = state.destroyed) : Serves state next (.worker worker .go)
  | main (front : Handle) (hqueue : state.queue = front :: next.queue)
      (hnext : next.main = .working (.ready front) ∨ next.main = .extra (.ready front))
      (hdestroyed : next.destroyed = state.destroyed) : Serves state next (.main .go)
  | clears (thread : Thread) (hthread : state.threads thread = .clearing)
      (hqueue : next.queue = [])
      (hdestroyed : next.destroyed =
        state.destroyed ++ state.queue.filter fun handle => !state.done handle) :
      Serves state next (.thread thread .go)

/-- Of the other parties a step touches only blocked ones. -/
structure Spares (state next : State Worker Thread) : Prop where
  worker : ∀ worker, next.workers worker = state.workers worker ∨
    state.workers worker = .blocked ∧ next.workers worker = .notified
  main : next.main = state.main ∨ state.main = .blocked ∧ next.main = .notified
  threads : next.threads = state.threads
  running : next.running = state.running

namespace Spares

omit [DecidableEq Worker] [DecidableEq Thread] in
theorem congr (hworkers : next.workers = state.workers) (hmain : next.main = state.main)
    (hthreads : next.threads = state.threads) (hrunning : next.running = state.running) :
    Spares state next :=
  ⟨fun _ => Or.inl (by rw [hworkers]), Or.inl hmain, hthreads, hrunning⟩

omit [DecidableEq Thread] in
theorem push (handle : Handle) {target : Option (Waiter Worker)}
    (htarget : state.Notifies target) : Spares state (state.push handle target) where
  worker worker := by
    rw [State.push_workers]
    split
    next heq =>
      subst heq
      exact Or.inr ⟨htarget, rfl⟩
    next => exact Or.inl rfl
  main := by
    rw [State.push_main]
    split
    next heq =>
      subst heq
      exact Or.inr ⟨htarget, rfl⟩
    next => exact Or.inl rfl
  threads := State.push_threads _ _ _
  running := State.push_running _ _ _

end Spares

omit [DecidableEq Thread] in
theorem Posts.spares {post : Post} {move : Move Worker} {rest : Option Post}
    (hposts : Posts state post move next rest) : Spares state next := by
  rcases hposts.frame with ⟨active, rfl⟩ | ⟨handle, target, _, htarget, rfl⟩
  · exact .congr rfl rfl rfl rfl
  · exact .push handle htarget

omit [DecidableEq Thread] in
theorem Rounds.spares {round later : Round} {move : Move Worker}
    (hrounds : Rounds state round move next later) : Spares state next := by
  rcases hrounds.frame with ⟨active, done, rfl⟩ | ⟨handle, target, _, htarget, rfl⟩
  · exact .congr rfl rfl rfl rfl
  · exact .push handle htarget

omit [DecidableEq Thread] in
theorem Rounds.owner {round later : Round} {move : Move Worker}
    (hrounds : Rounds state round move next later) : next.owner = state.owner := by
  rcases hrounds.frame with ⟨active, done, rfl⟩ | ⟨handle, target, _, _, rfl⟩
  · rfl
  · exact State.push_owner _ _ _

omit [DecidableEq Thread] in
theorem Works.spares {worker : Worker} {stage later : WorkerStage} {move : Move Worker}
    (hworks : Works state worker stage move next later) : Spares state next := by
  cases hworks with
  | works _ _ _ _ hrounds => exact hrounds.spares
  | enters | leaves | locks | relocks | parks | passes | blocks | stirs | misses | pops | quits
  | returns | keeps | drops | ends => exact .congr rfl rfl rfl rfl

omit [DecidableEq Thread] in
theorem Mains.threads {stage later : MainStage} {move : Move Worker}
    (hmains : Mains state stage move next later) : next.threads = state.threads := by
  cases hmains with
  | strolls _ _ _ hstrolls =>
      obtain ⟨lastActive, noProgress, rounds, rfl⟩ := hstrolls.frame
      rfl
  | locks _ _ hpops | relocks _ _ hpops | gives _ _ hpops => cases hpops <;> rfl
  | works _ _ _ _ hrounds | extras _ _ _ _ hrounds => exact hrounds.spares.threads
  | starts | spawns | stirs | expires | pops => rfl

theorem fares_of_moves {action : Action Worker Thread} (hmoves : Moves state action next)
    (worker : Worker) : Fares state next worker action (next.workers worker) := by
  have hspares : ∀ middle, Spares state middle → middle.workers worker = next.workers worker →
      (∀ move, action ≠ .worker worker move) →
      Fares state next worker action (next.workers worker) := by
    intro middle hmiddle heq hother
    rw [← heq]
    rcases hmiddle.worker worker with hstays | ⟨hblocked, hwoken⟩
    · rw [hstays]
      exact .stays action hother
    · rw [hwoken]
      exact .woken action hblocked
  cases hmoves with
  | works mover move middle later hworks =>
      by_cases hworker : worker = mover
      · subst hworker
        rw [State.setWorker_self]
        exact .works move middle later hworks rfl
      · exact hspares middle hworks.spares (State.setWorker_of_ne _ _ _ hworker).symm
          fun _ heq => hworker (by cases heq; rfl)
  | mains move middle later hmains =>
      generalize hmain : state.main = stage at hmains
      cases hmains with
      | strolls _ _ _ hstrolls =>
          obtain ⟨lastActive, noProgress, rounds, rfl⟩ := hstrolls.frame
          exact .stays _ nofun
      | locks _ _ hpops | relocks _ _ hpops | gives _ _ hpops =>
          cases hpops <;> exact .stays _ nofun
      | works _ _ _ _ hrounds | extras _ _ _ _ hrounds =>
          exact hspares middle hrounds.spares rfl nofun
      | starts | stirs | expires | pops => exact .stays _ nofun
      | spawns other hother =>
          by_cases hworker : worker = other
          · subst hworker
            have hnext : ((state.setWorker worker .top).setMain .spawning).workers worker = .top :=
              State.setWorker_self _ _ _
            rw [hnext]
            exact .spawned hother hmain
          · exact hspares state (.congr rfl rfl rfl rfl)
              (State.setWorker_of_ne _ _ _ hworker).symm nofun
  | threads thread move middle later hthreads =>
      generalize hthread : state.threads thread = stage at hthreads
      cases hthreads with
      | posts _ _ _ _ hposts => exact hspares middle hposts.spares rfl nofun
      | calls | stops | clears | skips | settles | destroys | resets => exact .stays _ nofun
      | notifies =>
          have hnext : (state.wakeAll.setThread thread .joining).workers worker =
              if state.workers worker = .blocked then .notified else state.workers worker := rfl
          rw [hnext]
          split
          next hblocked => exact .woken _ hblocked
          next => exact .stays _ nofun
      | joins hworkers => exact .joined thread hthread hworkers
  | completes => exact .stays _ nofun

theorem proceeds_of_moves {action : Action Worker Thread} (hmoves : Moves state action next) :
    Proceeds state next action next.main := by
  have hspares : ∀ middle, Spares state middle → middle.main = next.main →
      (∀ move, action ≠ .main move) → Proceeds state next action next.main := by
    intro middle hmiddle heq hother
    rw [← heq]
    rcases hmiddle.main with hstays | ⟨hblocked, hwoken⟩
    · rw [hstays]
      exact .stays action hother
    · rw [hwoken]
      exact .woken action hblocked
  cases hmoves with
  | works mover move middle later hworks => exact hspares middle hworks.spares rfl nofun
  | mains move middle later hmains => exact .mains move middle later hmains rfl
  | threads thread move middle later hthreads =>
      generalize state.threads thread = stage at hthreads
      cases hthreads with
      | posts _ _ _ _ hposts => exact hspares middle hposts.spares rfl nofun
      | notifies =>
          have hnext : (state.wakeAll.setThread thread .joining).main =
              if state.main = .blocked then .notified else state.main := rfl
          rw [hnext]
          split
          next hblocked => exact .woken _ hblocked
          next => exact .stays _ nofun
      | calls | stops | clears | skips | joins | settles | destroys | resets => exact .stays _ nofun
  | completes => exact .stays _ nofun

omit [DecidableEq Thread] in
/-- A call of `schedule` or `stop` leaves the other calls alone. -/
theorem Threads.threads {stage later : ThreadStage} {move : Move Worker}
    (hthreads : Threads state stage move next later) : next.threads = state.threads := by
  cases hthreads with
  | posts _ _ _ _ hposts => exact hposts.spares.threads
  | calls | stops | clears | skips | notifies | joins | settles | destroys | resets => rfl

theorem attends_of_moves {action : Action Worker Thread} (hmoves : Moves state action next)
    (thread : Thread) : Attends state next thread action (next.threads thread) := by
  have hstays : next.threads thread = state.threads thread →
      (∀ move, action ≠ .thread thread move) →
      Attends state next thread action (next.threads thread) := fun heq hother => by
    rw [heq]
    exact .stays action hother
  cases hmoves with
  | works mover move middle later hworks =>
      exact hstays (congrFun hworks.spares.threads thread) nofun
  | mains move middle later hmains => exact hstays (congrFun hmains.threads thread) nofun
  | threads mover move middle later hthreads =>
      by_cases hthread : thread = mover
      · subst hthread
        rw [State.setThread_self]
        exact .threads move middle later hthreads rfl
      · refine hstays ?_ fun _ heq => hthread (by cases heq; rfl)
        rw [State.setThread_of_ne _ _ _ hthread, hthreads.threads]
  | completes => exact .stays _ nofun

theorem flips_of_moves {action : Action Worker Thread} (hmoves : Moves state action next) :
    Flips state next action := by
  cases hmoves with
  | works mover move middle later hworks => exact .keeps _ hworks.spares.running
  | mains move middle later hmains =>
      generalize hmain : state.main = stage at hmains
      cases hmains with
      | strolls _ _ _ hstrolls =>
          obtain ⟨lastActive, noProgress, rounds, rfl⟩ := hstrolls.frame
          exact .keeps _ rfl
      | starts hrunning => exact .sets hmain hrunning rfl
      | locks _ _ hpops | relocks _ _ hpops | gives _ _ hpops => cases hpops <;> exact .keeps _ rfl
      | works _ _ _ _ hrounds | extras _ _ _ _ hrounds => exact .keeps _ hrounds.spares.running
      | spawns | stirs | expires | pops => exact .keeps _ rfl
  | threads thread move middle later hthreads =>
      generalize hthread : state.threads thread = stage at hthreads
      cases hthreads with
      | clears hrunning =>
          exact .clears thread hthread hrunning rfl (State.setThread_self _ _ _)
      | posts _ _ _ _ hposts => exact .keeps _ hposts.spares.running
      | calls | stops | skips | notifies | joins | settles | destroys | resets =>
          exact .keeps _ rfl
  | completes => exact .keeps _ rfl

omit [DecidableEq Thread] in
theorem Posts.queue {post : Post} {move : Move Worker} {rest : Option Post}
    (hposts : Posts state post move next rest) :
    next.destroyed = state.destroyed ∧ (next.queue = state.queue ∨
      ∃ handle, state.owner = none ∧ next.queue = state.queue ++ [handle]) := by
  rcases hposts.frame with ⟨active, rfl⟩ | ⟨handle, target, howner, _, rfl⟩
  · exact ⟨rfl, Or.inl rfl⟩
  · exact ⟨State.push_destroyed _ _ _, Or.inr ⟨handle, howner, State.push_queue _ _ _⟩⟩

omit [DecidableEq Thread] in
theorem Rounds.queue {round later : Round} {move : Move Worker}
    (hrounds : Rounds state round move next later) :
    next.destroyed = state.destroyed ∧ (next.queue = state.queue ∨
      ∃ handle, state.owner = none ∧ next.queue = state.queue ++ [handle]) := by
  rcases hrounds.frame with ⟨active, done, rfl⟩ | ⟨handle, target, howner, _, rfl⟩
  · exact ⟨rfl, Or.inl rfl⟩
  · exact ⟨State.push_destroyed _ _ _, Or.inr ⟨handle, howner, State.push_queue _ _ _⟩⟩

theorem serves_of_moves {action : Action Worker Thread} (hmoves : Moves state action next) :
    Serves state next action := by
  have hkeeps : ∀ other, next.queue = state.queue → next.destroyed = state.destroyed →
      Serves state next other := .keeps
  -- a step that may be a push
  have hframe : ∀ other, next.destroyed = state.destroyed ∧ (next.queue = state.queue ∨
      ∃ handle, state.owner = none ∧ next.queue = state.queue ++ [handle]) →
        Serves state next other := by
    rintro other ⟨hdestroyed, hqueue | ⟨handle, howner, hqueue⟩⟩
    · exact .keeps other hqueue hdestroyed
    · exact .pushes other handle howner hqueue hdestroyed
  cases hmoves with
  | works worker move middle later hworks =>
      generalize state.workers worker = stage at hworks
      cases hworks with
      | pops front rest _ hqueue =>
          exact .worker worker front hqueue (State.setWorker_self _ _ _) rfl
      | works _ _ _ _ hrounds => exact hframe _ hrounds.queue
      | enters | leaves | locks | relocks | parks | passes | blocks | stirs | misses | quits
      | returns | keeps | drops | ends => exact hkeeps _ rfl rfl
  | mains move middle later hmains =>
      generalize state.main = stage at hmains
      cases hmains with
      | strolls _ _ _ hstrolls =>
          obtain ⟨lastActive, noProgress, rounds, rfl⟩ := hstrolls.frame
          exact hkeeps _ rfl rfl
      | locks _ _ hpops | relocks _ _ hpops | gives _ _ hpops =>
          cases hpops with
          | misses => exact hkeeps _ rfl rfl
          | pops front rest _ hqueue => exact .main front hqueue (Or.inl rfl) rfl
      | pops front rest _ hqueue => exact .main front hqueue (Or.inr rfl) rfl
      | works _ _ _ _ hrounds | extras _ _ _ _ hrounds => exact hframe _ hrounds.queue
      | starts | spawns | stirs | expires => exact hkeeps _ rfl rfl
  | threads thread move middle later hthreads =>
      generalize hthread : state.threads thread = stage at hthreads
      cases hthreads with
      | posts _ _ _ _ hposts => exact hframe _ hposts.queue
      | destroys => exact .clears thread hthread rfl rfl
      | calls | stops | clears | skips | notifies | joins | settles | resets =>
          exact hkeeps _ rfl rfl
  | completes => exact hkeeps _ rfl rfl

/-- A call of `stop` returns in its next step. -/
def Returns (state : State Worker Thread) (thread : Thread) : Prop :=
  state.threads thread = .resetting ∨ state.threads thread = .exchanging ∧ state.running = false

instance (state : State Worker Thread) (thread : Thread) : Decidable (Returns state thread) :=
  inferInstanceAs (Decidable (_ ∨ _))

/-! ## A coroutine stays at its final suspension -/

section Done

variable {handle : Handle} (hdone : state.done handle)

include hdone

omit [DecidableEq Worker] [DecidableEq Thread] in
theorem done_update (other : Handle) : Function.update state.done other true handle := by
  by_cases heq : handle = other
  · simp [heq]
  · simpa [heq] using hdone

omit [DecidableEq Thread] in
theorem Posts.done {post : Post} {move : Move Worker} {rest : Option Post}
    (hposts : Posts state post move next rest) : next.done handle := by
  rcases hposts.frame with ⟨active, rfl⟩ | ⟨pushed, target, _, _, rfl⟩
  · exact hdone
  · rwa [State.push_done]

omit [DecidableEq Thread] in
theorem Rounds.done {round later : Round} {move : Move Worker}
    (hrounds : Rounds state round move next later) : next.done handle := by
  cases hrounds with
  | posts _ _ _ _ _ hposts | reposts _ _ _ _ hposts => exact hposts.done hdone
  | finishes other => exact done_update hdone other
  | skips | resumes | calls | suspends | completes | reschedules | counts | leaves
  | decrements => exact hdone

theorem done_of_moves {action : Action Worker Thread} (hmoves : Moves state action next) :
    next.done handle := by
  cases hmoves with
  | works worker move middle later hworks =>
      generalize state.workers worker = stage at hworks
      cases hworks with
      | works _ _ _ _ hrounds =>
          have hmiddle : middle.done handle := hrounds.done hdone
          exact hmiddle
      | enters | leaves | locks | relocks | parks | passes | blocks | stirs | misses | pops
      | quits | returns | keeps | drops | ends => exact hdone
  | mains move middle later hmains =>
      generalize state.main = stage at hmains
      cases hmains with
      | strolls _ _ _ hstrolls =>
          obtain ⟨lastActive, noProgress, rounds, rfl⟩ := hstrolls.frame
          exact hdone
      | locks _ _ hpops | relocks _ _ hpops | gives _ _ hpops => cases hpops <;> exact hdone
      | works _ _ _ _ hrounds | extras _ _ _ _ hrounds =>
          have hmiddle : middle.done handle := hrounds.done hdone
          exact hmiddle
      | starts | spawns | stirs | expires | pops => exact hdone
  | threads thread move middle later hthreads =>
      generalize state.threads thread = stage at hthreads
      cases hthreads with
      | posts _ _ _ _ hposts =>
          have hmiddle : middle.done handle := hposts.done hdone
          exact hmiddle
      | calls | stops | clears | skips | notifies | joins | settles | destroys | resets =>
          exact hdone
  | completes other => exact done_update hdone other

end Done

/-! ## Who holds the mutex -/

/-- The stages of a worker in its critical section. -/
def WorkerStage.holds : WorkerStage → Bool
  | .evaluating | .parking | .taking => true
  | _ => false

theorem WorkerStage.not_holds_of_joinable {stage : WorkerStage} (hjoinable : stage.joinable) :
    stage.holds = false := by
  cases stage with
  | evaluating | parking | taking => cases hjoinable
  | unstarted | top | locking | blocked | notified | popped | working | exited => rfl

/-- `owner` is the worker in its critical section. -/
def Held (state : State Worker Thread) : Prop :=
  ∀ worker, (state.workers worker).holds ↔ state.owner = some worker

namespace Held

omit [DecidableEq Worker] [DecidableEq Thread] in
theorem congr (hheld : Held state) (hworkers : next.workers = state.workers)
    (howner : next.owner = state.owner) : Held next := by
  intro worker
  rw [hworkers, howner]
  exact hheld worker

omit [DecidableEq Thread] in
theorem wake (hheld : Held state) {target : Option (Waiter Worker)}
    (htarget : state.Notifies target) : Held (state.wake target) := by
  intro worker
  rw [State.wake_owner, State.wake_workers]
  split
  next heq =>
    subst heq
    have hblocked : state.workers worker = .blocked := htarget
    have hworker := hheld worker
    rw [hblocked] at hworker
    exact hworker
  next => exact hheld worker

omit [DecidableEq Thread] in
theorem push (hheld : Held state) {target : Option (Waiter Worker)} (handle : Handle)
    (htarget : state.Notifies target) : Held (state.push handle target) := by
  have hqueued : Held { state with queue := state.queue ++ [handle] } := hheld.congr rfl rfl
  apply hqueued.wake
  cases target with
  | none => exact htarget
  | some waiter => cases waiter <;> exact htarget

omit [DecidableEq Thread] in
theorem rounds (hheld : Held state) {round later : Round} {move : Move Worker}
    (hrounds : Rounds state round move next later) : Held next := by
  rcases hrounds.frame with ⟨active, done, rfl⟩ | ⟨handle, target, _, htarget, rfl⟩
  · exact hheld.congr rfl rfl
  · exact hheld.push handle htarget

omit [DecidableEq Thread] in
/-- One worker goes on. -/
theorem setWorker {worker : Worker} {later : WorkerStage}
    (hothers : ∀ other, other ≠ worker →
      ((state.workers other).holds ↔ state.owner = some other))
    (hlater : later.holds ↔ state.owner = some worker) : Held (state.setWorker worker later) := by
  intro other
  by_cases hother : other = worker
  · subst hother
    rw [State.setWorker_self]
    exact hlater
  · rw [State.setWorker_of_ne _ _ _ hother]
    exact hothers other hother

omit [DecidableEq Thread] in
theorem works (hheld : Held state) {worker : Worker} {move : Move Worker} {later : WorkerStage}
    (hworks : Works state worker (state.workers worker) move next later) :
    Held (next.setWorker worker later) := by
  have hworker := hheld worker
  generalize hstage : state.workers worker = stage at hworker hworks
  cases hworks with
  | enters | leaves | parks | passes | stirs | returns | keeps | drops | ends =>
      exact setWorker (fun other _ => hheld other) hworker
  | locks howner | relocks howner =>
      refine setWorker (fun other hother => ?_) (by simp [WorkerStage.holds])
      have hstate := hheld other
      rw [howner] at hstate
      simpa [Ne.symm hother] using hstate
  | blocks | misses | pops | quits =>
      have howner : state.owner = some worker := hworker.mp rfl
      refine setWorker (fun other hother => ?_) (by simp [WorkerStage.holds])
      have hstate := hheld other
      rw [howner] at hstate
      simpa [Ne.symm hother] using hstate
  | works round later move next hrounds =>
      refine setWorker (fun other _ => hheld.rounds hrounds other) ?_
      rw [hrounds.owner]
      exact hworker

omit [DecidableEq Thread] in
theorem mains (hheld : Held state) {stage later : MainStage} {move : Move Worker}
    (hmains : Mains state stage move next later) : Held (next.setMain later) := by
  cases hmains with
  | strolls _ _ _ hstrolls =>
      obtain ⟨lastActive, noProgress, rounds, rfl⟩ := hstrolls.frame
      exact hheld.congr rfl rfl
  | spawns worker hworker =>
      have hspawned : Held (state.setWorker worker .top) := by
        refine setWorker (fun other _ => hheld other) ?_
        rw [← hheld worker, hworker]
        rfl
      exact hspawned.congr rfl rfl
  | locks _ _ hpops | relocks _ _ hpops | gives _ _ hpops =>
      cases hpops with
      | misses | pops => exact hheld.congr rfl rfl
  | starts | stirs | expires | pops => exact hheld.congr rfl rfl
  | works _ _ _ _ hrounds | extras _ _ _ _ hrounds => exact (hheld.rounds hrounds).congr rfl rfl

theorem threads (hheld : Held state) {thread : Thread} {stage later : ThreadStage}
    {move : Move Worker} (hthreads : Threads state stage move next later) :
    Held (next.setThread thread later) := by
  cases hthreads with
  | calls | stops | clears | skips | settles | destroys | resets => exact hheld.congr rfl rfl
  | posts _ _ _ _ hposts =>
      rcases hposts.frame with ⟨active, rfl⟩ | ⟨handle, target, _, htarget, rfl⟩
      · exact hheld.congr rfl rfl
      · exact (hheld.push handle htarget).congr rfl rfl
  | notifies =>
      intro worker
      have hworker := hheld worker
      simp only [State.setThread, State.wakeAll]
      split
      next hblocked =>
        rw [hblocked] at hworker
        exact hworker
      next => exact hworker
  | joins hworkers =>
      intro worker
      have hworker := hheld worker
      have hfree := WorkerStage.not_holds_of_joinable (hworkers worker)
      rw [hfree] at hworker
      exact hworker

theorem moves (hheld : Held state) {action : Action Worker Thread}
    (hmoves : Moves state action next) : Held next := by
  cases hmoves with
  | works _ _ _ _ hworks => exact hheld.works hworks
  | mains _ _ _ hmains => exact hheld.mains hmains
  | threads _ _ _ _ hthreads => exact hheld.threads hthreads
  | completes handle => exact hheld.congr rfl rfl

end Held

end Tang.Scheduler
