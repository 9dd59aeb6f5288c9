import Tang.Scheduler.Basic

/-! # What the steps of the scheduler do

One inductive relation for each step function, with a constructor for each way a
step can go.
-/

namespace Tang.Scheduler

variable {Worker Thread : Type} [DecidableEq Worker]

namespace State

section Projections

variable (state : State Worker Thread) (target : Option (Waiter Worker)) (handle : Handle)
  (worker : Worker) (thread : Thread) (workerStage : WorkerStage) (mainStage : MainStage)
  (threadStage : ThreadStage)

@[simp] theorem wake_running : (state.wake target).running = state.running := by
  unfold wake
  split <;> rfl

@[simp] theorem wake_active : (state.wake target).active = state.active := by
  unfold wake
  split <;> rfl

@[simp] theorem wake_queue : (state.wake target).queue = state.queue := by
  unfold wake
  split <;> rfl

@[simp] theorem wake_owner : (state.wake target).owner = state.owner := by
  unfold wake
  split <;> rfl

@[simp] theorem wake_threads : (state.wake target).threads = state.threads := by
  unfold wake
  split <;> rfl

@[simp] theorem wake_done : (state.wake target).done = state.done := by
  unfold wake
  split <;> rfl

@[simp] theorem wake_destroyed : (state.wake target).destroyed = state.destroyed := by
  unfold wake
  split <;> rfl

theorem wake_workers : (state.wake target).workers worker =
    if target = some (.worker worker) then .notified else state.workers worker := by
  cases target with
  | none => rfl
  | some waiter =>
      cases waiter with
      | main => rfl
      | worker other =>
          by_cases hother : worker = other
          · simp [wake, setWorker, hother]
          · simp [wake, setWorker, hother, Ne.symm hother]

theorem wake_main : (state.wake target).main =
    if target = some .main then .notified else state.main := by
  cases target with
  | none => rfl
  | some waiter =>
      cases waiter with
      | worker other => simp [wake, setWorker]
      | main => rfl

@[simp] theorem push_running : (state.push handle target).running = state.running :=
  wake_running _ _

@[simp] theorem push_active : (state.push handle target).active = state.active :=
  wake_active _ _

@[simp] theorem push_queue : (state.push handle target).queue = state.queue ++ [handle] :=
  wake_queue _ _

@[simp] theorem push_owner : (state.push handle target).owner = state.owner :=
  wake_owner _ _

@[simp] theorem push_threads : (state.push handle target).threads = state.threads :=
  wake_threads _ _

@[simp] theorem push_done : (state.push handle target).done = state.done :=
  wake_done _ _

@[simp] theorem push_destroyed : (state.push handle target).destroyed = state.destroyed :=
  wake_destroyed _ _

theorem push_workers : (state.push handle target).workers worker =
    if target = some (.worker worker) then .notified else state.workers worker :=
  wake_workers _ _ _

theorem push_main : (state.push handle target).main =
    if target = some .main then .notified else state.main :=
  wake_main _ _

@[simp] theorem setWorker_self :
    (state.setWorker worker workerStage).workers worker = workerStage :=
  Function.update_self _ _ _

theorem setWorker_of_ne {other : Worker} (hother : other ≠ worker) :
    (state.setWorker worker workerStage).workers other = state.workers other :=
  Function.update_of_ne hother _ _

omit [DecidableEq Worker]
variable [DecidableEq Thread]

@[simp] theorem setThread_self :
    (state.setThread thread threadStage).threads thread = threadStage :=
  Function.update_self _ _ _

theorem setThread_of_ne {other : Thread} (hother : other ≠ thread) :
    (state.setThread thread threadStage).threads other = state.threads other :=
  Function.update_of_ne hother _ _

end Projections

end State

variable {state next : State Worker Thread}

/-- A step of a call of `schedule`. -/
inductive Posts (state : State Worker Thread) :
    Post → Move Worker → State Worker Thread → Option Post → Prop
  | refuses (handle : Handle) (hdone : state.done handle) :
      Posts state (.checking handle) .go state none
  | admits (handle : Handle) (hdone : state.done handle = false) :
      Posts state (.checking handle) .go state (some (.counting handle))
  | counts (handle : Handle) :
      Posts state (.counting handle) .go { state with active := state.active + 1 }
        (some (.pushing handle))
  | pushes (handle : Handle) (target : Option (Waiter Worker)) (howner : state.owner = none)
      (htarget : state.Notifies target) :
      Posts state (.pushing handle) (.push target) (state.push handle target) none

/-- A step of `schedule` is the push, or touches only `active_tasks_`. -/
theorem Posts.frame {post : Post} {move : Move Worker} {rest : Option Post}
    (hposts : Posts state post move next rest) :
    (∃ active, next = { state with active := active }) ∨
      ∃ handle target, state.owner = none ∧ state.Notifies target ∧
        next = state.push handle target := by
  cases hposts with
  | refuses | admits => exact Or.inl ⟨state.active, rfl⟩
  | counts => exact Or.inl ⟨state.active + 1, rfl⟩
  | pushes handle target howner htarget => exact Or.inr ⟨handle, target, howner, htarget, rfl⟩

theorem posts_of_postStep [Fintype Worker] {post : Post} {move : Move Worker} {rest : Option Post}
    (hstep : postStep state post move = some (next, rest)) : Posts state post move next rest := by
  unfold postStep at hstep
  split at hstep
  next handle =>
    split at hstep
    next hdone =>
      cases hstep
      exact .refuses handle hdone
    next hdone =>
      cases hstep
      exact .admits handle (Bool.eq_false_iff.mpr hdone)
  next handle =>
    cases hstep
    exact .counts handle
  next handle target =>
    split at hstep
    next hpush =>
      cases hstep
      exact .pushes handle target hpush.1 hpush.2
    next => cases hstep
  next => cases hstep

/-- A step with a popped handle. -/
inductive Rounds (state : State Worker Thread) :
    Round → Move Worker → State Worker Thread → Round → Prop
  | skips (handle : Handle) (hdone : state.done handle) :
      Rounds state (.ready handle) .go state (.completing true)
  | resumes (handle : Handle) (hdone : state.done handle = false) :
      Rounds state (.ready handle) .go state (.resuming handle none)
  | calls (handle other : Handle) :
      Rounds state (.resuming handle none) (.call other) state
        (.resuming handle (some (.checking other)))
  | suspends (handle : Handle) :
      Rounds state (.resuming handle none) .suspend state (.resumed handle)
  | finishes (handle : Handle) :
      Rounds state (.resuming handle none) .finish
        { state with done := Function.update state.done handle true } (.resumed handle)
  | posts (handle : Handle) (post : Post) (move : Move Worker) (next : State Worker Thread)
      (rest : Option Post) (hposts : Posts state post move next rest) :
      Rounds state (.resuming handle (some post)) move next (.resuming handle rest)
  | completes (handle : Handle) (hdone : state.done handle) :
      Rounds state (.resumed handle) .go state (.completing false)
  | reschedules (handle : Handle) (hdone : state.done handle = false) :
      Rounds state (.resumed handle) .go state (.rescheduling (.checking handle))
  | reposts (post : Post) (move : Move Worker) (next : State Worker Thread) (rest : Option Post)
      (hposts : Posts state post move next rest) :
      Rounds state (.rescheduling post) move next (rest.elim (.finished false) .rescheduling)
  | counts (skipped : Bool) (hactive : 0 < state.active) :
      Rounds state (.completing skipped) .go state (.decrementing skipped)
  | leaves (skipped : Bool) (hactive : ¬ 0 < state.active) :
      Rounds state (.completing skipped) .go state (.finished skipped)
  | decrements (skipped : Bool) :
      Rounds state (.decrementing skipped) .go { state with active := state.active - 1 }
        (.finished skipped)

/-- A step with a popped handle is a push, or touches only `active_tasks_` and the
coroutine. -/
theorem Rounds.frame {round later : Round} {move : Move Worker}
    (hrounds : Rounds state round move next later) :
    (∃ active done, next = { state with active := active, done := done }) ∨
      ∃ handle target, state.owner = none ∧ state.Notifies target ∧
        next = state.push handle target := by
  cases hrounds with
  | posts _ _ _ _ _ hposts | reposts _ _ _ _ hposts =>
      exact hposts.frame.imp_left fun ⟨active, heq⟩ => ⟨active, state.done, heq⟩
  | finishes handle => exact Or.inl ⟨state.active, Function.update state.done handle true, rfl⟩
  | decrements => exact Or.inl ⟨state.active - 1, state.done, rfl⟩
  | skips | resumes | calls | suspends | completes | reschedules | counts | leaves =>
      exact Or.inl ⟨state.active, state.done, rfl⟩

theorem rounds_of_roundStep [Fintype Worker] {round later : Round} {move : Move Worker}
    (hstep : roundStep state round move = some (next, later)) :
    Rounds state round move next later := by
  unfold roundStep at hstep
  split at hstep
  next handle =>
    split at hstep
    next hdone =>
      cases hstep
      exact .skips handle hdone
    next hdone =>
      cases hstep
      exact .resumes handle (Bool.eq_false_iff.mpr hdone)
  next handle other =>
    cases hstep
    exact .calls handle other
  next handle =>
    cases hstep
    exact .suspends handle
  next handle =>
    cases hstep
    exact .finishes handle
  next handle post =>
    obtain ⟨⟨after, rest⟩, hpost, heq⟩ := Option.map_eq_some_iff.mp hstep
    cases heq
    exact .posts handle post move after rest (posts_of_postStep hpost)
  next handle =>
    split at hstep
    next hdone =>
      cases hstep
      exact .completes handle hdone
    next hdone =>
      cases hstep
      exact .reschedules handle (Bool.eq_false_iff.mpr hdone)
  next post =>
    obtain ⟨⟨after, rest⟩, hpost, heq⟩ := Option.map_eq_some_iff.mp hstep
    cases heq
    exact .reposts post move after rest (posts_of_postStep hpost)
  next skipped =>
    split at hstep
    next hactive =>
      cases hstep
      exact .counts skipped hactive
    next hactive =>
      cases hstep
      exact .leaves skipped hactive
  next skipped =>
    cases hstep
    exact .decrements skipped
  next => cases hstep

/-- A step of a worker. -/
inductive Works (state : State Worker Thread) (worker : Worker) :
    WorkerStage → Move Worker → State Worker Thread → WorkerStage → Prop
  | enters (hrunning : state.running) : Works state worker .top .go state .locking
  | leaves (hrunning : state.running = false) : Works state worker .top .go state .exited
  | locks (howner : state.owner = none) :
      Works state worker .locking .go { state with owner := some worker } .evaluating
  | relocks (howner : state.owner = none) :
      Works state worker .notified .go { state with owner := some worker } .evaluating
  | parks (hqueue : state.queue = []) (hrunning : state.running) :
      Works state worker .evaluating .go state .parking
  | passes (hawake : state.queue ≠ [] ∨ state.running = false) :
      Works state worker .evaluating .go state .taking
  | blocks : Works state worker .parking .go { state with owner := none } .blocked
  | stirs : Works state worker .blocked .spurious state .notified
  | misses (hrunning : state.running) (hqueue : state.queue = []) :
      Works state worker .taking .go { state with owner := none } (.popped none)
  | pops (handle : Handle) (rest : List Handle) (hrunning : state.running)
      (hqueue : state.queue = handle :: rest) :
      Works state worker .taking .go { state with queue := rest, owner := none }
        (.popped (some handle))
  | quits (hrunning : state.running = false) :
      Works state worker .taking .go { state with owner := none } .exited
  | returns (hrunning : state.running) : Works state worker (.popped none) .go state .top
  | keeps (handle : Handle) (hrunning : state.running) :
      Works state worker (.popped (some handle)) .go state (.working (.ready handle))
  | drops (handle : Option Handle) (hrunning : state.running = false) :
      Works state worker (.popped handle) .go state .exited
  | ends (skipped : Bool) : Works state worker (.working (.finished skipped)) .go state .top
  | works (round later : Round) (move : Move Worker) (next : State Worker Thread)
      (hrounds : Rounds state round move next later) :
      Works state worker (.working round) move next (.working later)

theorem works_of_workerStep [Fintype Worker] {worker : Worker} {stage later : WorkerStage}
    {move : Move Worker} (hstep : workerStep state worker stage move = some (next, later)) :
    Works state worker stage move next later := by
  unfold workerStep at hstep
  split at hstep
  next =>
    split at hstep
    next hrunning =>
      cases hstep
      exact .enters hrunning
    next hrunning =>
      cases hstep
      exact .leaves (Bool.eq_false_iff.mpr hrunning)
  next =>
    split at hstep
    next howner =>
      cases hstep
      exact .locks howner
    next => cases hstep
  next =>
    split at hstep
    next howner =>
      cases hstep
      exact .relocks howner
    next => cases hstep
  next =>
    split at hstep
    next hidle =>
      cases hstep
      exact .parks hidle.1 hidle.2
    next hawake =>
      cases hstep
      refine .passes ?_
      -- The predicate holds for one of two reasons, and the source does not say which.
      by_cases hqueue : state.queue = []
      · exact Or.inr (Bool.eq_false_iff.mpr fun hrunning => hawake ⟨hqueue, hrunning⟩)
      · exact Or.inl hqueue
  next =>
    cases hstep
    exact .blocks
  next =>
    cases hstep
    exact .stirs
  next =>
    split at hstep
    next hrunning =>
      split at hstep
      next hqueue =>
        cases hstep
        exact .misses hrunning hqueue
      next handle rest hqueue =>
        cases hstep
        exact .pops handle rest hrunning hqueue
    next hrunning =>
      cases hstep
      exact .quits (Bool.eq_false_iff.mpr hrunning)
  -- past the critical section the flag is read once more
  next handle =>
    split at hstep
    next hrunning =>
      cases handle with
      | none =>
          cases hstep
          exact .returns hrunning
      | some handle =>
          cases hstep
          exact .keeps handle hrunning
    next hrunning =>
      cases hstep
      exact .drops handle (Bool.eq_false_iff.mpr hrunning)
  next skipped =>
    cases hstep
    exact .ends skipped
  next round _ =>
    obtain ⟨⟨after, later⟩, hround, heq⟩ := Option.map_eq_some_iff.mp hstep
    cases heq
    exact .works round later move after (rounds_of_roundStep hround)
  next => cases hstep

/-- The critical section of `run`. -/
inductive Pops (state : State Worker Thread) (empty : MainStage) :
    State Worker Thread → MainStage → Prop
  | misses (howner : state.owner = none) (hqueue : state.queue = []) :
      Pops state empty state empty
  | pops (handle : Handle) (rest : List Handle) (howner : state.owner = none)
      (hqueue : state.queue = handle :: rest) :
      Pops state empty { state with queue := rest } (.working (.ready handle))

omit [DecidableEq Worker] in
theorem pops_of_mainPop {empty later : MainStage}
    (hstep : mainPop state empty = some (next, later)) : Pops state empty next later := by
  unfold mainPop at hstep
  split at hstep
  next howner =>
    split at hstep
    next hqueue =>
      cases hstep
      exact .misses howner hqueue
    next handle rest hqueue =>
      cases hstep
      exact .pops handle rest howner hqueue
  next => cases hstep

/-- The steps of `run` that touch nothing but its own local variables. -/
inductive Strolls (state : State Worker Thread) :
    MainStage → State Worker Thread → MainStage → Prop
  | calls : Strolls state .outside state .initializing
  | skips (hrunning : state.running) :
      Strolls state .initializing { state with lastActive := 0, noProgress := 0, rounds := 0 }
        .testing
  | spawned (hworkers : ∀ worker, state.workers worker ≠ .unstarted) :
      Strolls state .spawning state .testing
  | tests (later : MainStage) (hlater : later = .locking ∨ later = .inspecting) :
      Strolls state .testing state later
  | inspects (later : MainStage) (hlater : later = .locking ∨ later = .extending) :
      Strolls state .inspecting state later
  | ends (skipped : Bool) :
      Strolls state (.working (.finished skipped)) state (if skipped then .testing else .checking)
  | checks : Strolls state .checking state (.comparing state.active)
  | compares (current lastActive : Int) (noProgress : Nat) (later : MainStage)
      (hlater : later = .extending ∨ later = .testing) :
      Strolls state (.comparing current)
        { state with lastActive := lastActive, noProgress := noProgress } later
  | lingers (later : MainStage) (hlater : later = .waiting ∨ later = .probing ∨ later = .sweeping) :
      Strolls state .extending state later
  | probes (later : MainStage) (hlater : later = .waiting ∨ later = .sweeping) :
      Strolls state .probing state later
  | sweeps (hactive : 0 < state.active) : Strolls state .sweeping state .locked
  | rests (hactive : ¬ 0 < state.active) :
      Strolls state .sweeping { state with rounds := state.rounds + 1 } .extending
  | finds (howner : state.owner = none) (hqueue : state.queue = []) :
      Strolls state .locked { state with rounds := state.rounds + 1 } .extending
  | returns (skipped : Bool) :
      Strolls state (.extra (.finished skipped)) { state with rounds := state.rounds + 1 }
        .extending
  | leaves : Strolls state .waiting state .outside

omit [DecidableEq Worker] in
theorem Strolls.frame {stage later : MainStage} (hstrolls : Strolls state stage next later) :
    ∃ lastActive noProgress rounds, next =
      { state with lastActive := lastActive, noProgress := noProgress, rounds := rounds } := by
  cases hstrolls with
  | compares current lastActive noProgress =>
      exact ⟨lastActive, noProgress, state.rounds, rfl⟩
  | skips => exact ⟨0, 0, 0, rfl⟩
  | rests | finds | returns => exact ⟨state.lastActive, state.noProgress, state.rounds + 1, rfl⟩
  | calls | spawned | tests | inspects | ends | checks | lingers | probes | sweeps | leaves =>
      exact ⟨state.lastActive, state.noProgress, state.rounds, rfl⟩

/-- A step of `run`. -/
inductive Mains (state : State Worker Thread) :
    MainStage → Move Worker → State Worker Thread → MainStage → Prop
  | strolls (stage later : MainStage) (next : State Worker Thread)
      (hstrolls : Strolls state stage next later) : Mains state stage .go next later
  | starts (hrunning : state.running = false) :
      Mains state .initializing .go
        { state with running := true, lastActive := 0, noProgress := 0, rounds := 0 } .spawning
  | spawns (worker : Worker) (hworker : state.workers worker = .unstarted) :
      Mains state .spawning (.spawn worker) (state.setWorker worker .top) .spawning
  | locks (next : State Worker Thread) (later : MainStage)
      (hpops : Pops state .blocked next later) : Mains state .locking .go next later
  | relocks (next : State Worker Thread) (later : MainStage)
      (hpops : Pops state .blocked next later) : Mains state .notified .go next later
  | stirs : Mains state .blocked .spurious state .notified
  | expires : Mains state .blocked .expire state .expired
  | gives (next : State Worker Thread) (later : MainStage)
      (hpops : Pops state .checking next later) : Mains state .expired .go next later
  | works (round later : Round) (move : Move Worker) (next : State Worker Thread)
      (hrounds : Rounds state round move next later) :
      Mains state (.working round) move next (.working later)
  | pops (handle : Handle) (rest : List Handle) (howner : state.owner = none)
      (hqueue : state.queue = handle :: rest) :
      Mains state .locked .go { state with queue := rest } (.extra (.ready handle))
  | extras (round later : Round) (move : Move Worker) (next : State Worker Thread)
      (hrounds : Rounds state round move next later) :
      Mains state (.extra round) move next (.extra later)

theorem mains_of_mainStep [Fintype Worker] {stage later : MainStage} {move : Move Worker}
    (hstep : mainStep state stage move = some (next, later)) :
    Mains state stage move next later := by
  unfold mainStep at hstep
  -- the branches of `run`, in the order of its loop
  split at hstep
  next =>
    cases hstep
    exact .strolls _ _ _ .calls
  next =>
    dsimp only at hstep
    split at hstep
    next hrunning =>
      cases hstep
      exact .strolls _ _ _ (.skips hrunning)
    next hrunning =>
      cases hstep
      exact .starts (Bool.eq_false_iff.mpr hrunning)
  next worker =>
    split at hstep
    next hworker =>
      cases hstep
      exact .spawns worker hworker
    next => cases hstep
  next =>
    split at hstep
    next hworkers =>
      cases hstep
      exact .strolls _ _ _ (.spawned hworkers)
    next => cases hstep
  next =>
    split at hstep
    all_goals
      cases hstep
      exact .strolls _ _ _ (.tests _ (by simp))
  next =>
    split at hstep
    all_goals
      cases hstep
      exact .strolls _ _ _ (.inspects _ (by simp))
  -- the three ways into the critical section: on entry, woken, and timed out
  next => exact .locks next later (pops_of_mainPop hstep)
  next => exact .relocks next later (pops_of_mainPop hstep)
  next =>
    cases hstep
    exact .stirs
  next =>
    cases hstep
    exact .expires
  next => exact .gives next later (pops_of_mainPop hstep)
  -- the end of a round leads back to the tests; any other step is the round's own
  next skipped =>
    cases hstep
    exact .strolls _ _ _ (.ends skipped)
  next round _ =>
    obtain ⟨⟨after, later⟩, hround, heq⟩ := Option.map_eq_some_iff.mp hstep
    cases heq
    exact .works round later move after (rounds_of_roundStep hround)
  next =>
    cases hstep
    exact .strolls _ _ _ .checks
  next current =>
    split at hstep
    next =>
      cases hstep
      exact .strolls _ _ _ (.compares current _ _ _ (by split <;> simp))
    next =>
      cases hstep
      exact .strolls _ _ _ (.compares current _ _ _ (Or.inr rfl))
  -- the extended wait, which has rounds of its own
  next =>
    split at hstep
    next =>
      cases hstep
      exact .strolls _ _ _ (.lingers _ (Or.inl rfl))
    next =>
      cases hstep
      exact .strolls _ _ _ (.lingers _ (Or.inr (by split <;> simp)))
  next =>
    cases hstep
    exact .strolls _ _ _ (.probes _ (by split <;> simp))
  next =>
    split at hstep
    next hactive =>
      cases hstep
      exact .strolls _ _ _ (.sweeps hactive)
    next hactive =>
      cases hstep
      exact .strolls _ _ _ (.rests hactive)
  next =>
    split at hstep
    next howner =>
      split at hstep
      next hqueue =>
        cases hstep
        exact .strolls _ _ _ (.finds howner hqueue)
      next handle rest hqueue =>
        cases hstep
        exact .pops handle rest howner hqueue
    next => cases hstep
  next skipped =>
    cases hstep
    exact .strolls _ _ _ (.returns skipped)
  next round _ =>
    obtain ⟨⟨after, later⟩, hround, heq⟩ := Option.map_eq_some_iff.mp hstep
    cases heq
    exact .extras round later move after (rounds_of_roundStep hround)
  next =>
    cases hstep
    exact .strolls _ _ _ .leaves
  next => cases hstep

/-- A step of a call of `schedule` or `stop`. -/
inductive Threads (state : State Worker Thread) :
    ThreadStage → Move Worker → State Worker Thread → ThreadStage → Prop
  | calls (handle : Handle) :
      Threads state .idle (.call handle) state (.posting (.checking handle))
  | posts (post : Post) (move : Move Worker) (next : State Worker Thread) (rest : Option Post)
      (hposts : Posts state post move next rest) :
      Threads state (.posting post) move next (rest.elim .idle .posting)
  | stops : Threads state .idle .stop state .exchanging
  | clears (hrunning : state.running) :
      Threads state .exchanging .go { state with running := false } .notifying
  | skips (hrunning : state.running = false) : Threads state .exchanging .go state .idle
  | notifies (howner : state.owner = none) :
      Threads state .notifying .go state.wakeAll .joining
  | joins (hworkers : ∀ worker, (state.workers worker).joinable) :
      Threads state .joining .go { state with workers := fun _ => .unstarted } .settling
  | settles : Threads state .settling .go state .clearing
  | destroys (howner : state.owner = none) :
      Threads state .clearing .go
        { state with
          destroyed := state.destroyed ++ state.queue.filter fun handle => !state.done handle
          queue := [] } .resetting
  | resets : Threads state .resetting .go { state with active := 0 } .idle

theorem threads_of_threadStep [Fintype Worker] {stage later : ThreadStage} {move : Move Worker}
    (hstep : threadStep state stage move = some (next, later)) :
    Threads state stage move next later := by
  unfold threadStep at hstep
  split at hstep
  next handle =>
    cases hstep
    exact .calls handle
  next =>
    cases hstep
    exact .stops
  next post =>
    obtain ⟨⟨after, rest⟩, hpost, heq⟩ := Option.map_eq_some_iff.mp hstep
    cases heq
    exact .posts post move after rest (posts_of_postStep hpost)
  next =>
    split at hstep
    next hrunning =>
      cases hstep
      exact .clears hrunning
    next hrunning =>
      cases hstep
      exact .skips (Bool.eq_false_iff.mpr hrunning)
  next =>
    split at hstep
    next howner =>
      cases hstep
      exact .notifies howner
    next => cases hstep
  next =>
    split at hstep
    next hworkers =>
      cases hstep
      exact .joins hworkers
    next => cases hstep
  next =>
    cases hstep
    exact .settles
  next =>
    split at hstep
    next howner =>
      cases hstep
      exact .destroys howner
    next => cases hstep
  next =>
    cases hstep
    exact .resets
  next => cases hstep

variable [DecidableEq Thread]

/-- The steps of all parties. -/
inductive Moves (state : State Worker Thread) :
    Action Worker Thread → State Worker Thread → Prop
  | works (worker : Worker) (move : Move Worker) (next : State Worker Thread) (later : WorkerStage)
      (hworks : Works state worker (state.workers worker) move next later) :
      Moves state (.worker worker move) (next.setWorker worker later)
  | mains (move : Move Worker) (next : State Worker Thread) (later : MainStage)
      (hmains : Mains state state.main move next later) :
      Moves state (.main move) (next.setMain later)
  | threads (thread : Thread) (move : Move Worker) (next : State Worker Thread)
      (later : ThreadStage) (hthreads : Threads state (state.threads thread) move next later) :
      Moves state (.thread thread move) (next.setThread thread later)
  | completes (handle : Handle) :
      Moves state (.complete handle) { state with done := Function.update state.done handle true }

theorem moves_of_step [Fintype Worker] {action : Action Worker Thread}
    (hstep : step state action = some next) : Moves state action next := by
  cases action with
  | worker worker move =>
      obtain ⟨⟨after, later⟩, hwork, rfl⟩ := Option.map_eq_some_iff.mp hstep
      exact .works worker move after later (works_of_workerStep hwork)
  | main move =>
      obtain ⟨⟨after, later⟩, hmain, rfl⟩ := Option.map_eq_some_iff.mp hstep
      exact .mains move after later (mains_of_mainStep hmain)
  | thread thread move =>
      obtain ⟨⟨after, later⟩, hthread, rfl⟩ := Option.map_eq_some_iff.mp hstep
      exact .threads thread move after later (threads_of_threadStep hthread)
  | complete handle =>
      cases hstep
      exact .completes handle

end Tang.Scheduler
