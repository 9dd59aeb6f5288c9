import Mathlib.Order.Filter.Cofinite
import Tang.Foundation.Fairness
import Tang.Foundation.Family
import Tang.Scheduler.Parties

/-! # The loops of `run` end

When the coroutines have ended, nobody pushes any more, and what is queued or at work
is used up. Then `task_queue_` and `active_tasks_` stay as they are, whatever they are,
and each iteration of the main loop counts towards the limit without progress, each
iteration of the extended wait towards the limit of its rounds.
-/

namespace Tang.Scheduler

/-- The coroutine whose body is at work. -/
def Round.body : Round → Option Handle
  | .resuming handle _ => some handle
  | _ => none

def WorkerStage.body : WorkerStage → Option Handle
  | .working round => round.body
  | _ => none

def MainStage.body : MainStage → Option Handle
  | .working round | .extra round => round.body
  | _ => none

/-- At work on a popped handle. -/
def MainStage.works : MainStage → Bool
  | .working _ | .extra _ => true
  | _ => false

/-- An iteration of one of the loops of `run` begins with its condition. -/
def MainStage.iterates : MainStage → Bool
  | .testing | .extending => true
  | _ => false

/-- What is left to do in a call of `schedule`, the work on the pushed handle included. -/
def Post.effort : Post → Nat
  | .checking _ => 10
  | .counting _ => 9
  | .pushing _ => 8

/-- What is left to do on a popped handle unless its coroutine is resumed. -/
def Round.effort : Round → Nat
  | .ready _ => 4
  | .resuming _ none => 0
  | .resuming _ (some post) => post.effort
  | .resumed _ => 11
  | .rescheduling post => post.effort
  | .completing _ => 3
  | .decrementing _ => 2
  | .finished _ => 1

def WorkerStage.effort : WorkerStage → Nat
  | .popped (some _) => 5
  | .working round => round.effort
  | _ => 0

def MainStage.effort : MainStage → Nat
  | .working round | .extra round => round.effort
  | _ => 0

namespace Termination

open Foundation Filter

variable {Worker Thread : Type}

/-- The coroutine that a worker resumes, or the thread inside `run`. -/
def body (state : State Worker Thread) : Option Worker → Option Handle
  | some worker => (state.workers worker).body
  | none => state.main.body

/-- A step of a worker, or of the thread inside `run`. -/
def act : Option Worker → Move Worker → Action Worker Thread
  | some worker, move => .worker worker move
  | none, move => .main move

/-- The body of a coroutine returns. -/
def Returns (move : Move Worker) : Prop :=
  move = .suspend ∨ move = .finish

/-! ## Who runs which coroutine -/

/-- The coroutine that a party resumes, before and after its step. -/
inductive Engages (state : State Worker Thread) :
    Move Worker → Option Handle → Option Handle → Prop
  | keeps (move : Move Worker) (body : Option Handle) (hmove : ¬ Returns move) :
      Engages state move body body
  | enters (handle : Handle) (hdone : state.done handle = false) :
      Engages state .go none (some handle)
  | leaves (move : Move Worker) (handle : Handle) (hmove : Returns move) :
      Engages state move (some handle) none

variable [DecidableEq Worker] {state next : State Worker Thread} {move : Move Worker}

theorem not_returns_of_posts {post : Post} {rest : Option Post}
    (hposts : Posts state post move next rest) : ¬ Returns move := by
  cases hposts <;> simp [Returns]

theorem engages_of_rounds {round later : Round} (hrounds : Rounds state round move next later) :
    Engages state move round.body later.body := by
  cases hrounds with
  | resumes handle hdone => exact .enters handle hdone
  | suspends handle => exact .leaves _ handle (Or.inl rfl)
  | finishes handle => exact .leaves _ handle (Or.inr rfl)
  | posts handle _ _ _ _ hposts => exact .keeps _ (some handle) (not_returns_of_posts hposts)
  | reposts _ _ _ rest hposts =>
      cases rest <;> exact .keeps _ none (not_returns_of_posts hposts)
  | calls handle other => exact .keeps _ (some handle) (by simp [Returns])
  | skips | completes | reschedules | counts | leaves | decrements =>
      exact .keeps _ none (by simp [Returns])

theorem engages_of_works {worker : Worker} {stage later : WorkerStage}
    (hworks : Works state worker stage move next later) :
    Engages state move stage.body later.body := by
  cases hworks with
  | works _ _ _ _ hrounds => exact engages_of_rounds hrounds
  | enters | leaves | locks | relocks | parks | passes | blocks | stirs | misses | pops
  | quits | returns | keeps | drops | ends => exact .keeps _ none (by simp [Returns])

omit [DecidableEq Worker] in
theorem body_of_strolls {stage later : MainStage} (hstrolls : Strolls state stage next later) :
    stage.body = none ∧ later.body = none := by
  cases hstrolls with
  | tests _ hlater | inspects _ hlater | compares _ _ _ _ hlater | probes _ hlater =>
      rcases hlater with rfl | rfl <;> exact ⟨rfl, rfl⟩
  | lingers _ hlater => rcases hlater with rfl | rfl | rfl <;> exact ⟨rfl, rfl⟩
  | ends skipped => cases skipped <;> exact ⟨rfl, rfl⟩
  | calls | skips | spawned | checks | sweeps | rests | finds | returns | leaves =>
      exact ⟨rfl, rfl⟩

theorem engages_of_mains {stage later : MainStage} (hmains : Mains state stage move next later) :
    Engages state move stage.body later.body := by
  cases hmains with
  | strolls _ _ _ hstrolls =>
      rw [(body_of_strolls hstrolls).1, (body_of_strolls hstrolls).2]
      exact .keeps _ none (by simp [Returns])
  | locks _ _ hpops | relocks _ _ hpops | gives _ _ hpops =>
      cases hpops <;> exact .keeps _ none (by simp [Returns])
  | works _ _ _ _ hrounds | extras _ _ _ _ hrounds => exact engages_of_rounds hrounds
  | starts | spawns | stirs | expires | pops => exact .keeps _ none (by simp [Returns])

variable [DecidableEq Thread] {action : Action Worker Thread}

theorem engages_of_act {party : Option Worker}
    (hmoves : Moves state (act party move : Action Worker Thread) next) :
    Engages state move (body state party) (body next party) := by
  cases party with
  | some worker =>
      cases hmoves with
      | works _ _ middle later hworks =>
          simp only [body, State.setWorker_self]
          exact engages_of_works hworks
  | none =>
      cases hmoves with
      | mains _ middle later hmains => exact engages_of_mains hmains

/-- A party starts to resume a coroutine that is not done, and stops when the body returns. -/
theorem body_of_moves (hmoves : Moves state action next) (party : Option Worker) :
    body next party = body state party ∨
      (∃ handle, state.done handle = false ∧ body state party = none ∧
        body next party = some handle) ∨
      ∃ move, action = act party move ∧ Returns move := by
  have hown : ∀ move, action = act party move → body next party = body state party ∨
      (∃ handle, state.done handle = false ∧ body state party = none ∧
        body next party = some handle) ∨
      ∃ move, action = act party move ∧ Returns move := by
    rintro move rfl
    have hengages := engages_of_act hmoves
    generalize body state party = now at hengages ⊢
    generalize body next party = later at hengages ⊢
    cases hengages with
    | keeps => exact Or.inl rfl
    | enters handle hdone => exact Or.inr (Or.inl ⟨handle, hdone, rfl, rfl⟩)
    | leaves _ _ hmove => exact Or.inr (Or.inr ⟨move, rfl, hmove⟩)
  cases party with
  | some worker =>
      have hfares := fares_of_moves hmoves worker
      generalize hlater : next.workers worker = later at hfares
      cases hfares with
      | stays => exact Or.inl (by simp [body, hlater])
      | woken _ hblocked => exact Or.inl (by simp [body, hlater, hblocked, WorkerStage.body])
      | works move => exact hown move rfl
      | spawned hworker => exact Or.inl (by simp [body, hlater, hworker, WorkerStage.body])
      | joined _ _ hworkers =>
          have hjoinable := hworkers worker
          apply Or.inl
          cases hstage : state.workers worker <;>
            simp_all [body, WorkerStage.joinable, WorkerStage.body]
  | none =>
      have hproceeds := proceeds_of_moves hmoves
      generalize hlater : next.main = later at hproceeds
      cases hproceeds with
      | stays => exact Or.inl (by simp [body, hlater])
      | woken _ hblocked => exact Or.inl (by simp [body, hlater, hblocked, MainStage.body])
      | mains move => exact hown move rfl

theorem body_of_returns {party : Option Worker}
    (hmoves : Moves state (act party move : Action Worker Thread) next)
    (hreturns : Returns move) :
    ∃ handle, body state party = some handle ∧ body next party = none := by
  have hengages := engages_of_act hmoves
  generalize body state party = now at hengages ⊢
  generalize body next party = later at hengages ⊢
  cases hengages with
  | keeps _ _ hmove => exact absurd hreturns hmove
  | enters => simp [Returns] at hreturns
  | leaves _ handle => exact ⟨handle, rfl, rfl⟩

/-- What only the body of a coroutine does is a step of its round. -/
theorem rounds_of_act {party : Option Worker}
    (hmoves : Moves state (act party move : Action Worker Thread) next)
    (hmove : Returns move ∨ ∃ other, move = .call other) :
    ∃ round later middle, Rounds state round move middle later ∧
      body state party = round.body ∧ next.done = middle.done := by
  cases party with
  | some worker =>
      cases hmoves with
      | works _ _ middle later hworks =>
          simp only [body]
          generalize state.workers worker = stage at hworks ⊢
          cases hworks with
          | works round later _ _ hrounds => exact ⟨round, later, middle, hrounds, rfl, rfl⟩
          | enters | leaves | locks | relocks | parks | passes | blocks | stirs | misses | pops
          | quits | returns | keeps | drops | ends => simp [Returns] at hmove
  | none =>
      cases hmoves with
      | mains _ middle later hmains =>
          simp only [body]
          generalize state.main = stage at hmains ⊢
          cases hmains with
          | works round later _ _ hrounds | extras round later _ _ hrounds =>
              exact ⟨round, later, middle, hrounds, rfl, rfl⟩
          | strolls | starts | spawns | locks | relocks | stirs | expires | gives | pops =>
              simp [Returns] at hmove

/-- A coroutine is done when its body has ended. -/
theorem done_of_finish {party : Option Worker} {handle : Handle}
    (hmoves : Moves state (act party .finish : Action Worker Thread) next)
    (hbody : body state party = some handle) : next.done handle := by
  obtain ⟨round, later, middle, hrounds, hround, hdone⟩ :=
    rounds_of_act hmoves (Or.inl (Or.inr rfl))
  rw [hdone]
  rw [hbody] at hround
  cases hrounds with
  | finishes other =>
      obtain rfl : handle = other := Option.some.inj hround
      exact Function.update_self _ _ _
  | posts _ _ _ _ _ hposts | reposts _ _ _ _ hposts =>
      exact absurd (Or.inr rfl) (not_returns_of_posts hposts)

/-- Only a body calls `schedule` on its own account. -/
theorem body_of_call {party : Option Worker} {other : Handle}
    (hmoves : Moves state (act party (.call other) : Action Worker Thread) next) :
    (body state party).isSome := by
  obtain ⟨round, later, middle, hrounds, hround, -⟩ := rounds_of_act hmoves (Or.inr ⟨other, rfl⟩)
  rw [hround]
  cases hrounds with
  | calls => rfl
  | posts => rfl
  | reposts _ _ _ _ hposts => cases hposts

/-! ## What is left to do -/

section Effort

variable [Fintype Worker]

/-- What is left to do in total when no body of a coroutine goes on. -/
def effort (state : State Worker Thread) : Nat :=
  total WorkerStage.effort state.workers + state.main.effort + 6 * state.queue.length

omit [DecidableEq Thread]

theorem effort_setWorker (worker : Worker) (stage : WorkerStage) :
    effort (state.setWorker worker stage) + (state.workers worker).effort =
      effort state + stage.effort := by
  have htotal := total_update WorkerStage.effort state.workers worker stage
  simp only [effort, State.setWorker]
  omega

omit [DecidableEq Worker] in
theorem effort_setMain (stage : MainStage) :
    effort (state.setMain stage) + state.main.effort = effort state + stage.effort := by
  simp only [effort, State.setMain]
  omega

/-- Who is woken up has nothing more to do than before. -/
theorem effort_wake {target : Option (Waiter Worker)} (htarget : state.Notifies target) :
    effort (state.wake target) = effort state := by
  cases target with
  | none => rfl
  | some waiter =>
      cases waiter with
      | worker worker =>
          have hblocked : state.workers worker = .blocked := htarget
          have hset : effort (state.setWorker worker .notified) + (state.workers worker).effort =
              effort state + WorkerStage.notified.effort := effort_setWorker worker .notified
          simpa [hblocked, WorkerStage.effort, State.wake] using hset
      | main =>
          have hblocked : state.main = .blocked := htarget
          have hset : effort (state.setMain .notified) + state.main.effort =
              effort state + MainStage.notified.effort := effort_setMain .notified
          simpa [hblocked, MainStage.effort, State.wake] using hset

theorem effort_push (handle : Handle) {target : Option (Waiter Worker)}
    (htarget : state.Notifies target) :
    effort (state.push handle target) = effort state + 6 := by
  have hpushed : effort { state with queue := state.queue ++ [handle] } = effort state + 6 := by
    simp only [effort, List.length_append, List.length_singleton]
    omega
  rw [State.push, ← hpushed]
  cases target with
  | none => exact effort_wake htarget
  | some waiter => exact effort_wake htarget

theorem effort_of_posts {post : Post} {rest : Option Post}
    (hposts : Posts state post move next rest) :
    effort next + rest.elim 1 Post.effort < effort state + post.effort := by
  cases hposts with
  | refuses | admits => simp [Post.effort]
  | counts => simp [Post.effort, effort]
  | pushes handle target _ htarget => simp [Post.effort, effort_push handle htarget]

/-- Each step with a popped handle uses up effort, but for those of a coroutine body. -/
theorem effort_of_rounds {round later : Round} (hrounds : Rounds state round move next later)
    (hreturns : ¬ Returns move) (hcall : ∀ other, move ≠ .call other) :
    effort next + later.effort < effort state + round.effort := by
  cases hrounds with
  | posts _ _ _ _ rest hposts =>
      have hlt := effort_of_posts hposts
      cases rest <;> simp only [Round.effort, Option.elim] at hlt ⊢ <;> omega
  | reposts _ _ _ rest hposts =>
      have hlt := effort_of_posts hposts
      cases rest <;> simpa [Round.effort] using hlt
  | calls _ other => exact absurd rfl (hcall other)
  | suspends => exact absurd (Or.inl rfl) hreturns
  | finishes => exact absurd (Or.inr rfl) hreturns
  | skips | resumes | completes | reschedules | counts | leaves =>
      simp [Round.effort, Post.effort]
  | decrements => simp [Round.effort, effort]

theorem effort_of_works {worker : Worker} {stage later : WorkerStage}
    (hworks : Works state worker stage move next later) (hreturns : ¬ Returns move)
    (hcall : ∀ other, move ≠ .call other) :
    effort next + later.effort < effort state + stage.effort ∨
      later.effort ≤ stage.effort ∧ ∃ owner, next = { state with owner := owner } := by
  cases hworks with
  | works _ _ _ _ hrounds => exact Or.inl (effort_of_rounds hrounds hreturns hcall)
  | pops handle rest _ hqueue =>
      apply Or.inl
      simp only [effort, hqueue, List.length_cons, WorkerStage.effort]
      omega
  | keeps handle => exact Or.inl (by simp [WorkerStage.effort, Round.effort])
  | drops handle => exact Or.inr ⟨by simp [WorkerStage.effort], state.owner, rfl⟩
  | locks | relocks => exact Or.inr ⟨by simp [WorkerStage.effort], some worker, rfl⟩
  | blocks | misses | quits => exact Or.inr ⟨by simp [WorkerStage.effort], none, rfl⟩
  | enters | leaves | parks | passes | stirs | returns | ends =>
      exact Or.inr ⟨by simp [WorkerStage.effort], state.owner, rfl⟩

omit [DecidableEq Worker] in
theorem effort_of_pops {empty later : MainStage} (hpops : Pops state empty next later)
    (hempty : empty.effort = 0) :
    effort next + later.effort < effort state ∨ later.effort = 0 ∧ next = state := by
  cases hpops with
  | misses => exact Or.inr ⟨hempty, rfl⟩
  | pops handle rest _ hqueue =>
      apply Or.inl
      simp only [effort, hqueue, List.length_cons, MainStage.effort, Round.effort]
      omega

omit [DecidableEq Worker] [Fintype Worker] in
theorem effort_of_strolls {stage later : MainStage} (hstrolls : Strolls state stage next later) :
    later.effort = 0 ∧ (stage.works → 0 < stage.effort) := by
  cases hstrolls with
  | tests _ hlater | inspects _ hlater | compares _ _ _ _ hlater | probes _ hlater =>
      rcases hlater with rfl | rfl <;> exact ⟨rfl, by simp [MainStage.works]⟩
  | lingers _ hlater =>
      rcases hlater with rfl | rfl | rfl <;> exact ⟨rfl, by simp [MainStage.works]⟩
  | ends skipped => cases skipped <;> exact ⟨rfl, fun _ => Nat.one_pos⟩
  | returns => exact ⟨rfl, fun _ => Nat.one_pos⟩
  | calls | skips | spawned | checks | sweeps | rests | finds | leaves =>
      exact ⟨rfl, by simp [MainStage.works]⟩

theorem effort_of_mains {stage later : MainStage} (hmains : Mains state stage move next later)
    (hreturns : ¬ Returns move) (hcall : ∀ other, move ≠ .call other) :
    effort next + later.effort < effort state + stage.effort ∨
      stage.works = false ∧ later.effort = 0 ∧ effort next = effort state ∧
        next.queue = state.queue := by
  have hlocks : ∀ {empty : MainStage}, Pops state empty next later → empty.effort = 0 →
      stage.works = false → effort next + later.effort < effort state + stage.effort ∨
        stage.works = false ∧ later.effort = 0 ∧ effort next = effort state ∧
          next.queue = state.queue := by
    intro empty hpops hempty hworks
    rcases effort_of_pops hpops hempty with hlt | ⟨hlater, rfl⟩
    · exact Or.inl (by omega)
    · exact Or.inr ⟨hworks, hlater, rfl, rfl⟩
  cases hmains with
  | strolls _ _ _ hstrolls =>
      have hlater := effort_of_strolls hstrolls
      obtain ⟨lastActive, noProgress, rounds, rfl⟩ := hstrolls.frame
      cases hworks : stage.works with
      | false => exact Or.inr ⟨rfl, hlater.1, rfl, rfl⟩
      | true =>
          have hstage := hlater.2 hworks
          apply Or.inl
          rw [hlater.1]
          exact Nat.add_lt_add_left hstage _
  | spawns worker hworker =>
      have hset : effort (state.setWorker worker .top) + (state.workers worker).effort =
          effort state + WorkerStage.top.effort := effort_setWorker worker .top
      rw [hworker] at hset
      exact Or.inr ⟨rfl, rfl, hset, rfl⟩
  | locks _ _ hpops | relocks _ _ hpops => exact hlocks hpops rfl rfl
  | gives _ _ hpops => exact hlocks hpops rfl rfl
  | works _ _ _ _ hrounds | extras _ _ _ _ hrounds =>
      exact Or.inl (effort_of_rounds hrounds hreturns hcall)
  | pops handle rest _ hqueue =>
      apply Or.inl
      simp only [effort, hqueue, List.length_cons, MainStage.effort, Round.effort]
      omega
  | starts | stirs | expires => exact Or.inr ⟨rfl, rfl, rfl, rfl⟩

omit [Fintype Worker] in
/-- What a step of `run` does to `run` itself is left to its stage. -/
theorem main_of_mains {stage later : MainStage} (hmains : Mains state stage move next later) :
    next.main.effort = state.main.effort := by
  cases hmains with
  | strolls _ _ _ hstrolls =>
      obtain ⟨lastActive, noProgress, rounds, rfl⟩ := hstrolls.frame
      rfl
  | locks _ _ hpops | relocks _ _ hpops | gives _ _ hpops => cases hpops <;> rfl
  | works _ _ _ _ hrounds | extras _ _ _ _ hrounds =>
      rcases hrounds.spares.main with heq | ⟨hblocked, hwoken⟩
      · rw [heq]
      · rw [hblocked, hwoken]
        rfl
  | starts | spawns | stirs | expires | pops => rfl

/-- A step that uses up no effort: `run` waits and counts, or a worker waits. -/
inductive Waits (state next : State Worker Thread) : Action Worker Thread → Prop
  | mains (move : Move Worker) (hworks : state.main.works = false)
      (hqueue : next.queue = state.queue) : Waits state next (.main move)
  | others (action : Action Worker Thread) (hother : ∀ move, action ≠ .main move)
      (owner : Option Worker) (workers : Worker → WorkerStage) (done : Handle → Bool)
      (hnext : next = { state with owner := owner, workers := workers, done := done }) :
      Waits state next action

/-- Steps that push nothing from outside use up what is left to do, or wait. -/
theorem effort_of_moves [DecidableEq Thread] {action : Action Worker Thread}
    (hmoves : Moves state action next) (hthread : ∀ thread move, action ≠ .thread thread move)
    (hbody : ∀ party move, action = act party move →
      ¬ Returns move ∧ ∀ other, move ≠ .call other) :
    effort next < effort state ∨ effort next ≤ effort state ∧ Waits state next action := by
  cases hmoves with
  | works worker move middle later hworks =>
      obtain ⟨hreturns, hcall⟩ := hbody (some worker) move rfl
      have hset : effort (middle.setWorker worker later) + (middle.workers worker).effort =
          effort middle + later.effort := effort_setWorker worker later
      have hkept : (middle.workers worker).effort = (state.workers worker).effort := by
        rcases hworks.spares.worker worker with heq | ⟨hblocked, hwoken⟩
        · rw [heq]
        · rw [hblocked, hwoken]
          rfl
      rcases effort_of_works hworks hreturns hcall with hlt | ⟨hle, owner, rfl⟩
      · exact Or.inl (by omega)
      · have hmiddle : effort { state with owner := owner } = effort state := rfl
        exact Or.inr ⟨by omega, .others _ nofun owner _ state.done rfl⟩
  | mains move middle later hmains =>
      obtain ⟨hreturns, hcall⟩ := hbody none move rfl
      have hset : effort (middle.setMain later) + middle.main.effort =
          effort middle + later.effort := effort_setMain later
      have hkept : middle.main.effort = state.main.effort := main_of_mains hmains
      rcases effort_of_mains hmains hreturns hcall with hlt | ⟨hworks, hlater, heq, hqueue⟩
      · exact Or.inl (by omega)
      · exact Or.inr ⟨by omega, .mains move hworks hqueue⟩
  | threads thread move => exact absurd rfl (hthread thread move)
  | completes handle => exact Or.inr ⟨le_rfl, .others _ nofun state.owner state.workers _ rfl⟩

/-! ## What `run` counts -/

/-- The iterations without progress that `run` still allows. -/
def patience (state : State Worker Thread) : Nat :=
  if state.queue = [] then
    (if state.lastActive = state.active then 0 else maxNoProgress + 1) +
      (maxNoProgress - state.noProgress)
  else 0

/-- Above the ranks of the extended wait. -/
def base : Nat := 2 * maxRounds + 4

/-- Above the ranks of the main loop after a progress check. -/
def limit : Nat := base + 2 * (2 * maxNoProgress + 1) + 2

/-- How far `run` is from its end when `task_queue_` and `active_tasks_` stay as they are. -/
def rank (state : State Worker Thread) : MainStage → Nat
  | .initializing => limit + 2
  | .spawning => limit + 1
  | .testing => base + 2 * patience state + 1
  | .inspecting | .locking | .blocked | .notified | .expired => base + 2 * patience state
  | .checking => if state.queue = [] then base + 2 * patience state else limit
  | .comparing current =>
      if state.queue = [] ∧ current = state.active then base + 2 * patience state else limit
  | .extending =>
      if maxRounds ≤ state.rounds then 1 else 2 * (maxRounds - state.rounds) + 3
  | .probing | .sweeping | .locked => 2 * (maxRounds - state.rounds) + 2
  | .outside | .waiting | .working _ | .extra _ => 0

omit [DecidableEq Worker] [Fintype Worker] in
theorem rank_testing_lt (state : State Worker Thread) : rank state .testing < limit := by
  have hpatience : patience state ≤ 2 * maxNoProgress + 1 := by
    unfold patience
    split
    · split <;> omega
    · omega
  simp only [rank, limit]
  omega

omit [DecidableEq Worker] [Fintype Worker] in
theorem rank_extending_lt (state : State Worker Thread) : rank state .extending < base := by
  simp only [rank, base]
  split <;> omega

/-- A progress check allows one iteration less, or finds what the next one compares with. -/
theorem rank_of_comparing {current : Int} {later : MainStage}
    (hstep : mainStep state (.comparing current) move = some (next, later)) :
    rank next later < rank state (.comparing current) := by
  have hextending := rank_extending_lt next
  have htesting := rank_testing_lt next
  have hlimit : base < limit := by
    unfold limit
    omega
  cases move with
  | go =>
      simp only [mainStep] at hstep
      by_cases hidle : state.queue = [] ∧ current = state.active
      · have hrank : rank state (.comparing current) = base + 2 * patience state := by
          simp [rank, hidle]
        rw [hrank]
        obtain ⟨hqueue, rfl⟩ := hidle
        split at hstep
        next hsame =>
          cases hstep
          split
          next => omega
          next hpatient =>
            simp only [rank, patience, hqueue, hsame.1, if_true]
            omega
        next hdiffers =>
          cases hstep
          have hchanged : state.lastActive ≠ state.active := fun heq => hdiffers ⟨heq.symm, hqueue⟩
          simp only [rank, patience, hqueue, hchanged, if_true, if_false]
          omega
      · have hrank : rank state (.comparing current) = limit := by simp [rank, hidle]
        rw [hrank]
        split at hstep
        next =>
          cases hstep
          split
          next => omega
          next => exact htesting
        next =>
          cases hstep
          exact htesting
  | push | call | suspend | finish | spurious | expire | spawn | stop => cases hstep

theorem rank_of_extending {later : MainStage}
    (hstep : mainStep state .extending move = some (next, later)) :
    rank next later < rank state .extending := by
  cases move with
  | go =>
      simp only [mainStep] at hstep
      split at hstep
      next hrounds =>
        cases hstep
        simp [rank, hrounds]
      next hrounds =>
        cases hstep
        by_cases hqueue : state.queue = [] <;> simp [rank, hrounds, hqueue]
  | push | call | suspend | finish | spurious | expire | spawn | stop => cases hstep

/-- While `task_queue_` and `active_tasks_` stay as they are, `run` gets closer to its end. -/
theorem rank_of_mainStep {stage later : MainStage}
    (hstep : mainStep state stage move = some (next, later)) (hqueue : next.queue = state.queue)
    (hworks : stage.works = false) (houtside : stage ≠ .outside) :
    rank next later ≤ rank state stage ∧ (stage.iterates → rank next later < rank state stage) := by
  have hextending := rank_extending_lt next
  have htesting := rank_testing_lt next
  have hmains := mains_of_mainStep hstep
  cases hmains with
  | strolls _ _ _ hstrolls =>
      cases hstrolls with
      | compares current => exact ⟨(rank_of_comparing hstep).le, fun _ => rank_of_comparing hstep⟩
      | lingers => exact ⟨(rank_of_extending hstep).le, fun _ => rank_of_extending hstep⟩
      | calls => exact absurd rfl houtside
      | ends | returns => cases hworks
      | skips =>
          refine ⟨?_, by simp [MainStage.iterates]⟩
          simp only [rank] at htesting ⊢
          omega
      | spawned =>
          refine ⟨?_, by simp [MainStage.iterates]⟩
          simp only [rank] at htesting ⊢
          omega
      | tests _ hlater => rcases hlater with rfl | rfl <;> simp [rank]
      | inspects _ hlater =>
          refine ⟨?_, by simp [MainStage.iterates]⟩
          rcases hlater with rfl | rfl
          · exact le_rfl
          · exact hextending.le.trans (Nat.le_add_right _ _)
      | checks =>
          refine ⟨?_, by simp [MainStage.iterates]⟩
          by_cases hempty : state.queue = [] <;> simp [rank, hempty]
      | probes _ hlater => rcases hlater with rfl | rfl <;> simp [rank, MainStage.iterates]
      | sweeps => exact ⟨le_rfl, by simp [MainStage.iterates]⟩
      | rests | finds =>
          refine ⟨?_, by simp [MainStage.iterates]⟩
          simp only [rank]
          split <;> omega
      | leaves => exact ⟨le_rfl, by simp [MainStage.iterates]⟩
  | locks _ _ hpops | relocks _ _ hpops =>
      cases hpops with
      | misses => exact ⟨le_rfl, by simp [MainStage.iterates]⟩
      | pops handle rest _ hpopped => simp [hpopped] at hqueue
  | gives _ _ hpops =>
      cases hpops with
      | misses _ hempty => simp [rank, hempty, MainStage.iterates]
      | pops handle rest _ hpopped => simp [hpopped] at hqueue
  | pops handle rest _ hpopped => simp [hpopped] at hqueue
  | works | extras => cases hworks
  | starts => simp [rank, MainStage.iterates]
  | spawns | stirs | expires => exact ⟨le_rfl, by simp [MainStage.iterates]⟩

end Effort

/-! ## Runs -/

section Runs

variable [Fintype Worker]

/-- The scheduler from any state on. -/
def started (start : State Worker Thread) :
    Machine (State Worker Thread) (Action Worker Thread) where
  start := start
  step := step

/-- Only finitely many coroutines are resumed, each suspends finitely often, a
resumption calls `schedule` finitely often, and the other threads stop to act. -/
structure Ending (coroutines : Finset Handle) (start : State Worker Thread)
    (schedule : Nat → Option (Action Worker Thread)) : Prop where
  resumed : ∀ time party handle, body ((started start).states schedule time) party = some handle →
    handle ∈ coroutines
  suspends : ∀ handle ∈ coroutines, ∀ᶠ time in atTop, ∀ party,
    body ((started start).states schedule time) party = some handle →
      ¬ (started start).Takes schedule time (act party .suspend)
  calls : ∀ party,
    (∀ᶠ time in atTop, (body ((started start).states schedule time) party).isSome) →
      ∀ᶠ time in atTop, ∀ other, ¬ (started start).Takes schedule time (act party (.call other))
  threads : ∀ᶠ time in atTop, ∀ thread move,
    ¬ (started start).Takes schedule time (.thread thread move)

/-- The call of `run` from the start, not over yet, begins an iteration of a loop. -/
def Iterates (start : State Worker Thread) (schedule : Nat → Option (Action Worker Thread))
    (time : Nat) : Prop :=
  (∃ move, (started start).Takes schedule time (.main move)) ∧
    ((started start).states schedule time).main.iterates ∧
      ∀ earlier ≤ time, ((started start).states schedule earlier).main ≠ .outside

variable {coroutines : Finset Handle} {start : State Worker Thread}
  {schedule : Nat → Option (Action Worker Thread)}

/-- The parties that resume a coroutine. -/
def crew (start : State Worker Thread) (schedule : Nat → Option (Action Worker Thread))
    (handle : Handle) (time : Nat) : Finset (Option Worker) :=
  {party | body ((started start).states schedule time) party = some handle}

theorem eventually_done {handle : Handle} {first : Nat}
    (hdone : ((started start).states schedule first).done handle) :
    ∀ᶠ time in atTop, ((started start).states schedule time).done handle := by
  refine eventually_atTop.mpr ⟨first, fun time htime => ?_⟩
  induction time, htime using Nat.le_induction with
  | base => exact hdone
  | succ time htime ih =>
      rcases Machine.takes_or_rests (started start) schedule time with
        ⟨action, htakes⟩ | ⟨_, hrests⟩
      · exact done_of_moves ih (moves_of_step htakes.2)
      · rwa [hrests]

/-- Nobody starts to resume a coroutine that is done. -/
theorem crew_subset {handle : Handle} {time : Nat}
    (hdone : ((started start).states schedule time).done handle) :
    crew start schedule handle (time + 1) ⊆ crew start schedule handle time := by
  rcases Machine.takes_or_rests (started start) schedule time with ⟨action, htakes⟩ | ⟨_, hrests⟩
  · intro party hparty
    simp only [crew, Finset.mem_filter, Finset.mem_univ, true_and] at hparty ⊢
    have hmoves := moves_of_step htakes.2
    rcases body_of_moves hmoves party with heq | ⟨other, hother, _, hnext⟩ |
      ⟨move, rfl, hreturns⟩
    · rw [← heq, hparty]
    · rw [hparty] at hnext
      obtain rfl : handle = other := Option.some.inj hnext
      simp [hdone] at hother
    · obtain ⟨other, _, hnext⟩ := body_of_returns hmoves hreturns
      simp [hparty] at hnext
  · simp [crew, hrests]

/-- The body of a coroutine ends finitely often. -/
theorem eventually_not_finish (start : State Worker Thread)
    (schedule : Nat → Option (Action Worker Thread)) (handle : Handle) :
    ∀ᶠ time in atTop, ∀ party, body ((started start).states schedule time) party = some handle →
      ¬ (started start).Takes schedule time (act party .finish) := by
  by_cases hdone : ∃ first, ((started start).states schedule first).done handle
  -- Nobody joins the crew of a coroutine that is done, and who finishes it leaves.
  · obtain ⟨first, hfirst⟩ := hdone
    have hlowers := Machine.eventually_not_lowered
      (fun time => (crew start schedule handle time).card)
      (fun time => ∃ party, body ((started start).states schedule time) party = some handle ∧
        (started start).Takes schedule time (act party .finish))
      ((eventually_done hfirst).mono fun time hnow => Finset.card_le_card (crew_subset hnow))
      ((eventually_done hfirst).mono fun time hnow ⟨party, hbody, htakes⟩ => by
        refine Finset.card_lt_card ⟨crew_subset hnow, fun hsubset => ?_⟩
        obtain ⟨_, _, hnext⟩ := body_of_returns (moves_of_step htakes.2) (Or.inr rfl)
        have hlater : party ∈ crew start schedule handle (time + 1) :=
          hsubset (by simp [crew, hbody])
        simp [crew, hnext] at hlater)
    exact hlowers.mono fun time hnone party hbody htakes => hnone ⟨party, hbody, htakes⟩
  · refine Eventually.of_forall fun time party hbody htakes => hdone ⟨time + 1, ?_⟩
    exact done_of_finish (moves_of_step htakes.2) hbody

section Ending

variable (hending : Ending coroutines start schedule)

include hending

/-- In the end no body of a coroutine returns. -/
theorem eventually_not_returns : ∀ᶠ time in atTop, ∀ party move, Returns move →
    ¬ (started start).Takes schedule time (act party move) := by
  have hfinishes := (eventually_all_finset coroutines).mpr fun handle _ =>
    eventually_not_finish start schedule handle
  filter_upwards [(eventually_all_finset coroutines).mpr hending.suspends, hfinishes] with
    time hsuspend hfinish party move hreturns htakes
  obtain ⟨handle, hbody, _⟩ := body_of_returns (moves_of_step htakes.2) hreturns
  have hmember := hending.resumed time party handle hbody
  rcases hreturns with rfl | rfl
  · exact hsuspend handle hmember party hbody htakes
  · exact hfinish handle hmember party hbody htakes

/-- In the end no body of a coroutine calls `schedule`. -/
theorem eventually_not_calls : ∀ᶠ time in atTop, ∀ party other,
    ¬ (started start).Takes schedule time (act party (.call other)) := by
  refine eventually_all.mpr fun party => ?_
  -- As bodies do not return any more, a party stays in the one it is in.
  by_cases hstuck : ∀ᶠ time in atTop, (body ((started start).states schedule time) party).isSome
  · exact hending.calls party hstuck
  · have hout := Machine.eventually_not
      (fun time => (body ((started start).states schedule time) party).isSome = true)
      ((eventually_not_returns hending).mono fun time hnone hbody => by
        rcases Machine.takes_or_rests (started start) schedule time with
          ⟨action, htakes⟩ | ⟨_, hrests⟩
        · rcases body_of_moves (moves_of_step htakes.2) party with
            heq | ⟨_, _, hnobody, _⟩ | ⟨move, rfl, hreturns⟩
          · rwa [heq]
          · simp [hnobody] at hbody
          · exact absurd htakes (hnone party move hreturns)
        · rwa [hrests])
      (not_eventually.mp hstuck)
    exact hout.mono fun time hnobody other htakes =>
      hnobody (body_of_call (moves_of_step htakes.2))

/-- In the end every step waits. -/
theorem eventually_waits : ∀ᶠ time in atTop,
    (∃ action, (started start).Takes schedule time action ∧
        Waits ((started start).states schedule time) ((started start).states schedule (time + 1))
          action) ∨
      (∀ mine, ¬ (started start).Acts schedule mine time) ∧
        (started start).states schedule (time + 1) = (started start).states schedule time := by
  have hsteps : ∀ᶠ time in atTop,
      let now := (started start).states schedule time
      let later := (started start).states schedule (time + 1)
      effort later < effort now ∨ effort later ≤ effort now ∧
        ((∃ action, (started start).Takes schedule time action ∧ Waits now later action) ∨
          (∀ mine, ¬ (started start).Acts schedule mine time) ∧ later = now) := by
    filter_upwards [eventually_not_returns hending, eventually_not_calls hending,
      hending.threads] with time hreturn hcall hthread
    rcases Machine.takes_or_rests (started start) schedule time with ⟨action, htakes⟩ | hrests
    · have heffort := effort_of_moves (moves_of_step htakes.2)
        (fun thread move heq => hthread thread move (heq ▸ htakes))
        (fun party move heq => ⟨fun hreturns => hreturn party move hreturns (heq ▸ htakes),
          fun other hmove => hcall party other (hmove ▸ heq ▸ htakes)⟩)
      exact heffort.imp_right fun ⟨hle, hwaits⟩ => ⟨hle, Or.inl ⟨action, htakes, hwaits⟩⟩
    · exact Or.inr ⟨by rw [hrests.2], Or.inr hrests⟩
  have hlevel := Machine.eventually_not_lowered
    (fun time => effort ((started start).states schedule time))
    (fun time => effort ((started start).states schedule (time + 1)) <
      effort ((started start).states schedule time))
    (hsteps.mono fun time hstep => by
      rcases hstep with hlt | ⟨hle, _⟩
      · exact hlt.le
      · exact hle)
    (Eventually.of_forall fun _ => id)
  filter_upwards [hsteps, hlevel] with time hstep hnot
  rcases hstep with hlt | ⟨_, hwaits⟩
  · exact absurd hlt hnot
  · exact hwaits

/-- In the end `run` only gets closer to its end, and each iteration brings it closer. -/
theorem eventually_rank
    (hinside : ∀ time, ((started start).states schedule time).main ≠ .outside) :
    ∀ᶠ time in atTop,
      let now := (started start).states schedule time
      let later := (started start).states schedule (time + 1)
      rank later later.main ≤ rank now now.main ∧
        (Iterates start schedule time → rank later later.main < rank now now.main) := by
  filter_upwards [eventually_waits hending] with time hwaits
  rcases hwaits with ⟨action, htakes, hwaits⟩ | ⟨hidle, hrests⟩
  · have hstep : step _ action = some _ := htakes.2
    generalize (started start).states schedule (time + 1) = later at hstep hwaits ⊢
    cases hwaits with
    | mains move hworks hqueue =>
        -- A pop would change the queue, so both loops find it as they left it.
        obtain ⟨⟨middle, stage⟩, hmain, rfl⟩ := Option.map_eq_some_iff.mp hstep
        have hrank := rank_of_mainStep hmain hqueue hworks (hinside time)
        exact ⟨hrank.1, fun hiterates => hrank.2 hiterates.2.1⟩
    | others _ hother owner workers done hnext =>
        subst hnext
        exact ⟨le_rfl, fun ⟨⟨move, hmain⟩, _⟩ => absurd (hmain.unique htakes) (hother move)⟩
  · exact ⟨by rw [hrests], fun ⟨⟨move, htakes⟩, _⟩ => absurd ⟨_, trivial, htakes⟩
      (hidle fun _ => True)⟩

end Ending

/-- The loops of `run` end. When every coroutine ends after finitely many resumptions and
every resumption pushes finitely often, then for any interleaving with the workers, and
whatever `active_tasks_` is at the start and left at, a call of `run` goes through finitely
many iterations of the main loop and of the extended wait. -/
theorem run_iterates_finitely (coroutines : Finset Handle) (start : State Worker Thread)
    (schedule : Nat → Option (Action Worker Thread)) (hending : Ending coroutines start schedule) :
    {time | Iterates start schedule time}.Finite := by
  have hnone : ∀ᶠ time in atTop, ¬ Iterates start schedule time := by
    by_cases hinside : ∀ time, ((started start).states schedule time).main ≠ .outside
    · have hrank := eventually_rank hending hinside
      exact Machine.eventually_not_lowered
        (fun time => rank ((started start).states schedule time)
          ((started start).states schedule time).main) _
        (hrank.mono fun _ => And.left) (hrank.mono fun _ => And.right)
    · -- the call has returned
      obtain ⟨first, hfirst⟩ := not_forall.mp hinside
      exact eventually_atTop.mpr ⟨first, fun time htime hiterates =>
        hfirst (hiterates.2.2 first htime)⟩
  rw [← Nat.cofinite_eq_atTop, eventually_cofinite] at hnone
  simpa using hnone

end Runs

/-- One coroutine is queued, and `active_tasks_` is off by six. -/
def leftover : State Unit Unit :=
  { (machine Unit Unit).start with queue := [0], active := 7, main := .initializing }

/-- The coroutine yields in the main thread, and the worker resumes it to its end. -/
def handover (time : Nat) : Option (Action Unit Unit) :=
  [.main .go, .main (.spawn ()), .main .go, .main .go, .main .go, .main .go, .main (.call 0),
    .main .go, .main .go, .main (.push none), .main .suspend, .worker () .go, .worker () .go,
    .worker () .go, .worker () .go, .worker () .go, .worker () .go, .worker () .finish,
    .main .go, .main .go, .main .go, .main .go][time]?

theorem run_iterates_finitely_handover : {time | Iterates leftover handover time}.Finite := by
  have hsilent : ∀ time, 22 ≤ time → handover time = none := fun time htime =>
    List.getElem?_eq_none htime
  have hquiet : ∀ time action, 22 ≤ time →
      ¬ (started leftover).Takes handover time action := by
    rintro time action htime ⟨hschedule, -⟩
    rw [hsilent time htime] at hschedule
    cases hschedule
  have hbodies : ∀ time < 23, ∀ party, ∀ handle ∈ body ((started leftover).states handover time)
      party, handle = 0 := by
    decide +kernel
  refine run_iterates_finitely {0} leftover handover
    { resumed := fun time party handle hbody => ?_
      suspends := fun _ _ => eventually_atTop.mpr ⟨22, fun time htime _ _ => hquiet time _ htime⟩
      calls := fun _ _ => eventually_atTop.mpr ⟨22, fun time htime _ => hquiet time _ htime⟩
      threads := eventually_atTop.mpr ⟨22, fun time htime _ _ => hquiet time _ htime⟩ }
  rw [Finset.mem_singleton]
  by_cases htime : time < 23
  · exact hbodies time htime party handle hbody
  · rw [Machine.states_of_silent hsilent time (by omega)] at hbody
    exact hbodies 22 (by omega) party handle hbody

end Termination

end Tang.Scheduler
