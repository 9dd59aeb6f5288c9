import Tang.Foundation.History
import Tang.Scheduler.Parties

/-! # Nothing runs after a stop

When `stop` has joined the workers, only the thread inside `run` can still resume a
coroutine: it reads `active_tasks_` and `task_queue_` but not `running_`, so it may hold
a popped handle across the whole of `stop`, and may pop another one after it.
-/

namespace Tang.Scheduler

/-- The popped handle that the thread inside `run` is about to resume. -/
def MainStage.ready : MainStage → Option Handle
  | .working (.ready handle) | .extra (.ready handle) => some handle
  | _ => none

/-- The stages of `run` before a pop. -/
def MainStage.pops : MainStage → Bool
  | .locking | .notified | .expired | .locked => true
  | _ => false

/-- A call of `stop` that has cleared the flag and waits for workers. -/
def ThreadStage.waits : ThreadStage → Bool
  | .notifying | .joining => true
  | _ => false

/-- A worker thread that is not there, or about to leave when the flag is cleared. -/
def WorkerStage.leaves : WorkerStage → Bool
  | .unstarted | .top | .exited => true
  | _ => false

namespace Silence

open Foundation

variable {Worker Thread : Type}

/-- Whether `stop` has returned since the last call of `init`, and the threads whose
call of `stop` has cleared the flag since then. -/
structure History (Thread : Type) where
  stopped : Bool
  current : Thread → Bool

variable [DecidableEq Thread]

def record (history : History Thread) (state : State Worker Thread)
    (action : Action Worker Thread) (_ : State Worker Thread) : History Thread :=
  match action with
  | .main .go =>
      if state.main = .initializing then { stopped := false, current := fun _ => false }
      else history
  | .thread thread .go =>
      match state.threads thread with
      | .exchanging =>
          if state.running then
            { history with current := Function.update history.current thread true }
          else { history with stopped := true }
      | .resetting => { history with stopped := true }
      | _ => history
  | _ => history

/-- The step calls `resume()`. -/
def resumes (state : State Worker Thread) : Action Worker Thread → Bool
  | .worker worker .go =>
      match state.workers worker with
      | .working (.ready handle) => !state.done handle
      | _ => false
  | .main .go => state.main.ready.any fun handle => !state.done handle
  | _ => false

/-- After a stop and before the next `init` no coroutine is resumed. -/
def Silent (watched : State Worker Thread × History Thread) (action : Action Worker Thread)
    (_ : State Worker Thread × History Thread) : Prop :=
  watched.2.stopped = true → resumes watched.1 action = false

/-- When a call of `stop` returns, the thread inside `run` is not about to resume an
unfinished coroutine, and where the call has not cleared the flag since the last `init`,
the flag is cleared and nobody waits for workers; afterwards the thread inside `run` pops
no unfinished coroutine. -/
def Hushed (watched : State Worker Thread × History Thread) (action : Action Worker Thread) :
    Prop :=
  match action with
  | .thread thread .go => Returns watched.1 thread →
      (∀ handle ∈ watched.1.main.ready, watched.1.done handle) ∧
        (watched.2.current thread = false → watched.1.running = false ∧
          ∀ other, (watched.1.threads other).waits = false)
  | .main .go => watched.2.stopped = true → watched.1.main.pops →
      ∀ handle ∈ watched.1.queue.head?, watched.1.done handle
  | _ => True

/-- No worker is past the test of the flag. -/
def Settled (state : State Worker Thread) : Prop :=
  ∀ worker, (state.workers worker).leaves

/-- `init` is called in the step. -/
def Inits (state : State Worker Thread) (action : Action Worker Thread) : Prop :=
  action = .main .go ∧ state.main = .initializing

/-- What the steps that meet the condition keep. -/
structure Quiet (watched : State Worker Thread × History Thread) : Prop where
  settled : watched.1.running = false →
    (∃ thread, (watched.1.threads thread).waits) ∨ Settled watched.1
  current : ∀ thread, watched.2.current thread → watched.1.running = false ∧
    ((watched.1.threads thread).waits ∨ Settled watched.1)
  stopped : watched.2.stopped = true → watched.1.running = false ∧ Settled watched.1 ∧
    ∀ handle ∈ watched.1.main.ready, watched.1.done handle

section Steps

variable {state next : State Worker Thread} {action : Action Worker Thread}
  {history : History Thread}

theorem record_current {thread : Thread}
    (hcurrent : (record history state action next).current thread = true) :
    (history.current thread = true ∧ ¬ Inits state action) ∨
      (action = .thread thread .go ∧ state.threads thread = .exchanging ∧
        state.running = true) := by
  unfold record at hcurrent
  split at hcurrent
  next =>
    split at hcurrent
    next => cases hcurrent
    next hmain => exact Or.inl ⟨hcurrent, fun hinits => hmain hinits.2⟩
  next other =>
    split at hcurrent
    next hother =>
      split at hcurrent
      next hrunning =>
        by_cases heq : thread = other
        · subst heq
          exact Or.inr ⟨rfl, hother, hrunning⟩
        · exact Or.inl ⟨by simpa [heq] using hcurrent, fun hinits => by cases hinits.1⟩
      next => exact Or.inl ⟨hcurrent, fun hinits => by cases hinits.1⟩
    next => exact Or.inl ⟨hcurrent, fun hinits => by cases hinits.1⟩
    next => exact Or.inl ⟨hcurrent, fun hinits => by cases hinits.1⟩
  next hmain _ => exact Or.inl ⟨hcurrent, fun hinits => hmain hinits.1⟩

theorem record_stopped (hstopped : (record history state action next).stopped = true) :
    (history.stopped = true ∧ ¬ Inits state action) ∨
      ∃ thread, action = .thread thread .go ∧ Returns state thread := by
  unfold record at hstopped
  split at hstopped
  next =>
    split at hstopped
    next => cases hstopped
    next hmain => exact Or.inl ⟨hstopped, fun hinits => hmain hinits.2⟩
  next thread =>
    split at hstopped
    next hthread =>
      split at hstopped
      next => exact Or.inl ⟨hstopped, fun hinits => by cases hinits.1⟩
      next hrunning => exact Or.inr ⟨thread, rfl, Or.inr ⟨hthread, by simpa using hrunning⟩⟩
    next hthread => exact Or.inr ⟨thread, rfl, Or.inl hthread⟩
    next => exact Or.inl ⟨hstopped, fun hinits => by cases hinits.1⟩
  next hmain _ => exact Or.inl ⟨hstopped, fun hinits => hmain hinits.1⟩

variable [DecidableEq Worker]

theorem settled_of_moves (hmoves : Moves state action next) (hrunning : state.running = false)
    (hsettled : Settled state) : Settled next := by
  intro worker
  have hfares := fares_of_moves hmoves worker
  have hworker := hsettled worker
  generalize next.workers worker = later at hfares ⊢
  cases hfares with
  | stays => exact hworker
  | woken _ hblocked => simp [hblocked, WorkerStage.leaves] at hworker
  | works move middle _ hworks =>
      generalize state.workers worker = stage at hworks hworker
      cases hworks with
      | enters hset => simp [hrunning] at hset
      | leaves => rfl
      | locks | relocks | parks | passes | blocks | stirs | misses | pops | quits | returns
      | keeps | drops | ends | works => cases hworker
  | spawned | joined => rfl

/-- A call of `stop` waits until the workers are gone. -/
theorem waits_of_moves (hmoves : Moves state action next) {thread : Thread}
    (hwaits : (state.threads thread).waits) : (next.threads thread).waits ∨ Settled next := by
  have hattends := attends_of_moves hmoves thread
  generalize next.threads thread = later at hattends ⊢
  cases hattends with
  | stays => exact Or.inl hwaits
  | threads move middle _ hthreads hnext =>
      generalize state.threads thread = stage at hthreads hwaits
      cases hthreads with
      | notifies => exact Or.inl rfl
      | joins =>
          subst hnext
          exact Or.inr fun _ => rfl
      | calls | posts | stops | clears | skips | settles | destroys | resets => cases hwaits

theorem running_of_moves (hmoves : Moves state action next) (hinits : ¬ Inits state action)
    (hrunning : state.running = false) : next.running = false := by
  cases flips_of_moves hmoves with
  | keeps _ hkept => rwa [hkept]
  | sets hmain => exact absurd ⟨rfl, hmain⟩ hinits
  | clears _ _ hset => simp [hrunning] at hset

omit [DecidableEq Thread] in
/-- A step with a popped handle does not lead back before its resumption. -/
theorem rounds_ne_ready {round later : Round} {move : Move Worker}
    (hrounds : Rounds state round move next later) (handle : Handle) : later ≠ .ready handle := by
  cases hrounds with
  | reposts _ _ _ rest => cases rest <;> simp
  | skips | resumes | calls | suspends | finishes | posts | completes | reschedules | counts
  | leaves | decrements => simp

omit [DecidableEq Thread] [DecidableEq Worker] in
theorem strolls_ready {stage later : MainStage} (hstrolls : Strolls state stage next later) :
    later.ready = none := by
  cases hstrolls with
  | tests _ hlater | inspects _ hlater | probes _ hlater | compares _ _ _ _ hlater =>
      rcases hlater with rfl | rfl <;> rfl
  | lingers _ hlater => rcases hlater with rfl | rfl | rfl <;> rfl
  | ends skipped => cases skipped <;> rfl
  | calls | skips | spawned | checks | sweeps | rests | finds | returns | leaves => rfl

omit [DecidableEq Thread] in
/-- The thread inside `run` gets a handle only by popping it. -/
theorem ready_of_mains {move : Move Worker} {later : MainStage}
    (hmains : Mains state state.main move next later) {handle : Handle}
    (hready : handle ∈ later.ready) :
    move = .go ∧ state.main.pops ∧ handle ∈ state.queue.head? := by
  generalize state.main = stage at hmains ⊢
  cases hmains with
  | strolls _ _ _ hstrolls => simp [strolls_ready hstrolls] at hready
  | locks _ _ hpops | relocks _ _ hpops | gives _ _ hpops =>
      cases hpops with
      | misses => cases hready
      | pops _ _ _ hqueue =>
          obtain rfl := Option.some.inj hready
          exact ⟨rfl, rfl, by simp [hqueue]⟩
  | pops _ _ _ hqueue =>
      obtain rfl := Option.some.inj hready
      exact ⟨rfl, rfl, by simp [hqueue]⟩
  | starts | spawns | stirs | expires => cases hready
  | works _ round _ _ hrounds | extras _ round _ _ hrounds =>
      cases round with
      | ready other => exact absurd rfl (rounds_ne_ready hrounds other)
      | resuming | resumed | rescheduling | completing | decrementing | finished => cases hready

theorem ready_of_moves (hmoves : Moves state action next)
    (hready : ∀ handle ∈ state.main.ready, state.done handle)
    (hpops : action = .main .go → state.main.pops →
      ∀ handle ∈ state.queue.head?, state.done handle) :
    ∀ handle ∈ next.main.ready, next.done handle := by
  intro handle hhandle
  refine done_of_moves ?_ hmoves
  have hproceeds := proceeds_of_moves hmoves
  generalize next.main = later at hproceeds hhandle
  cases hproceeds with
  | stays => exact hready handle hhandle
  | woken => cases hhandle
  | mains move middle _ hmains =>
      obtain ⟨rfl, hmain, hhead⟩ := ready_of_mains hmains hhandle
      exact hpops rfl hmain handle hhead

theorem Quiet.settled_moves (hquiet : Quiet (state, history)) (hmoves : Moves state action next)
    (hrunning : next.running = false) :
    (∃ thread, (next.threads thread).waits) ∨ Settled next := by
  cases flips_of_moves hmoves with
  | keeps _ hkept =>
      have hcleared : state.running = false := by rw [← hkept, hrunning]
      rcases hquiet.settled hcleared with ⟨thread, hwaits⟩ | hsettled
      · exact (waits_of_moves hmoves hwaits).imp_left fun hnext => ⟨thread, hnext⟩
      · exact Or.inr (settled_of_moves hmoves hcleared hsettled)
  | sets _ _ hset => simp [hrunning] at hset
  | clears thread _ _ _ hlater => exact Or.inl ⟨thread, by simp [hlater, ThreadStage.waits]⟩

theorem Quiet.current_moves (hquiet : Quiet (state, history)) (hmoves : Moves state action next)
    {thread : Thread} (hcurrent : (record history state action next).current thread) :
    next.running = false ∧ ((next.threads thread).waits ∨ Settled next) := by
  rcases record_current hcurrent with ⟨hkept, hinits⟩ | ⟨rfl, hexchanging, hrunning⟩
  · obtain ⟨hcleared, hwaits | hsettled⟩ := hquiet.current thread hkept
    · exact ⟨running_of_moves hmoves hinits hcleared, waits_of_moves hmoves hwaits⟩
    · exact ⟨running_of_moves hmoves hinits hcleared,
        Or.inr (settled_of_moves hmoves hcleared hsettled)⟩
  · have hattends := attends_of_moves hmoves thread
    generalize next.threads thread = later at hattends ⊢
    cases hattends with
    | stays _ hother => exact absurd rfl (hother .go)
    | threads _ middle _ hthreads hnext =>
        rw [hexchanging] at hthreads
        subst hnext
        cases hthreads with
        | clears => exact ⟨rfl, Or.inl rfl⟩
        | skips hcleared => simp [hrunning] at hcleared

omit [DecidableEq Thread] [DecidableEq Worker] in
/-- When a call of `stop` returns, the workers are gone. -/
theorem Quiet.returns (hquiet : Quiet (state, history)) {thread : Thread}
    (hhushed : Hushed (state, history) (.thread thread .go)) (hreturns : Returns state thread) :
    state.running = false ∧ Settled state ∧
      ∀ handle ∈ state.main.ready, state.done handle := by
  obtain ⟨hready, hlate⟩ := hhushed hreturns
  have hwaits : (state.threads thread).waits = false := by
    rcases hreturns with hthread | ⟨hthread, _⟩ <;> rw [hthread] <;> rfl
  cases hcurrent : history.current thread with
  | true =>
      obtain ⟨hrunning, hstage | hsettled⟩ := hquiet.current thread hcurrent
      · simp [hwaits] at hstage
      · exact ⟨hrunning, hsettled, hready⟩
  | false =>
      obtain ⟨hrunning, hnobody⟩ := hlate hcurrent
      rcases hquiet.settled hrunning with ⟨other, hother⟩ | hsettled
      · exact absurd hother (by simp [hnobody other])
      · exact ⟨hrunning, hsettled, hready⟩

theorem Quiet.stopped_moves (hquiet : Quiet (state, history))
    (hhushed : Hushed (state, history) action) (hmoves : Moves state action next)
    (hstopped : (record history state action next).stopped = true) :
    next.running = false ∧ Settled next ∧ ∀ handle ∈ next.main.ready, next.done handle := by
  rcases record_stopped hstopped with ⟨hbefore, hinits⟩ | ⟨thread, rfl, hreturns⟩
  · obtain ⟨hrunning, hsettled, hready⟩ := hquiet.stopped hbefore
    refine ⟨running_of_moves hmoves hinits hrunning, settled_of_moves hmoves hrunning hsettled,
      ready_of_moves hmoves hready ?_⟩
    rintro rfl hpops
    exact hhushed hbefore hpops
  · obtain ⟨hrunning, hsettled, hready⟩ := hquiet.returns hhushed hreturns
    exact ⟨running_of_moves hmoves (fun hinits => by cases hinits.1) hrunning,
      settled_of_moves hmoves hrunning hsettled, ready_of_moves hmoves hready nofun⟩

theorem Quiet.moves (hquiet : Quiet (state, history)) (hhushed : Hushed (state, history) action)
    (hmoves : Moves state action next) : Quiet (next, record history state action next) where
  settled := hquiet.settled_moves hmoves
  current _ := hquiet.current_moves hmoves
  stopped := hquiet.stopped_moves hhushed hmoves

omit [DecidableEq Worker] [DecidableEq Thread] in
theorem Quiet.silent (hquiet : Quiet (state, history)) (hstopped : history.stopped = true) :
    resumes state action = false := by
  obtain ⟨_, hsettled, hready⟩ := hquiet.stopped hstopped
  unfold resumes
  split
  next worker =>
    have hworker := hsettled worker
    split
    next heq =>
      rw [heq] at hworker
      cases hworker
    next => rfl
  next =>
    rw [Option.any_eq_false]
    intro handle hhandle
    simpa using hready handle hhandle
  next => rfl

end Steps

variable [DecidableEq Worker] [Fintype Worker]

/-- The scheduler with the record. -/
def recorded (Worker Thread : Type) [DecidableEq Worker] [DecidableEq Thread] [Fintype Worker] :
    Machine (State Worker Thread × History Thread) (Action Worker Thread) :=
  (machine Worker Thread).recording { stopped := false, current := fun _ => false } record

/-- Nothing runs after a stop that finds the thread inside `run` without a popped
coroutine, as long as that thread pops none afterwards. -/
theorem silent_of_hushed (actions : List (Action Worker Thread))
    (hmeets : (recorded Worker Thread).Meets Hushed (recorded Worker Thread).start actions) :
    (recorded Worker Thread).Throughout Silent (recorded Worker Thread).start actions := by
  have hstart : Quiet (recorded Worker Thread).start :=
    { settled := fun _ => Or.inr fun _ => rfl
      current := nofun
      stopped := nofun }
  refine Machine.throughout_of_meets Quiet ?_ ?_ hstart hmeets
  · intro watched action after hquiet hhushed hstep
    obtain ⟨hnext, hrecord⟩ := Machine.recording_step hstep
    obtain ⟨next, _⟩ := after
    cases hrecord
    exact hquiet.moves hhushed (moves_of_step hnext)
  · intro watched action after hquiet _ _ hstopped
    exact hquiet.silent hstopped

instance (watched : State Worker Thread × History Thread) (action : Action Worker Thread)
    (after : State Worker Thread × History Thread) : Decidable (Silent watched action after) :=
  inferInstanceAs (Decidable (_ → _))

instance (watched : State Worker Thread × History Thread) :
    Decidable (Hushed watched (.main .go)) :=
  inferInstanceAs (Decidable (_ → _ → _))

instance [Fintype Thread] (watched : State Worker Thread × History Thread) (thread : Thread) :
    Decidable (Hushed watched (.thread thread .go)) :=
  inferInstanceAs (Decidable (_ → _))

instance [Fintype Thread] (watched : State Worker Thread × History Thread)
    (action : Action Worker Thread) : Decidable (Hushed watched action) :=
  decidable_of_iff ((action = .main .go → Hushed watched (.main .go)) ∧
      ∀ thread, action = .thread thread .go → Hushed watched (.thread thread .go)) (by
    constructor
    · rintro ⟨hmain, hthread⟩
      unfold Hushed
      split
      next thread => exact hthread thread rfl
      next => exact hmain rfl
      next => trivial
    · intro hhushed
      exact ⟨fun heq => heq ▸ hhushed, fun _ heq => heq ▸ hhushed⟩)

/-- A coroutine that is scheduled after a stop waits for the next call of `run`. -/
theorem silent_of_hushed_restart :
    (recorded Unit Unit).Throughout Silent (recorded Unit Unit).start
      [.main .go, .main .go, .main (.spawn ()), .main .go, .main .go, .main .go, .main .go,
        .main .go, .thread () .stop, .thread () .go, .thread () .go, .worker () .go,
        .thread () .go, .thread () .go, .thread () .go, .thread () .go, .main .go,
        .thread () (.call 7), .thread () .go, .thread () .go, .thread () (.push none), .main .go,
        .main .go, .main (.spawn ()), .main .go, .main .go, .main .go, .main .go] :=
  silent_of_hushed _ (by decide)

/-- The thread inside `run` pops a coroutine before a stop and resumes it after the stop
has returned. -/
theorem not_silent_popped :
    ¬ (recorded Unit Unit).Throughout Silent (recorded Unit Unit).start
      [.thread () (.call 7), .thread () .go, .thread () .go, .thread () (.push none), .main .go,
        .main .go, .main (.spawn ()), .main .go, .main .go, .main .go, .thread () .stop,
        .thread () .go, .thread () .go, .worker () .go, .thread () .go, .thread () .go,
        .thread () .go, .thread () .go, .main .go] := by
  decide

end Silence

end Tang.Scheduler
