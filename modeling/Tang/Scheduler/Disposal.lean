import Mathlib.Data.List.Count
import Tang.Foundation.History
import Tang.Scheduler.Parties

/-! # What becomes of an accepted coroutine

A coroutine that `schedule` has accepted is finished, destroyed, queued, or in the hands
of the thread that has popped it, until a worker drops it on its way out. A stop accounts
for the queue at one moment only, and not at all when the scheduler is not running.
-/

namespace Tang.Scheduler

def Post.handle : Post → Handle
  | .checking handle | .counting handle | .pushing handle => handle

/-- The popped handle that a thread has in its hands. -/
def Round.carries : Round → Option Handle
  | .ready handle | .resuming handle _ | .resumed handle => some handle
  | .rescheduling post => some post.handle
  | .completing _ | .decrementing _ | .finished _ => none

def WorkerStage.carries : WorkerStage → Option Handle
  | .popped handle => handle
  | .working round => round.carries
  | _ => none

/-- The handle that a worker has popped, before it reads the flag once more. -/
def WorkerStage.popped? : WorkerStage → Option Handle
  | .popped handle => handle
  | _ => none

def MainStage.carries : MainStage → Option Handle
  | .working round | .extra round => round.carries
  | _ => none

namespace Disposal

open Foundation

variable {Worker Thread : Type}

/-- Finished, or destroyed by a stop. -/
def Accounted (state : State Worker Thread) (handle : Handle) : Prop :=
  state.done handle ∨ handle ∈ state.destroyed

/-- In the queue or in the hands of a thread. -/
def Kept (state : State Worker Thread) (handle : Handle) : Prop :=
  handle ∈ state.queue ∨ (∃ worker, handle ∈ (state.workers worker).carries) ∨
    handle ∈ state.main.carries

/-- The handles that `schedule` has pushed. -/
def record (accepted : List Handle) (_ : State Worker Thread) (action : Action Worker Thread)
    (next : State Worker Thread) : List Handle :=
  match action with
  | .worker _ (.push _) | .main (.push _) | .thread _ (.push _) =>
      accepted ++ next.queue.getLast?.toList
  | _ => accepted

/-- When a call of `stop` returns, every accepted coroutine is finished or has been
destroyed exactly once, and none has been destroyed twice. -/
def Accounts (watched : State Worker Thread × List Handle) (action : Action Worker Thread)
    (after : State Worker Thread × List Handle) : Prop :=
  match action with
  | .thread thread .go => Returns watched.1 thread →
      (∀ handle ∈ after.2, after.1.done handle ∨ after.1.destroyed.count handle = 1) ∧
        after.1.destroyed.Nodup
  | _ => True

/-- No worker finds the flag cleared after it has popped an unfinished coroutine; a stop
that empties the queue finds no unfinished coroutine in it twice or destroyed before; a
call that returns, at once or after it has emptied the queue, finds nothing left there,
pushed since, or in the hands of a thread that is not finished or destroyed. -/
def Thorough (watched : State Worker Thread × List Handle) (action : Action Worker Thread) :
    Prop :=
  match action with
  | .worker worker .go => watched.1.running = false →
      ∀ handle ∈ (watched.1.workers worker).popped?, Accounted watched.1 handle
  | .thread thread .go =>
      (watched.1.threads thread = .clearing →
        (watched.1.destroyed ++ watched.1.queue.filter fun handle =>
          !watched.1.done handle).Nodup) ∧
      (Returns watched.1 thread → ∀ handle, Kept watched.1 handle → Accounted watched.1 handle)
  | _ => True

/-- Where an accepted coroutine is. -/
def Located (state : State Worker Thread) (handle : Handle) : Prop :=
  Accounted state handle ∨ Kept state handle

/-! ## What one step does with a coroutine -/

variable {state next middle : State Worker Thread} {handle : Handle}
  [DecidableEq Worker]

theorem carries_of_posts {post : Post} {move : Move Worker} {rest : Option Post}
    (hposts : Posts state post move next rest) :
    state.done post.handle ∨ post.handle ∈ next.queue ∨
      ∃ later, rest = some later ∧ later.handle = post.handle := by
  cases hposts with
  | refuses _ hdone => exact Or.inl hdone
  | admits | counts => exact Or.inr (Or.inr ⟨_, rfl, rfl⟩)
  | pushes => exact Or.inr (Or.inl (by simp [Post.handle]))

theorem carries_of_rounds {round later : Round} {move : Move Worker}
    (hrounds : Rounds state round move next later) (hcarries : handle ∈ round.carries) :
    state.done handle ∨ handle ∈ next.queue ∨ handle ∈ later.carries := by
  cases hrounds with
  | skips other hdone | completes other hdone =>
      obtain rfl := Option.some.inj hcarries
      exact Or.inl hdone
  | resumes | calls | suspends | finishes | posts => exact Or.inr (Or.inr hcarries)
  | reschedules => exact Or.inr (Or.inr hcarries)
  | reposts post _ _ rest hposts =>
      obtain rfl := Option.some.inj hcarries
      rcases carries_of_posts hposts with hdone | hqueue | ⟨later, rfl, hlater⟩
      · exact Or.inl hdone
      · exact Or.inr (Or.inl hqueue)
      · exact Or.inr (Or.inr (congrArg some hlater))
  | counts | leaves | decrements => cases hcarries

theorem carries_of_works {worker : Worker} {stage later : WorkerStage} {move : Move Worker}
    (hworks : Works state worker stage move middle later) (hcarries : handle ∈ stage.carries) :
    state.done handle ∨ handle ∈ middle.queue ∨ handle ∈ later.carries ∨
      (move = .go ∧ stage = .popped (some handle) ∧ state.running = false) := by
  cases hworks with
  | keeps => exact Or.inr (Or.inr (Or.inl hcarries))
  | drops other hrunning =>
      obtain rfl : other = some handle := hcarries
      exact Or.inr (Or.inr (Or.inr ⟨rfl, rfl, hrunning⟩))
  | works _ _ _ _ hrounds =>
      rcases carries_of_rounds hrounds hcarries with hdone | hqueue | hlater
      · exact Or.inl hdone
      · exact Or.inr (Or.inl hqueue)
      · exact Or.inr (Or.inr (Or.inl hlater))
  | enters | leaves | locks | relocks | parks | passes | blocks | stirs | misses | pops | quits
  | returns | ends => cases hcarries

theorem carries_of_mains {stage later : MainStage} {move : Move Worker}
    (hmains : Mains state stage move middle later) (hcarries : handle ∈ stage.carries) :
    state.done handle ∨ handle ∈ middle.queue ∨ handle ∈ later.carries := by
  cases hmains with
  | works _ _ _ _ hrounds | extras _ _ _ _ hrounds => exact carries_of_rounds hrounds hcarries
  | strolls _ _ _ hstrolls => cases hstrolls <;> cases hcarries
  | starts | spawns | locks | relocks | stirs | expires | gives | pops => cases hcarries

omit [DecidableEq Worker] in
/-- The head of the queue goes to whoever pops it. -/
theorem located_of_pop {front : Handle} {rest : List Handle}
    (hfront : state.queue = front :: rest) (hqueue : handle ∈ state.queue)
    (hrest : next.queue = rest) (hpopped : Kept next front) : Located next handle := by
  rw [hfront] at hqueue
  rcases List.mem_cons.mp hqueue with rfl | hmem
  · exact Or.inr hpopped
  · exact Or.inr (Or.inl (by rwa [hrest]))

variable [DecidableEq Thread] {action : Action Worker Thread}

/-- A coroutine in the queue stays there, is popped, or is accounted for. -/
theorem queue_of_moves (hmoves : Moves state action next) (hqueue : handle ∈ state.queue) :
    Located next handle := by
  cases serves_of_moves hmoves with
  | keeps _ hkept => exact Or.inr (Or.inl (by rwa [hkept]))
  | pushes _ _ _ hpushed => exact Or.inr (Or.inl (by simp [hpushed, hqueue]))
  | worker worker front hfront hnext =>
      refine located_of_pop hfront hqueue rfl (Or.inr (Or.inl ⟨worker, ?_⟩))
      rw [hnext]
      rfl
  | main front hfront hnext =>
      refine located_of_pop hfront hqueue rfl (Or.inr (Or.inr ?_))
      rcases hnext with hmain | hmain <;> rw [hmain] <;> rfl
  | clears thread _ _ hdestroyed =>
      cases hdone : state.done handle with
      | true => exact Or.inl (Or.inl (done_of_moves hdone hmoves))
      | false => exact Or.inl (Or.inr (by simp [hdestroyed, hqueue, hdone]))

theorem accounted_of_moves (hmoves : Moves state action next)
    (haccounted : Accounted state handle) : Accounted next handle := by
  rcases haccounted with hdone | hdestroyed
  · exact Or.inl (done_of_moves hdone hmoves)
  · apply Or.inr
    cases serves_of_moves hmoves with
    | keeps _ _ hsame | pushes _ _ _ _ hsame | worker _ _ _ _ hsame | main _ _ _ hsame =>
        rwa [hsame]
    | clears _ _ _ hmore => simp [hmore, hdestroyed]

/-- Only a worker that finds the flag cleared loses a popped coroutine. -/
theorem kept_of_moves (hmoves : Moves state action next) (hkept : Kept state handle)
    (hdrops : ∀ worker, action = .worker worker .go →
      state.workers worker = .popped (some handle) → state.running = false →
        Accounted state handle) : Located next handle := by
  rcases hkept with hqueue | ⟨worker, hcarries⟩ | hcarries
  · exact queue_of_moves hmoves hqueue
  · have hworker : handle ∈ (next.workers worker).carries → Located next handle := fun hnext =>
      Or.inr (Or.inr (Or.inl ⟨worker, hnext⟩))
    have hfares := fares_of_moves hmoves worker
    generalize next.workers worker = later at hfares hworker
    cases hfares with
    | stays => exact hworker hcarries
    | woken _ hblocked =>
        rw [hblocked] at hcarries
        cases hcarries
    | works move middle _ hworks hnext =>
        rcases carries_of_works hworks hcarries with
          hdone | hqueue | hlater | ⟨rfl, hpopped, hcleared⟩
        · exact Or.inl (Or.inl (done_of_moves hdone hmoves))
        · exact Or.inr (Or.inl (by rwa [hnext]))
        · exact hworker hlater
        · exact Or.inl (accounted_of_moves hmoves (hdrops worker rfl hpopped hcleared))
    | spawned hunstarted =>
        rw [hunstarted] at hcarries
        cases hcarries
    | joined _ _ hworkers =>
        have hjoinable := hworkers worker
        generalize state.workers worker = stage at hjoinable hcarries
        cases stage with
        | popped | working => cases hjoinable
        | unstarted | top | locking | evaluating | parking | blocked | notified | taking
        | exited => cases hcarries
  · have hmain : handle ∈ next.main.carries → Located next handle := fun hnext =>
      Or.inr (Or.inr (Or.inr hnext))
    have hproceeds := proceeds_of_moves hmoves
    generalize next.main = later at hproceeds hmain
    cases hproceeds with
    | stays => exact hmain hcarries
    | woken _ hblocked =>
        rw [hblocked] at hcarries
        cases hcarries
    | mains move middle _ hmains hnext =>
        rcases carries_of_mains hmains hcarries with hdone | hqueue | hlater
        · exact Or.inl (Or.inl (done_of_moves hdone hmoves))
        · exact Or.inr (Or.inl (by rwa [hnext]))
        · exact hmain hlater

/-! ## Runs -/

/-- What the steps that meet the condition keep. -/
structure Tracked (watched : State Worker Thread × List Handle) : Prop where
  located : ∀ handle ∈ watched.2, Located watched.1 handle
  nodup : watched.1.destroyed.Nodup

variable {accepted : List Handle}

omit [DecidableEq Worker] [DecidableEq Thread] in
theorem mem_record (state : State Worker Thread)
    (hhandle : handle ∈ record accepted state action next) :
    handle ∈ accepted ∨ handle ∈ next.queue := by
  have hpush : handle ∈ accepted ++ next.queue.getLast?.toList →
      handle ∈ accepted ∨ handle ∈ next.queue := fun hmem =>
    (List.mem_append.mp hmem).imp_right fun hlast =>
      List.mem_of_getLast? (Option.mem_toList.mp hlast)
  unfold record at hhandle
  split at hhandle
  next => exact hpush hhandle
  next => exact hpush hhandle
  next => exact hpush hhandle
  next => exact Or.inl hhandle

theorem Tracked.moves (htracked : Tracked (state, accepted))
    (hthorough : Thorough (state, accepted) action) (hmoves : Moves state action next) :
    Tracked (next, record accepted state action next) where
  located handle hhandle := by
    rcases mem_record state hhandle with hbefore | hqueue
    · rcases htracked.located handle hbefore with haccounted | hkept
      · exact Or.inl (accounted_of_moves hmoves haccounted)
      · apply kept_of_moves hmoves hkept
        rintro worker rfl hpopped hcleared
        apply hthorough hcleared handle
        simp [hpopped, WorkerStage.popped?]
    · exact Or.inr (Or.inl hqueue)
  nodup := by
    dsimp only
    cases serves_of_moves hmoves with
    | keeps _ _ hsame | pushes _ _ _ _ hsame | worker _ _ _ _ hsame | main _ _ _ hsame =>
        rw [hsame]
        exact htracked.nodup
    | clears _ hclearing _ hmore =>
        rw [hmore]
        exact hthorough.1 hclearing

theorem Tracked.accounts (htracked : Tracked (state, accepted))
    (hthorough : Thorough (state, accepted) action) (hmoves : Moves state action next) :
    Accounts (state, accepted) action (next, record accepted state action next) := by
  unfold Accounts
  split
  next thread =>
    intro hreturns
    have hnext := htracked.moves hthorough hmoves
    refine ⟨fun handle hhandle => ?_, hnext.nodup⟩
    have hbefore : Accounted state handle := by
      rcases htracked.located handle hhandle with haccounted | hkept
      · exact haccounted
      · exact hthorough.2 hreturns handle hkept
    rcases accounted_of_moves hmoves hbefore with hdone | hdestroyed
    · exact Or.inl hdone
    · exact Or.inr (List.count_eq_one_of_mem hnext.nodup hdestroyed)
  next => trivial

variable [Fintype Worker]

/-- The scheduler with the record. -/
def recorded (Worker Thread : Type) [DecidableEq Worker] [DecidableEq Thread] [Fintype Worker] :
    Machine (State Worker Thread × List Handle) (Action Worker Thread) :=
  (machine Worker Thread).recording [] record

section Decide

omit [DecidableEq Worker] [DecidableEq Thread]

instance (state : State Worker Thread) (handle : Handle) : Decidable (Accounted state handle) :=
  inferInstanceAs (Decidable (_ ∨ _))

instance (state : State Worker Thread) :
    Decidable (∀ handle, Kept state handle → Accounted state handle) :=
  decidable_of_iff ((∀ handle ∈ state.queue, Accounted state handle) ∧
      (∀ worker, ∀ handle ∈ (state.workers worker).carries, Accounted state handle) ∧
        ∀ handle ∈ state.main.carries, Accounted state handle) (by
    constructor
    · rintro ⟨hqueue, hworkers, hmain⟩ handle (hhandle | ⟨worker, hhandle⟩ | hhandle)
      · exact hqueue handle hhandle
      · exact hworkers worker handle hhandle
      · exact hmain handle hhandle
    · intro hkept
      exact ⟨fun handle hhandle => hkept handle (Or.inl hhandle),
        fun worker handle hhandle => hkept handle (Or.inr (Or.inl ⟨worker, hhandle⟩)),
        fun handle hhandle => hkept handle (Or.inr (Or.inr hhandle))⟩)

instance (watched : State Worker Thread × List Handle) (action : Action Worker Thread) :
    Decidable (Thorough watched action) := by
  unfold Thorough
  split <;> infer_instance

instance (watched : State Worker Thread × List Handle) (action : Action Worker Thread)
    (after : State Worker Thread × List Handle) : Decidable (Accounts watched action after) := by
  unfold Accounts
  split <;> infer_instance

end Decide

end Disposal

end Tang.Scheduler
