import Tang.EventLoop.Poller

/-! # Any number of threads at one event loop

Threads call `run` and `stop` and change timers and registrations; callbacks and
handlers do so as well. The test of `running_`, the steps of `handle_timers`,
the entry into `epoll_wait`, its return and every handler call are separate
steps. A callback or handler may call `run` again, so a thread has a stack of
calls. The kernel reports what is in its ready list, edge-triggered, and may end
a wait at its timeout or with an error.
-/

namespace Tang.EventLoop

open Foundation

namespace Loop

variable {Thread Source : Type}

/-- Where a call of `event_loop::run` stands, once it is past the exchange. -/
inductive Phase (Source : Type)
  /-- Before `running_.load()`. -/
  | testing
  | timers (pass : Pass)
  /-- In `epoll_wait`. -/
  | polling (waitTime : Int)
  /-- Between two handlers, with the rest of the batch. -/
  | dispatching (batch : List (Event Source))
  /-- In a handler. -/
  | handling (batch : List (Event Source))

structure State (Thread Source : Type) where
  running : Bool
  table : Table
  poller : Poller Source
  /-- The kernel's ready list. -/
  ready : List Int
  /-- The calls of `run` a thread is in, the innermost first. -/
  frames : Thread → List (Phase Source)

/-- A call of the event loop by code, other than `run`. The descriptor is what
`get_handle()` of the source returns. -/
inductive Call (Source : Type)
  | stop
  | timer (op : TimerOp)
  | register (source : Option Source) (fd : Int) (events : Mask) (fails : Bool)
  | modify (source : Option Source) (fd : Int) (events : Mask) (fails : Bool)
  | delete (source : Option Source) (fd : Int) (fails : Bool)

/-- A step of a thread inside `run`. -/
inductive Move
  | test (now : TimePoint)
  | examine
  | returns
  | poll
  | wake (entries : List (Int × Mask))
  | expire
  | interrupt
  | dispatch
  | handled
  | next
  | throws

inductive Action (Thread Source : Type)
  | call (thread : Thread) (call : Call Source)
  | run (thread : Thread)
  | move (thread : Thread) (move : Move)
  /-- A watched descriptor becomes ready. -/
  | arrive (fd : Int)
  /-- A descriptor is no longer ready. -/
  | withdraw (fd : Int)

namespace Phase

/-- Code runs in a callback and in a handler. -/
def codeRuns : Phase Source → Bool
  | .timers pass => pass.calling
  | .handling _ => true
  | .testing | .polling _ | .dispatching _ => false

/-- The events that are collected and not yet dispatched. -/
def batch : Phase Source → List (Event Source)
  | .dispatching batch | .handling batch => batch
  | .testing | .timers _ | .polling _ => []

/-- In the body of the `while` loop. -/
def inBody : Phase Source → Bool
  | .testing => false
  | .timers _ | .polling _ | .dispatching _ | .handling _ => true

/-- In `epoll_wait` with a negative timeout, which never elapses. -/
def unlimited : Phase Source → Bool
  | .polling waitTime => decide (waitTime < 0)
  | .testing | .timers _ | .dispatching _ | .handling _ => false

end Phase

/-- Code of a thread runs outside `run`, and inside callbacks and handlers. -/
def codeRuns : List (Phase Source) → Bool
  | [] => true
  | phase :: _ => phase.codeRuns

namespace State

/-- What a call of code does; none for a choice the hash table does not have. A
descriptor that is deleted leaves the ready list. -/
def perform (state : State Thread Source) : Call Source → Option (State Thread Source)
  | .stop => some { state with running := false }
  | .timer op => (op.run state.table).map fun table => { state with table := table }
  | .register source fd events fails =>
      some { state with poller := (state.poller.registerEvent source fd events fails).1 }
  | .modify source fd events fails =>
      some { state with poller := (state.poller.modifyEvent source fd events fails).1 }
  | .delete source fd fails =>
      let out := state.poller.deleteEvent source fd fails
      some { state with
        poller := out.1
        ready := if out.2 then state.ready.filter fun other => other != fd else state.ready }

variable [DecidableEq Thread]

def setFrames (state : State Thread Source) (thread : Thread) (frames : List (Phase Source)) :
    State Thread Source :=
  { state with frames := Function.update state.frames thread frames }

section Projections

variable (state : State Thread Source) (thread : Thread) (frames : List (Phase Source))

@[simp] theorem setFrames_running : (state.setFrames thread frames).running = state.running := rfl

@[simp] theorem setFrames_poller : (state.setFrames thread frames).poller = state.poller := rfl

@[simp] theorem setFrames_ready : (state.setFrames thread frames).ready = state.ready := rfl

@[simp] theorem setFrames_frames :
    (state.setFrames thread frames).frames = Function.update state.frames thread frames := rfl

end Projections

/-- A phase of some thread afterwards is a new one, or was there. -/
theorem mem_setFrames {state : State Thread Source} {thread other : Thread}
    {frames : List (Phase Source)} {phase : Phase Source}
    (hphase : phase ∈ (state.setFrames thread frames).frames other) :
    other = thread ∧ phase ∈ frames ∨ phase ∈ state.frames other := by
  rw [setFrames_frames] at hphase
  by_cases hother : other = thread
  · rw [hother, Function.update_self] at hphase
    exact Or.inl ⟨hother, hphase⟩
  · rw [Function.update_of_ne hother] at hphase
    exact Or.inr hphase

end State

/-- A report of `epoll_wait`: descriptors that are ready, each once. -/
def Reports (ready : List Int) (entries : List (Int × Mask)) : Prop :=
  entries ≠ [] ∧ entries.length ≤ Poller.maxEvents ∧ (entries.map Prod.fst).Nodup ∧
    ∀ entry ∈ entries, entry.1 ∈ ready

instance (ready : List Int) (entries : List (Int × Mask)) : Decidable (Reports ready entries) :=
  inferInstanceAs (Decidable (_ ∧ _ ∧ _ ∧ _))

/-- What a call of `run` does, and where it stands then, if it has not returned.
A step of `handle_timers` through an invalid iterator is undefined: the run ends
before it. -/
def walk (state : State Thread Source) :
    Phase Source → Move → Option (State Thread Source × Option (Phase Source))
  | .testing, .test now =>
      if state.running then some (state, some (.timers (.begin state.table now)))
      else some (state, none)
  | .timers pass, .examine =>
      if pass.calling then none
      else (pass.current state.table).map fun timer =>
        (state, some (.timers (pass.examine state.table timer)))
  | .timers pass, .returns =>
      if pass.calling then
        (pass.current state.table).map fun timer =>
          ({ state with table := state.table.erase timer.node },
            some (.timers (pass.proceed state.table timer)))
      else none
  -- without an epoll instance `wait` returns -1 at once
  | .timers pass, .poll =>
      if pass.it = none then
        if state.poller.opened then
          some (state, some (.polling (Poller.waitTime pass.nextTimeout)))
        else some (state, some .testing)
      else none
  | .polling _, .wake entries =>
      if Reports state.ready entries then
        some ({ state with ready := state.ready.filter fun fd => fd ∉ entries.map Prod.fst },
          some (.dispatching (state.poller.collect entries)))
      else none
  | .polling waitTime, .expire => if 0 ≤ waitTime then some (state, some .testing) else none
  | .polling _, .interrupt => some (state, some .testing)
  | .dispatching (_ :: rest), .dispatch => some (state, some (.handling rest))
  | .handling batch, .handled => some (state, some (.dispatching batch))
  | .dispatching [], .next => some (state, some .testing)
  -- an exception of a callback or a handler leaves `run`; `running_` stays set
  | .timers pass, .throws => if pass.calling then some (state, none) else none
  | .handling _, .throws => some (state, none)
  | _, _ => none

variable [DecidableEq Thread]

def step (state : State Thread Source) : Action Thread Source → Option (State Thread Source)
  | .call thread call =>
      if codeRuns (state.frames thread) then state.perform call else none
  | .run thread =>
      if codeRuns (state.frames thread) then
        if state.running then some state
        else some ({ state with running := true }.setFrames thread
          (.testing :: state.frames thread))
      else none
  | .move thread move =>
      match state.frames thread with
      | [] => none
      | phase :: callers =>
          (walk state phase move).map fun after =>
            after.1.setFrames thread (after.2.toList ++ callers)
  | .arrive fd =>
      if (state.poller.interest fd).isSome ∧ fd ∉ state.ready then
        some { state with ready := state.ready ++ [fd] }
      else none
  | .withdraw fd => some { state with ready := state.ready.filter fun other => other != fd }

/-- The loop after its construction; `epoll_create1` may have failed. -/
def machine (Thread Source : Type) [DecidableEq Thread] (opened : Bool) :
    Machine (State Thread Source) (Action Thread Source) where
  start := ⟨false, .new, .create opened, [], fun _ => []⟩
  step := step

/-! ## Inversion of a step -/

section Inversion

variable {state next middle : State Thread Source} {phase : Phase Source}
  {later : Option (Phase Source)} {move : Move}

omit [DecidableEq Thread]

/-- How a call of `run` moves. -/
inductive Walks (state : State Thread Source) :
    Phase Source → Move → State Thread Source → Option (Phase Source) → Prop
  | enters (now : TimePoint) (hrunning : state.running) :
      Walks state .testing (.test now) state (some (.timers (.begin state.table now)))
  | leaves (now : TimePoint) (hrunning : state.running = false) :
      Walks state .testing (.test now) state none
  | examines (pass : Pass) (timer : Timer) (hcurrent : pass.current state.table = some timer) :
      Walks state (.timers pass) .examine state
        (some (.timers (pass.examine state.table timer)))
  | erases (pass : Pass) (timer : Timer) (hcurrent : pass.current state.table = some timer) :
      Walks state (.timers pass) .returns { state with table := state.table.erase timer.node }
        (some (.timers (pass.proceed state.table timer)))
  | polls (pass : Pass) (hit : pass.it = none) (hopened : state.poller.opened) :
      Walks state (.timers pass) .poll state
        (some (.polling (Poller.waitTime pass.nextTimeout)))
  | fails (pass : Pass) (hit : pass.it = none) (hopened : state.poller.opened = false) :
      Walks state (.timers pass) .poll state (some .testing)
  | wakes (waitTime : Int) (entries : List (Int × Mask))
      (hreports : Reports state.ready entries) :
      Walks state (.polling waitTime) (.wake entries)
        { state with ready := state.ready.filter fun fd => fd ∉ entries.map Prod.fst }
        (some (.dispatching (state.poller.collect entries)))
  | expires (waitTime : Int) (hlimited : 0 ≤ waitTime) :
      Walks state (.polling waitTime) .expire state (some .testing)
  | interrupts (waitTime : Int) :
      Walks state (.polling waitTime) .interrupt state (some .testing)
  | dispatches (event : Event Source) (rest : List (Event Source)) :
      Walks state (.dispatching (event :: rest)) .dispatch state (some (.handling rest))
  | handled (batch : List (Event Source)) :
      Walks state (.handling batch) .handled state (some (.dispatching batch))
  | next : Walks state (.dispatching []) .next state (some .testing)
  | throws (phase : Phase Source) (hcode : phase.codeRuns) :
      Walks state phase .throws state none

theorem walks_of_walk (hwalk : walk state phase move = some (middle, later)) :
    Walks state phase move middle later := by
  unfold walk at hwalk
  split at hwalk
  next now =>
    split at hwalk
    next hrunning =>
      cases hwalk
      exact .enters now hrunning
    next hrunning =>
      cases hwalk
      exact .leaves now (Bool.eq_false_iff.mpr hrunning)
  next pass =>
    split at hwalk
    next => cases hwalk
    next =>
      obtain ⟨timer, hcurrent, heq⟩ := Option.map_eq_some_iff.mp hwalk
      cases heq
      exact .examines pass timer hcurrent
  next pass =>
    split at hwalk
    next =>
      obtain ⟨timer, hcurrent, heq⟩ := Option.map_eq_some_iff.mp hwalk
      cases heq
      exact .erases pass timer hcurrent
    next => cases hwalk
  next pass =>
    split at hwalk
    next hit =>
      split at hwalk
      next hopened =>
        cases hwalk
        exact .polls pass hit hopened
      next hopened =>
        cases hwalk
        exact .fails pass hit (Bool.eq_false_iff.mpr hopened)
    next => cases hwalk
  next waitTime entries =>
    split at hwalk
    next hreports =>
      cases hwalk
      exact .wakes waitTime entries hreports
    next => cases hwalk
  next waitTime =>
    split at hwalk
    next hlimited =>
      cases hwalk
      exact .expires waitTime hlimited
    next => cases hwalk
  next waitTime =>
    cases hwalk
    exact .interrupts waitTime
  next event rest =>
    cases hwalk
    exact .dispatches event rest
  next batch =>
    cases hwalk
    exact .handled batch
  next =>
    cases hwalk
    exact .next
  next pass =>
    split at hwalk
    next hcalling =>
      cases hwalk
      exact .throws _ hcalling
    next => cases hwalk
  next batch =>
    cases hwalk
    exact .throws _ rfl
  next => cases hwalk

/-- A call of `run` leaves `running_`, the registrations and the other calls
alone. -/
theorem Walks.frame (hwalks : Walks state phase move middle later) :
    middle.running = state.running ∧ middle.poller = state.poller ∧
      middle.frames = state.frames := by
  cases hwalks with
  | _ => exact ⟨rfl, rfl, rfl⟩

theorem State.perform_frames {call : Call Source} (hperform : state.perform call = some next) :
    next.frames = state.frames := by
  cases call with
  | timer op =>
      obtain ⟨table, _, rfl⟩ := Option.map_eq_some_iff.mp hperform
      rfl
  | stop | register | modify | delete =>
      cases hperform
      rfl

end Inversion

/-- The steps, by what they do. -/
inductive Moves (state : State Thread Source) :
    Action Thread Source → State Thread Source → Prop
  | calls (thread : Thread) (call : Call Source) (next : State Thread Source)
      (hcode : codeRuns (state.frames thread)) (hperform : state.perform call = some next) :
      Moves state (.call thread call) next
  | returnsAtOnce (thread : Thread) (hrunning : state.running) : Moves state (.run thread) state
  | starts (thread : Thread) (hcode : codeRuns (state.frames thread))
      (hrunning : state.running = false) :
      Moves state (.run thread) ({ state with running := true }.setFrames thread
        (.testing :: state.frames thread))
  | walks (thread : Thread) (move : Move) (middle : State Thread Source) (phase : Phase Source)
      (callers : List (Phase Source)) (later : Option (Phase Source))
      (hframes : state.frames thread = phase :: callers)
      (hwalks : Walks state phase move middle later) :
      Moves state (.move thread move) (middle.setFrames thread (later.toList ++ callers))
  | arrives (fd : Int) (hwatched : (state.poller.interest fd).isSome) :
      Moves state (.arrive fd) { state with ready := state.ready ++ [fd] }
  | withdraws (fd : Int) :
      Moves state (.withdraw fd)
        { state with ready := state.ready.filter fun other => other != fd }

theorem moves_of_step {state next : State Thread Source} {action : Action Thread Source}
    (hstep : step state action = some next) : Moves state action next := by
  cases action with
  | call thread call =>
      simp only [step] at hstep
      split at hstep
      next hcode => exact .calls thread call next hcode hstep
      next => cases hstep
  | run thread =>
      simp only [step] at hstep
      split at hstep
      next hcode =>
        split at hstep
        next hrunning =>
          cases hstep
          exact .returnsAtOnce thread hrunning
        next hrunning =>
          cases hstep
          exact .starts thread hcode (Bool.eq_false_iff.mpr hrunning)
      next => cases hstep
  | move thread move =>
      simp only [step] at hstep
      split at hstep
      next => cases hstep
      next phase callers hframes =>
        obtain ⟨⟨middle, later⟩, hwalk, rfl⟩ := Option.map_eq_some_iff.mp hstep
        exact .walks thread move middle phase callers later hframes (walks_of_walk hwalk)
  | arrive fd =>
      simp only [step] at hstep
      split at hstep
      next hwatched =>
        cases hstep
        exact .arrives fd hwatched.1
      next => cases hstep
  | withdraw fd =>
      cases hstep
      exact .withdraws fd

end Loop

end Tang.EventLoop
