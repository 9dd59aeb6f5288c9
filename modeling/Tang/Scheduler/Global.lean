import Tang.Foundation.Family
import Tang.Scheduler.Basic

/-! # The global scheduler

`runtime::schedule`, `runtime::task_started` and `runtime::task_completed` test
`g_scheduler`, and whoever finds it null calls `runtime::init` before using it.
`init` tests it again, deletes what it finds, and stores a new scheduler. No
lock is held on the way. The handles passed to `schedule` are valid and their
coroutines suspended, so the tests of the handle are left out, and so are the
counters of the schedulers.
-/

namespace Tang.Scheduler.Global

open Foundation

/-- A call of the runtime. -/
inductive Call
  | schedule (handle : Handle)
  | taskStarted
  | taskCompleted
  deriving DecidableEq

/-- A thread, by its next step. -/
inductive Stage
  | idle
  /-- The test of `g_scheduler`. -/
  | testing (call : Call)
  /-- In `init`: the second test, `delete g_scheduler`, `g_scheduler = nullptr`,
  and `g_scheduler = new scheduler`. -/
  | initializing (call : Call)
  | deleting (call : Call)
  | nulling (call : Call)
  | creating (call : Call)
  /-- Before `g_scheduler` is read for the call. -/
  | entering (call : Call)
  /-- In `scheduler::schedule` of an object. -/
  | pushing (object : Nat) (handle : Handle)
  /-- It has used a null or a dangling pointer: the behaviour is undefined. -/
  | undefined
  deriving DecidableEq

/-- Schedulers are numbered by their creation. `passed` records the arguments of
the calls of `runtime::schedule`. -/
structure State (Thread : Type) where
  current : Option Nat
  created : Nat
  queues : Nat → List Handle
  deleted : List Nat
  stages : Thread → Stage
  passed : List Handle

inductive Action (Thread : Type)
  | call (thread : Thread) (call : Call)
  /-- The next step of the thread. -/
  | go (thread : Thread)
  deriving DecidableEq

variable {Thread : Type} [DecidableEq Thread]

def State.advance (state : State Thread) (thread : Thread) (stage : Stage) : State Thread :=
  { state with stages := Function.update state.stages thread stage }

/-- The handles a call passes to `runtime::schedule`. -/
def Call.handles : Call → List Handle
  | .schedule handle => [handle]
  | .taskStarted | .taskCompleted => []

/-- The use of an object after `g_scheduler` was read. -/
def Call.use (object : Nat) : Call → Stage
  | .schedule handle => .pushing object handle
  | .taskStarted | .taskCompleted => .idle

def step (state : State Thread) : Action Thread → Option (State Thread)
  | .call thread call =>
      match state.stages thread with
      | .idle =>
          some ({ state with passed := state.passed ++ call.handles }.advance thread
            (.testing call))
      | _ => none
  | .go thread =>
      match state.stages thread with
      | .testing call =>
          some (state.advance thread
            (if state.current.isNone then .initializing call else .entering call))
      | .initializing call =>
          some (state.advance thread
            (if state.current.isSome then .deleting call else .creating call))
      | .deleting call =>
          match state.current with
          | none => some (state.advance thread (.nulling call))
          | some object =>
              if object ∈ state.deleted then some (state.advance thread .undefined)
              else
                some ({ state with deleted := state.deleted ++ [object] }.advance thread
                  (.nulling call))
      | .nulling call => some ({ state with current := none }.advance thread (.creating call))
      | .creating call =>
          some ({ state with
            current := some state.created
            created := state.created + 1
            queues := Function.update state.queues state.created [] }.advance thread
              (.entering call))
      | .entering call =>
          match state.current with
          | none => some (state.advance thread .undefined)
          | some object =>
              if object ∈ state.deleted then some (state.advance thread .undefined)
              else some (state.advance thread (call.use object))
      | .pushing object handle =>
          if object ∈ state.deleted then some (state.advance thread .undefined)
          else
            some ({ state with
              queues := Function.update state.queues object
                (state.queues object ++ [handle]) }.advance thread .idle)
      | .idle | .undefined => none

/-- Before the first call. -/
def initial : State Thread where
  current := none
  created := 0
  queues _ := []
  deleted := []
  stages _ := .idle
  passed := []

/-- All interleavings of the first callers, in any number. -/
def machine (Thread : Type) [DecidableEq Thread] : Machine (State Thread) (Action Thread) where
  start := initial
  step := step

/-! ## What lazy creation is to guarantee -/

/-- The queue of the scheduler `g_scheduler` points to. -/
def State.queue (state : State Thread) : List Handle :=
  state.current.elim [] state.queues

/-- When all calls have returned, the queue of the global scheduler holds every
handle as often as it was passed, and no deleted scheduler has got one. -/
structure LosesNothing (state : State Thread) : Prop where
  queued : (∀ thread, state.stages thread = .idle) → state.passed.Perm state.queue
  spared : ∀ object ∈ state.deleted, state.queues object = []

/-- The thread has found `g_scheduler` null and not stored a scheduler yet. -/
def Stage.initiates : Stage → Bool
  | .initializing _ | .deleting _ | .nulling _ | .creating _ => true
  | .idle | .testing _ | .entering _ | .pushing _ _ | .undefined => false

/-- A caller finds `g_scheduler` null only when no other caller that has found
it null has yet to store its scheduler. -/
def Alone (state : State Thread) : Action Thread → Prop
  | .go thread => (∃ call, state.stages thread = .testing call) → state.current = none →
      ∀ other, (state.stages other).initiates = false
  | .call _ _ => True

/-! ## One initialisation at a time -/

/-- Where a thread can stand when `g_scheduler` has this value. -/
def Stage.Agrees (current : Option Nat) : Stage → Prop
  | .idle | .testing _ => True
  | .initializing _ | .creating _ => current = none
  | .entering _ => current ≠ none
  | .pushing object _ => current = some object
  | .deleting _ | .nulling _ | .undefined => False

/-- The handles a thread has still to push. -/
def Stage.handles : Stage → List Handle
  | .testing call | .initializing call | .deleting call | .nulling call | .creating call
  | .entering call => call.handles
  | .pushing _ handle => [handle]
  | .idle | .undefined => []

/-- How often a thread has still to push the handle. -/
def Stage.owes (handle : Handle) (stage : Stage) : Nat := stage.handles.count handle

@[simp] theorem Call.use_handles (object : Nat) (call : Call) :
    (call.use object).handles = call.handles := by
  cases call <;> rfl

@[simp] theorem Call.use_initiates (object : Nat) (call : Call) :
    (call.use object).initiates = false := by
  cases call <;> rfl

theorem Call.use_agrees (object : Nat) (call : Call) :
    (call.use object).Agrees (some object) := by
  cases call with
  | schedule handle => rfl
  | taskStarted => trivial
  | taskCompleted => trivial

section Settled

variable [Fintype Thread]

/-- While initialisations do not overlap, each creates the first scheduler, and
what was passed is in its queue or on its way. -/
structure Settled (state : State Thread) : Prop where
  agrees : ∀ thread, (state.stages thread).Agrees state.current
  once : ∀ thread other, (state.stages thread).initiates = true →
    (state.stages other).initiates = true → thread = other
  deleted_eq : state.deleted = []
  counted : ∀ handle, state.passed.count handle =
    state.queue.count handle + total (Stage.owes handle) state.stages

omit [DecidableEq Thread] in
theorem Settled.losesNothing {state : State Thread} (hsettled : Settled state) :
    LosesNothing state where
  queued hidle := by
    rw [List.perm_iff_count]
    intro handle
    rw [hsettled.counted, total_eq_zero, Nat.add_zero]
    intro thread
    rw [hidle]
    rfl
  spared object hobject := by simp [hsettled.deleted_eq] at hobject

omit [DecidableEq Thread] in
theorem initial_settled : Settled (initial : State Thread) where
  agrees _ := trivial
  once _ _ hinitiates := by cases hinitiates
  deleted_eq := rfl
  counted handle := by
    have hnone : total (Stage.owes handle) (initial : State Thread).stages = 0 :=
      total_eq_zero fun _ => rfl
    rw [hnone]
    rfl

variable {state : State Thread} {thread : Thread} {stage : Stage}

omit [Fintype Thread] in
/-- A thread that begins to initialise is the only one. -/
theorem once_update {stages : Thread → Stage}
    (hprior : ∀ first second, (stages first).initiates = true →
      (stages second).initiates = true → first = second)
    (honce : stage.initiates = true → ∀ other, other ≠ thread → (stages other).initiates = false)
    (first second : Thread)
    (hfirst : (Function.update stages thread stage first).initiates = true)
    (hsecond : (Function.update stages thread stage second).initiates = true) :
    first = second := by
  by_cases hone : first = thread <;> by_cases htwo : second = thread
  · rw [hone, htwo]
  · subst hone
    rw [Function.update_self] at hfirst
    rw [Function.update_of_ne htwo, honce hfirst second htwo] at hsecond
    cases hsecond
  · subst htwo
    rw [Function.update_self] at hsecond
    rw [Function.update_of_ne hone, honce hsecond first hone] at hfirst
    cases hfirst
  · rw [Function.update_of_ne hone] at hfirst
    rw [Function.update_of_ne htwo] at hsecond
    exact hprior first second hfirst hsecond

/-- A step that leaves `g_scheduler` as it is. -/
theorem Settled.advance (hsettled : Settled state) {queues : Nat → List Handle}
    {passed : List Handle} (hagrees : stage.Agrees state.current)
    (honce : stage.initiates = true →
      ∀ other, other ≠ thread → (state.stages other).initiates = false)
    (hcounted : ∀ handle, passed.count handle + state.queue.count handle +
        (state.stages thread).owes handle =
      state.passed.count handle + (state.current.elim [] queues).count handle +
        stage.owes handle) :
    Settled ({ state with queues := queues, passed := passed }.advance thread stage) where
  agrees := (Function.forall_update_iff state.stages
    fun _ stage => stage.Agrees state.current).mpr ⟨hagrees, fun other _ => hsettled.agrees other⟩
  once := once_update hsettled.once honce
  deleted_eq := hsettled.deleted_eq
  counted handle := by
    have htotal := total_update (Stage.owes handle) state.stages thread stage
    have hprior := hsettled.counted handle
    have hbalance := hcounted handle
    simp only [State.advance, State.queue] at *
    omega

/-- The first scheduler is stored. -/
theorem Settled.creates (hsettled : Settled state) {call : Call}
    (hstage : state.stages thread = .creating call) :
    Settled ({ state with
      current := some state.created
      created := state.created + 1
      queues := Function.update state.queues state.created [] }.advance thread
        (.entering call)) where
  agrees := by
    have hnull : state.current = none := by
      simpa [hstage, Stage.Agrees] using hsettled.agrees thread
    refine (Function.forall_update_iff state.stages
      fun _ stage => stage.Agrees (some state.created)).mpr ⟨by simp [Stage.Agrees], ?_⟩
    intro other hother
    have hagrees := hsettled.agrees other
    have honce := hsettled.once thread other (by simp [hstage, Stage.initiates])
    cases hstages : state.stages other <;>
      simp_all [Stage.Agrees, Stage.initiates, eq_comm]
  once := once_update hsettled.once (by simp [Stage.initiates])
  deleted_eq := hsettled.deleted_eq
  counted handle := by
    have hnull : state.current = none := by
      simpa [hstage, Stage.Agrees] using hsettled.agrees thread
    have htotal := total_update (Stage.owes handle) state.stages thread (.entering call)
    have hprior := hsettled.counted handle
    simp only [hstage, Stage.owes, Stage.handles] at htotal
    simp only [State.queue, hnull, Option.elim_none, List.count_nil] at hprior
    simp only [State.advance, State.queue, Option.elim_some, Function.update_self, List.count_nil]
    omega

/-- A caller that finds `g_scheduler` null alone keeps initialisations apart. -/
theorem Settled.step {next : State Thread} {action : Action Thread} (hsettled : Settled state)
    (halone : Alone state action) (hstep : (machine Thread).step state action = some next) :
    Settled next := by
  change Global.step state action = some next at hstep
  cases action with
  | call thread call =>
      simp only [Global.step] at hstep
      split at hstep
      next hstage =>
        cases hstep
        refine hsettled.advance trivial (by simp [Stage.initiates]) fun handle => ?_
        simp [hstage, State.queue, Stage.owes, Stage.handles]
        omega
      next => cases hstep
  | go thread =>
      have hagrees := hsettled.agrees thread
      cases hstage : state.stages thread with
      | idle => simp [Global.step, hstage] at hstep
      | undefined => simp [Global.step, hstage] at hstep
      | deleting call => simp [hstage, Stage.Agrees] at hagrees
      | nulling call => simp [hstage, Stage.Agrees] at hagrees
      | testing call =>
          simp only [Global.step, hstage] at hstep
          cases hcurrent : state.current with
          | none =>
              simp only [hcurrent, Option.isNone_none, if_pos] at hstep
              cases hstep
              exact hsettled.advance hcurrent
                (fun _ other _ => halone ⟨call, hstage⟩ hcurrent other) fun handle => by
                  simp [hstage, State.queue, Stage.owes, Stage.handles]
          | some object =>
              simp only [hcurrent, Option.isNone_some, Bool.false_eq_true, if_false] at hstep
              cases hstep
              exact hsettled.advance (by simp [Stage.Agrees, hcurrent])
                (by simp [Stage.initiates]) fun handle => by
                  simp [hstage, State.queue, Stage.owes, Stage.handles]
      | initializing call =>
          have hnull : state.current = none := by simpa [hstage, Stage.Agrees] using hagrees
          simp only [Global.step, hstage, hnull, Option.isSome_none, Bool.false_eq_true,
            if_false] at hstep
          cases hstep
          -- Were another thread past the test too, two would be initializing at once.
          refine hsettled.advance hnull (fun _ other hother => ?_) fun handle => by
            simp [hstage, State.queue, Stage.owes, Stage.handles]
          by_contra hinitiates
          exact hother (hsettled.once other thread (by simpa using hinitiates)
            (by simp [hstage, Stage.initiates]))
      | creating call =>
          simp only [Global.step, hstage] at hstep
          cases hstep
          exact hsettled.creates hstage
      | entering call =>
          have hsome : state.current ≠ none := by simpa [hstage, Stage.Agrees] using hagrees
          obtain ⟨object, hcurrent⟩ := Option.ne_none_iff_exists'.mp hsome
          have hlive : object ∉ state.deleted := by simp [hsettled.deleted_eq]
          simp only [Global.step, hstage, hcurrent, if_neg hlive] at hstep
          cases hstep
          exact hsettled.advance (hcurrent ▸ call.use_agrees object) (by simp) fun handle => by
            simp [hstage, State.queue, Stage.owes]
            rfl
      | pushing object handle =>
          have hcurrent : state.current = some object := by
            simpa [hstage, Stage.Agrees] using hagrees
          have hlive : object ∉ state.deleted := by simp [hsettled.deleted_eq]
          simp only [Global.step, hstage, if_neg hlive] at hstep
          cases hstep
          refine hsettled.advance trivial (by simp [Stage.initiates]) fun other => ?_
          simp [hstage, State.queue, Stage.owes, Stage.handles, hcurrent]
          omega

end Settled

/-! ## What a second initialisation deletes

A thread that has found `g_scheduler` null and enters `init` when another one
has stored a scheduler deletes that one, whatever it has got by then. -/

section Races

variable {state : State Thread} {early : Thread} {other : Call} {object : Nat} (late : Thread)
  (call : Call)

theorem not_secure_of_received (hlate : state.stages late = .initializing call)
    (hcurrent : state.current = some object) (hdeleted : object ∉ state.deleted)
    (hreceived : state.queues object ≠ []) :
    ¬ (machine Thread).Secure Alone LosesNothing state := by
  intro hsecure
  have htests : (machine Thread).step state (.go late) =
      some (state.advance late (.deleting call)) := by
    simp [machine, Global.step, hlate, hcurrent]
  have hdeletes : (machine Thread).step (state.advance late (.deleting call)) (.go late) =
      some ({ state with deleted := state.deleted ++ [object] }.advance late (.nulling call)) := by
    simp [machine, Global.step, State.advance, hcurrent, hdeleted]
  have hlast := (hsecure.step (by simp [Alone, hlate]) htests).step
    (by simp [Alone, State.advance]) hdeletes
  exact hreceived (hlast.head.spared object (List.mem_append_right _ (List.mem_singleton_self _)))

theorem not_secure_of_pushing (hne : late ≠ early) {handle : Handle}
    (hlate : state.stages late = .initializing call)
    (hearly : state.stages early = .pushing object handle)
    (hcurrent : state.current = some object) (hdeleted : object ∉ state.deleted) :
    ¬ (machine Thread).Secure Alone LosesNothing state := by
  intro hsecure
  have hpushes : (machine Thread).step state (.go early) = some ({ state with
      queues := Function.update state.queues object
        (state.queues object ++ [handle]) }.advance early .idle) := by
    simp [machine, Global.step, hearly, hdeleted]
  have hnext := hsecure.step (by simp [Alone, hearly]) hpushes
  refine absurd hnext (not_secure_of_received late call ?_ hcurrent hdeleted ?_)
  · exact (Function.update_of_ne hne _ _).trans hlate
  · simp [State.advance]

/-- A caller that is done can call again. -/
theorem not_secure_of_idle (hne : late ≠ early) (hlate : state.stages late = .initializing call)
    (hearly : state.stages early = .idle) (hcurrent : state.current = some object)
    (hdeleted : object ∉ state.deleted) :
    ¬ (machine Thread).Secure Alone LosesNothing state := by
  intro hsecure
  obtain ⟨called, hcalled⟩ : ∃ called, called =
      { state with passed := state.passed ++ [0] }.advance early (.testing (.schedule 0)) :=
    ⟨_, rfl⟩
  have hcalls : (machine Thread).step state (.call early (.schedule 0)) = some called := by
    rw [hcalled]
    simp only [machine, Global.step, hearly]
    rfl
  have htests : (machine Thread).step called (.go early) =
      some (called.advance early (.entering (.schedule 0))) := by
    simp [machine, Global.step, hcalled, State.advance, hcurrent]
  have hreads : (machine Thread).step (called.advance early (.entering (.schedule 0)))
      (.go early) = some ((called.advance early (.entering (.schedule 0))).advance early
        (.pushing object 0)) := by
    simp [machine, Global.step, hcalled, State.advance, hcurrent, hdeleted, Call.use]
  have hlast := ((hsecure.step (by simp [Alone]) hcalls).step
    (by simp [Alone, hcalled, State.advance, hcurrent]) htests).step
    (by simp [Alone, State.advance]) hreads
  refine absurd hlast (not_secure_of_pushing late call hne ?_ (Function.update_self _ _ _) ?_ ?_)
  · simp [hcalled, State.advance, Function.update_of_ne hne, hlate]
  · simpa [hcalled, State.advance] using hcurrent
  · simpa [hcalled, State.advance] using hdeleted

/-- The other caller is about to use the scheduler it has stored. -/
theorem not_secure_of_entering (hne : late ≠ early)
    (hlate : state.stages late = .initializing call)
    (hearly : state.stages early = .entering other) (hcurrent : state.current = some object)
    (hdeleted : object ∉ state.deleted) :
    ¬ (machine Thread).Secure Alone LosesNothing state := by
  intro hsecure
  have hreads : (machine Thread).step state (.go early) =
      some (state.advance early (other.use object)) := by
    simp [machine, Global.step, hearly, hcurrent, hdeleted]
  have hnext := hsecure.step (by simp [Alone, hearly]) hreads
  have hkeeps : (state.advance early (other.use object)).stages late = .initializing call :=
    (Function.update_of_ne hne _ _).trans hlate
  cases other with
  | schedule handle =>
      exact absurd hnext (not_secure_of_pushing late call hne hkeeps
        (Function.update_self _ _ _) hcurrent hdeleted)
  | taskStarted | taskCompleted =>
      exact absurd hnext (not_secure_of_idle late call hne hkeeps
        (Function.update_self _ _ _) hcurrent hdeleted)

theorem not_secure_of_creating (hne : late ≠ early)
    (hlate : state.stages late = .initializing call)
    (hearly : state.stages early = .creating other) (hdeleted : state.deleted = []) :
    ¬ (machine Thread).Secure Alone LosesNothing state := by
  intro hsecure
  have hcreates : (machine Thread).step state (.go early) = some ({ state with
      current := some state.created
      created := state.created + 1
      queues := Function.update state.queues state.created [] }.advance early
        (.entering other)) := by
    simp [machine, Global.step, hearly]
  have hnext := hsecure.step (by simp [Alone, hearly]) hcreates
  refine absurd hnext (not_secure_of_entering late call hne ?_ (Function.update_self _ _ _) rfl ?_)
  · exact (Function.update_of_ne hne _ _).trans hlate
  · simp [State.advance, hdeleted]

theorem not_secure_of_initializing (hne : late ≠ early)
    (hlate : state.stages late = .initializing call)
    (hearly : state.stages early = .initializing other) (hnull : state.current = none)
    (hdeleted : state.deleted = []) :
    ¬ (machine Thread).Secure Alone LosesNothing state := by
  intro hsecure
  have htests : (machine Thread).step state (.go early) =
      some (state.advance early (.creating other)) := by
    simp [machine, Global.step, hearly, hnull]
  have hnext := hsecure.step (by simp [Alone, hearly]) htests
  refine absurd hnext (not_secure_of_creating late call hne ?_
    (Function.update_self _ _ _) hdeleted)
  exact (Function.update_of_ne hne _ _).trans hlate

theorem not_secure_of_racing [Fintype Thread] {next : State Thread} {action : Action Thread}
    (hsettled : Settled state) (hraces : ¬ Alone state action)
    (hstep : (machine Thread).step state action = some next) :
    ¬ (machine Thread).Secure Alone LosesNothing next := by
  cases action with
  | call thread call => exact absurd trivial hraces
  | go late =>
      simp only [Alone, not_forall, Bool.not_eq_false] at hraces
      obtain ⟨⟨call, hlate⟩, hnull, early, hinitiates⟩ := hraces
      have hne : early ≠ late := by
        rintro rfl
        simp [hlate, Stage.initiates] at hinitiates
      simp only [machine, Global.step, hlate, hnull, Option.isNone_none, if_true,
        Option.some.injEq] at hstep
      subst hstep
      have hkeeps : (state.advance late (.initializing call)).stages early =
          state.stages early := Function.update_of_ne hne _ _
      have hagrees := hsettled.agrees early
      cases hearly : state.stages early with
      | initializing other =>
          exact not_secure_of_initializing late call hne.symm (Function.update_self _ _ _)
            (hkeeps.trans hearly) hnull hsettled.deleted_eq
      | creating other =>
          exact not_secure_of_creating late call hne.symm (Function.update_self _ _ _)
            (hkeeps.trans hearly) hsettled.deleted_eq
      | deleting other => simp [hearly, Stage.Agrees] at hagrees
      | nulling other => simp [hearly, Stage.Agrees] at hagrees
      | _ => simp [hearly, Stage.initiates] at hinitiates

end Races

/-- In every run, lazy creation stays safe from the calls to come exactly if
every caller that finds `g_scheduler` null is alone; then no handle is lost. -/
theorem secure_along_iff_alone [Fintype Thread] (actions : List (Action Thread)) :
    ((machine Thread).Along ((machine Thread).Secure Alone LosesNothing) initial actions ↔
        (machine Thread).Meets Alone initial actions) ∧
      ((machine Thread).Meets Alone initial actions →
        (machine Thread).Along LosesNothing initial actions) := by
  have hpreserved : ∀ (state : State Thread) action next, Settled state → Alone state action →
      (machine Thread).step state action = some next → Settled next :=
    fun _ _ _ hsettled halone hstep => hsettled.step halone hstep
  have hproperty : ∀ state : State Thread, Settled state → LosesNothing state :=
    fun _ hsettled => hsettled.losesNothing
  refine ⟨?_, fun hmeets => ?_⟩
  · exact Machine.secure_along_iff_meets Settled hpreserved hproperty
      (fun _ _ _ hsettled hraces hstep => not_secure_of_racing hsettled hraces hstep)
      initial_settled
  · exact Machine.along_of_meets Settled hpreserved hproperty initial_settled hmeets

/-- Two callers find `g_scheduler` null. The first creates a scheduler and
pushes handle 7; the second deletes it, and the queue that is left holds only
handle 8. -/
theorem deleted_scheduler_run :
    (((machine (Fin 2)).exec initial
      [.call 0 (.schedule 7), .call 1 (.schedule 8), .go 0, .go 1, .go 0, .go 0, .go 0, .go 0,
        .go 1, .go 1, .go 1, .go 1, .go 1, .go 1]).map fun final =>
          (final.passed, final.queue, final.deleted, final.queues 0)) =
            some ([7, 8], [8], [0], [7]) ∧
      ¬ (machine (Fin 2)).Along LosesNothing initial
        [.call 0 (.schedule 7), .call 1 (.schedule 8), .go 0, .go 1, .go 0, .go 0, .go 0, .go 0,
          .go 1, .go 1, .go 1, .go 1, .go 1, .go 1] := by
  refine ⟨by decide, fun halong => ?_⟩
  have hspared := (halong.last rfl).spared 0 (by decide)
  exact absurd hspared (by decide)

end Tang.Scheduler.Global
