import Tang.Foundation.Fairness
import Tang.EventLoop.Loop

/-! # Going round

A thread alone in `run` goes round and round as long as nobody stops the loop,
callbacks and handlers return, and the timers are left alone during a pass. Each
step but the test of `running_` leads closer to the next test; only a wait
without end holds it up.
-/

namespace Tang.EventLoop.Rounds

open Foundation Filter Loop

variable {Thread Source : Type}

/-! ## Where the thread stands -/

/-- What the thread does by itself. What the kernel reports and what code throws
is not up to it; that a limited wait ends is. -/
def own : Move → Bool
  | .test _ | .examine | .returns | .poll | .expire | .dispatch | .handled | .next => true
  | .wake _ | .interrupt | .throws => false

def Own (thread : Thread) (action : Action Thread Source) : Prop :=
  ∃ move, own move = true ∧ action = .move thread move

/-- The thread is in the loop, and nobody else is. -/
structure Looping (state : State Thread Source) (thread : Thread) (phase : Phase Source) :
    Prop where
  running : state.running = true
  frames : state.frames thread = [phase]
  others : ∀ other, other ≠ thread → state.frames other = []

theorem Looping.unique {state : State Thread Source} {thread : Thread}
    {phase other : Phase Source} (hlooping : Looping state thread phase)
    (hother : Looping state thread other) : phase = other := by
  simpa using hlooping.frames.symm.trans hother.frames

/-- Nobody stops the loop or throws, and code leaves the timers alone during a
pass. -/
structure Calm (state : State Thread Source) (action : Action Thread Source) : Prop where
  unstopped : ∀ thread, action ≠ .call thread .stop
  caught : ∀ thread, action ≠ .move thread .throws
  between : ∀ thread op, action = .call thread (.timer op) →
    ∀ other pass, .timers pass ∉ state.frames other

/-- The timers a pass has still before it, the one at its iterator included. -/
def ahead (table : Table) (pass : Pass) : List Timer := onward Timer.node pass.it table.timers

/-- The iterator of a pass is valid. -/
structure Valid (table : Table) (pass : Pass) : Prop where
  rehashes : pass.rehashes = table.rehashes
  stands : ∀ node, pass.it = some node → node ∈ table.nodes

/-- The steps until the thread tests `running_` again, at most. -/
def distance (table : Table) : Phase Source → Nat
  | .testing => 0
  | .dispatching batch => 2 * batch.length + 1
  | .handling batch => 2 * batch.length + 2
  | .polling _ => 2 * Poller.maxEvents + 2
  | .timers pass =>
      2 * Poller.maxEvents + 3 + (2 * (ahead table pass).length + if pass.calling then 0 else 1)

section Pass

variable {table : Table} {pass : Pass} {timer : Timer} {rest : List Timer}

theorem Valid.begin (table : Table) (now : TimePoint) : Valid table (.begin table now) := by
  refine ⟨rfl, fun node hnode => ?_⟩
  obtain ⟨first, hfirst, rfl⟩ := Option.map_eq_some_iff.mp hnode
  exact List.mem_map_of_mem (List.mem_of_head? hfirst)

/-- A new pass has the whole table before it. -/
theorem ahead_begin (hwf : table.WellFormed) (now : TimePoint) :
    ahead table (.begin table now) = table.timers :=
  (cut_eq (List.nil_append _).symm hwf.nodup rfl).2

theorem Valid.current (hvalid : Valid table pass) (hit : pass.it ≠ none) :
    ∃ timer, pass.current table = some timer := by
  obtain ⟨node, hnode⟩ := Option.ne_none_iff_exists'.mp hit
  exact Pass.current_of_mem hvalid.rehashes hnode (hvalid.stands node hnode)

theorem ahead_of_current (hcurrent : pass.current table = some timer) :
    ∃ rest, ahead table pass = timer :: rest :=
  (Pass.onward_of_current hcurrent).2.2

/-- The pass goes on to the next timer. -/
theorem ahead_examine (hwf : table.WellFormed) (hcurrent : pass.current table = some timer)
    (hlate : pass.now < timer.expire) (hahead : ahead table pass = timer :: rest) :
    (pass.examine table timer).it = frontKey Timer.node rest ∧
      ahead table (pass.examine table timer) = rest := by
  have hit := (Pass.onward_of_current hcurrent).2.1
  simp only [ahead, hit] at hahead
  have hafter : table.after timer.node = frontKey Timer.node rest := by
    simp [Table.after, hahead]
  have hnext : (pass.examine table timer).it = frontKey Timer.node rest := by
    simp only [Pass.examine, if_neg (Int.not_le.mpr hlate), hafter]
  refine ⟨hnext, ?_⟩
  rw [ahead, hnext]
  exact (cut_next hahead hwf.nodup).2

/-- The pass erases the timer it has fired, and goes on to the next one. -/
theorem ahead_proceed (hwf : table.WellFormed) (hcurrent : pass.current table = some timer)
    (hahead : ahead table pass = timer :: rest) :
    (pass.proceed table timer).it = frontKey Timer.node rest ∧
      ahead (table.erase timer.node) (pass.proceed table timer) = rest := by
  have hit := (Pass.onward_of_current hcurrent).2.1
  simp only [ahead, hit] at hahead
  have hnext : (pass.proceed table timer).it = frontKey Timer.node rest := by
    simp [Pass.proceed, Table.after, hahead]
  refine ⟨hnext, ?_⟩
  rw [ahead, hnext]
  exact (cut_erase hahead hwf.nodup).2

/-- An iterator at the front of what is before the pass is valid. -/
theorem Valid.of_ahead (hrehashes : pass.rehashes = table.rehashes)
    (hit : pass.it = frontKey Timer.node rest) (hahead : ahead table pass = rest) :
    Valid table pass := by
  refine ⟨hrehashes, fun node hnode => ?_⟩
  obtain ⟨first, hfirst, rfl⟩ := Option.map_eq_some_iff.mp (hit.symm.trans hnode)
  have hmem : first ∈ ahead table pass := hahead ▸ List.mem_of_head? hfirst
  exact List.mem_map_of_mem (onward_subset hmem)

end Pass

/-! ## One step -/

section Steps

variable {state next middle : State Thread Source} {phase later : Phase Source} {move : Move}
  {thread : Thread} {action : Action Thread Source}

theorem calling_of_walk {pass : Pass} {out : State Thread Source × Option (Phase Source)} :
    (walk state (.timers pass) .examine = some out → pass.calling = false) ∧
      (walk state (.timers pass) .returns = some out → pass.calling = true) := by
  simp only [walk]
  constructor
  all_goals
    intro hwalk
    split at hwalk
    all_goals simp_all

/-- How the pass of the thread goes on. -/
inductive Passes (state : State Thread Source) (pass : Pass) : Move → State Thread Source →
    Phase Source → Prop
  | waits (timer : Timer) (rest : List Timer) (hcalling : pass.calling = false)
      (hcurrent : pass.current state.table = some timer) (hlate : pass.now < timer.expire)
      (hahead : ahead state.table pass = timer :: rest) :
      Passes state pass .examine state (.timers (pass.examine state.table timer))
  | fires (timer : Timer) (hcalling : pass.calling = false)
      (hcurrent : pass.current state.table = some timer) (hdue : timer.expire ≤ pass.now) :
      Passes state pass .examine state (.timers { pass with calling := true })
  | erases (timer : Timer) (rest : List Timer) (hcalling : pass.calling = true)
      (hcurrent : pass.current state.table = some timer)
      (hahead : ahead state.table pass = timer :: rest) :
      Passes state pass .returns { state with table := state.table.erase timer.node }
        (.timers (pass.proceed state.table timer))
  | polls (hit : pass.it = none) (hopened : state.poller.opened) :
      Passes state pass .poll state (.polling (Poller.waitTime pass.nextTimeout))
  | fails (hit : pass.it = none) (hopened : state.poller.opened = false) :
      Passes state pass .poll state .testing

theorem passes_of_walk {pass : Pass}
    (hwalk : walk state (.timers pass) move = some (middle, some later)) :
    Passes state pass move middle later := by
  have hwalks := walks_of_walk hwalk
  generalize hphase : Phase.timers pass = phase at hwalks
  cases hwalks with
  | examines pass' timer hcurrent =>
      cases hphase
      have hcalling := calling_of_walk.1 hwalk
      by_cases hdue : timer.expire ≤ pass.now
      · simpa only [Pass.examine, if_pos hdue] using Passes.fires timer hcalling hcurrent hdue
      · obtain ⟨rest, hahead⟩ := ahead_of_current hcurrent
        exact .waits timer rest hcalling hcurrent (Int.not_le.mp hdue) hahead
  | erases pass' timer hcurrent =>
      cases hphase
      obtain ⟨rest, hahead⟩ := ahead_of_current hcurrent
      exact .erases timer rest (calling_of_walk.2 hwalk) hcurrent hahead
  | polls pass' hit hopened =>
      cases hphase
      exact .polls hit hopened
  | fails pass' hit hopened =>
      cases hphase
      exact .fails hit hopened
  | enters | wakes | expires | interrupts | dispatches | handled | next => cases hphase

/-- The loop goes round: every step but the test itself leads closer to the next
test. -/
theorem distance_of_walk (hwf : state.table.WellFormed)
    (hwalk : walk state phase move = some (middle, some later)) (hmove : ∀ now, move ≠ .test now) :
    distance middle.table later < distance state.table phase := by
  have hwalks := walks_of_walk hwalk
  cases phase with
  | testing =>
      cases hwalks with
      | enters now => exact absurd rfl (hmove now)
  | timers pass =>
      cases passes_of_walk hwalk with
      | waits timer rest hcalling hcurrent hlate hahead =>
          have hnext := (ahead_examine hwf hcurrent hlate hahead).2
          have hkept : (pass.examine state.table timer).calling = false := by
            simp only [Pass.examine, if_neg (Int.not_le.mpr hlate), hcalling]
          simp [distance, hnext, hkept, hahead, hcalling]
      | fires timer hcalling => simp [distance, ahead, hcalling]
      | erases timer rest hcalling hcurrent hahead =>
          have hnext := (ahead_proceed hwf hcurrent hahead).2
          have hover : (pass.proceed state.table timer).calling = false := rfl
          simp only [distance, hnext, hover, hahead, hcalling, List.length_cons]
          simp
          omega
      | polls | fails =>
          simp only [distance]
          omega
  | polling waitTime =>
      cases hwalks with
      | wakes _ entries hreports =>
          have hlength : (state.poller.collect entries).length ≤ Poller.maxEvents :=
            (List.length_filterMap_le _ _).trans hreports.2.1
          simp only [distance]
          omega
      | expires | interrupts => simp [distance]
  | dispatching batch =>
      cases hwalks with
      | dispatches event rest =>
          simp only [distance, List.length_cons]
          omega
      | next => simp [distance]
  | handling batch =>
      cases hwalks with
      | handled => simp [distance]

/-- The iterator stays valid. -/
theorem valid_of_walk (hwf : state.table.WellFormed)
    (hvalid : ∀ pass, phase = .timers pass → Valid state.table pass)
    (hwalk : walk state phase move = some (middle, some later)) {pass : Pass}
    (hlater : later = .timers pass) : Valid middle.table pass := by
  subst hlater
  have hwalks := walks_of_walk hwalk
  cases phase with
  | testing =>
      cases hwalks with
      | enters now => exact .begin _ _
  | timers before =>
      have hbefore := hvalid before rfl
      cases passes_of_walk hwalk with
      | waits timer rest hcalling hcurrent hlate hahead =>
          obtain ⟨hit, hnext⟩ := ahead_examine hwf hcurrent hlate hahead
          refine .of_ahead ?_ hit hnext
          simpa only [Pass.examine, if_neg (Int.not_le.mpr hlate)] using hbefore.rehashes
      | fires => exact ⟨hbefore.rehashes, hbefore.stands⟩
      | erases timer rest hcalling hcurrent hahead =>
          obtain ⟨hit, hnext⟩ := ahead_proceed hwf hcurrent hahead
          exact .of_ahead hbefore.rehashes hit hnext
  | polling | dispatching | handling => cases hwalks

/-- A valid thread in the loop can go on, unless it is in a wait without end. -/
theorem exists_walk (hlooping : Looping state thread phase)
    (hvalid : ∀ pass, phase = .timers pass → Valid state.table pass)
    (hlimited : phase.unlimited = false) :
    ∃ move, own move = true ∧ (walk state phase move).isSome := by
  cases phase with
  | testing => exact ⟨.test 0, rfl, by simp [walk, hlooping.running]⟩
  | timers pass =>
      cases hit : pass.it with
      | none =>
          refine ⟨.poll, rfl, ?_⟩
          simp only [walk, hit, if_true]
          split <;> rfl
      | some node =>
          obtain ⟨timer, hcurrent⟩ := (hvalid pass rfl).current (by simp [hit])
          cases hcalling : pass.calling with
          | true => exact ⟨.returns, rfl, by simp [walk, hcalling, hcurrent]⟩
          | false => exact ⟨.examine, rfl, by simp [walk, hcalling, hcurrent]⟩
  | polling waitTime =>
      have hnonneg : 0 ≤ waitTime := by simpa [Phase.unlimited] using hlimited
      exact ⟨.expire, rfl, by simp [walk, hnonneg]⟩
  | dispatching batch =>
      cases batch with
      | nil => exact ⟨.next, rfl, rfl⟩
      | cons => exact ⟨.dispatch, rfl, rfl⟩
  | handling batch => exact ⟨.handled, rfl, rfl⟩

variable [DecidableEq Thread]

theorem Looping.walks (hlooping : Looping state thread phase)
    (hwalks : Walks state phase move middle (some later)) :
    Looping (middle.setFrames thread [later]) thread later := by
  obtain ⟨hrunning, _, hframes⟩ := hwalks.frame
  refine ⟨hrunning.trans hlooping.running, Function.update_self .., fun other hother => ?_⟩
  rw [State.setFrames_frames, Function.update_of_ne hother, hframes]
  exact hlooping.others other hother

/-- Only the thread moves in the loop. -/
theorem Looping.eq_of_move (hlooping : Looping state thread phase) {other : Thread}
    (hstep : step state (.move other move) = some next) : other = thread := by
  by_contra hother
  simp [step, hlooping.others other hother] at hstep

theorem Looping.testing (hlooping : Looping state thread phase) {now : TimePoint}
    (hstep : step state (.move thread (.test now)) = some next) : phase = .testing := by
  have hmoves := moves_of_step hstep
  cases hmoves with
  | walks _ _ middle phase' callers later hframes hwalks =>
      obtain ⟨rfl, _⟩ : phase' = phase ∧ callers = [] := by
        simpa using hframes.symm.trans hlooping.frames
      cases hwalks with
      | enters | leaves => rfl

/-- What happens around the thread. -/
inductive Disturbs (state : State Thread Source) :
    Action Thread Source → State Thread Source → Prop
  | calls (thread : Thread) (call : Call Source) (next : State Thread Source)
      (hperform : state.perform call = some next) : Disturbs state (.call thread call) next
  | runs (thread : Thread) : Disturbs state (.run thread) state
  | arrives (fd : Int) : Disturbs state (.arrive fd) { state with ready := state.ready ++ [fd] }
  | withdraws (fd : Int) : Disturbs state (.withdraw fd)
      { state with ready := state.ready.filter fun other => other != fd }

/-- The thread stays alone in the loop: others do not move it, and it does not
leave. -/
theorem looping_of_step (hlooping : Looping state thread phase) (hcalm : Calm state action)
    (hstep : step state action = some next) :
    (Looping next thread phase ∧ Disturbs state action next) ∨
    ∃ move middle later, action = .move thread move ∧
      walk state phase move = some (middle, some later) ∧
      next = middle.setFrames thread [later] ∧ Looping next thread later := by
  have hmoves := moves_of_step hstep
  cases hmoves with
  | calls other call _ hcode hperform =>
      refine Or.inl ⟨?_, .calls other call next hperform⟩
      have hframes := State.perform_frames hperform
      refine ⟨?_, hframes ▸ hlooping.frames, hframes ▸ hlooping.others⟩
      cases call with
      | stop => exact absurd rfl (hcalm.unstopped other)
      | timer op =>
          obtain ⟨table, _, rfl⟩ := Option.map_eq_some_iff.mp hperform
          exact hlooping.running
      | register | modify | delete =>
          cases hperform
          exact hlooping.running
  | returnsAtOnce other hrunning => exact Or.inl ⟨hlooping, .runs other⟩
  | starts other hcode hidle => simp [hlooping.running] at hidle
  | walks other move _ phase' callers _ hframes _ =>
      obtain rfl := hlooping.eq_of_move hstep
      obtain ⟨rfl, rfl⟩ : phase' = phase ∧ callers = [] := by
        simpa using hframes.symm.trans hlooping.frames
      simp only [step, hframes] at hstep
      obtain ⟨⟨middle, later⟩, hwalk, hnext⟩ := Option.map_eq_some_iff.mp hstep
      have hwalks := walks_of_walk hwalk
      cases later with
      | none =>
          cases hwalks with
          | leaves _ hidle => simp [hlooping.running] at hidle
          | throws => exact absurd rfl (hcalm.caught other)
      | some reached =>
          refine Or.inr ⟨move, middle, reached, rfl, hwalk, hnext.symm, ?_⟩
          rw [← hnext]
          exact hlooping.walks hwalks
  | arrives fd =>
      exact Or.inl ⟨⟨hlooping.running, hlooping.frames, hlooping.others⟩, .arrives fd⟩
  | withdraws fd =>
      exact Or.inl ⟨⟨hlooping.running, hlooping.frames, hlooping.others⟩, .withdraws fd⟩

omit [DecidableEq Thread] in
/-- During a pass nobody touches the table. -/
theorem Disturbs.table (hdisturbs : Disturbs state action next) (hcalm : Calm state action)
    {pass : Pass} (hlooping : Looping state thread (.timers pass)) : next.table = state.table := by
  cases hdisturbs with
  | calls other call _ hperform =>
      cases call with
      | timer op =>
          refine absurd ?_ (hcalm.between other op rfl thread pass)
          rw [hlooping.frames]
          exact List.mem_singleton_self _
      | stop | register | modify | delete =>
          cases hperform
          rfl
  | runs | arrives | withdraws => rfl

end Steps

/-! ## The table -/

/-- What holds of every table of the loop. -/
structure Sound (table : Table) : Prop where
  wellFormed : table.WellFormed
  expire_lt : ∀ timer ∈ table.timers, timer.expire < 2 ^ 63

section Tables

variable {table table' : Table} {state next : State Thread Source} {action : Action Thread Source}

theorem Sound.addTimer (hsound : Sound table) {now : TimePoint} {delay : Int}
    {placement : Placement} {handle : TimerHandle}
    (hadd : table.addTimer now delay placement = some (table', handle)) : Sound table' := by
  have hnew : expireTime now delay < 2 ^ 63 := wrap64_lt _
  refine ⟨hsound.wellFormed.addTimer hadd, fun timer htimer => ?_⟩
  obtain ⟨_, _, ⟨_, rfl⟩ | ⟨_, hinsert⟩⟩ := Table.addTimer_cases hadd
  · obtain ⟨old, hold, rfl⟩ := List.mem_map.mp htimer
    unfold Timer.assign
    split
    · exact hnew
    · exact hsound.expire_lt old hold
  · rcases List.mem_cons.mp ((Table.insert_perm hinsert).1.mem_iff.mp htimer) with rfl | hold
    · exact hnew
    · exact hsound.expire_lt timer hold

theorem Sound.sublist (hsound : Sound table) (hwf : table'.WellFormed)
    (hsubset : table'.timers ⊆ table.timers) : Sound table' :=
  ⟨hwf, fun timer htimer => hsound.expire_lt timer (hsubset htimer)⟩

theorem Sound.op (hsound : Sound table) {op : TimerOp} (hrun : op.run table = some table') :
    Sound table' := by
  cases op with
  | add now delay placement =>
      obtain ⟨⟨_, handle⟩, hadd, rfl⟩ := Option.map_eq_some_iff.mp hrun
      exact hsound.addTimer hadd
  | cancel handle =>
      cases hrun
      exact hsound.sublist (hsound.wellFormed.cancelTimer handle) (List.filter_subset_self _)

theorem sound_of_moves [DecidableEq Thread] (hsound : Sound state.table)
    (hmoves : Moves state action next) : Sound next.table := by
  cases hmoves with
  | calls thread call _ _ hperform =>
      cases call with
      | timer op =>
          obtain ⟨table, hrun, rfl⟩ := Option.map_eq_some_iff.mp hperform
          exact hsound.op hrun
      | stop | register | modify | delete =>
          cases hperform
          exact hsound
  | walks thread move middle phase callers later _ hwalks =>
      cases hwalks with
      | erases pass timer _ =>
          exact hsound.sublist (hsound.wellFormed.erase timer.node) (List.filter_subset_self _)
      | _ => exact hsound
  | returnsAtOnce | starts | arrives | withdraws => exact hsound

theorem sound_states [DecidableEq Thread] (opened : Bool)
    (schedule : Nat → Option (Action Thread Source)) (time : Nat) :
    Sound ((Loop.machine Thread Source opened).states schedule time).table := by
  have hmeets : (Loop.machine Thread Source opened).MeetsAlways schedule fun _ _ => True :=
    fun _ _ _ => trivial
  refine @Machine.states_invariant _ _ _ _ (fun state : State Thread Source => Sound state.table)
    _ ?_ ?_ hmeets time
  · exact ⟨Table.new_wellFormed, by simp [Loop.machine, Table.new]⟩
  · exact fun _ _ _ hsound _ hstep => sound_of_moves hsound (moves_of_step hstep)

end Tables

/-! ## Rounds -/

section Runs

variable [DecidableEq Thread] {opened : Bool} {schedule : Nat → Option (Action Thread Source)}
  {thread : Thread} {first : Nat}

/-- From some time on the thread is alone in the loop, nobody disturbs it, and
it is scheduled fairly: its callbacks and handlers return, and its limited waits
come to an end. -/
structure Steady (opened : Bool) (schedule : Nat → Option (Action Thread Source))
    (thread : Thread) (first : Nat) : Prop where
  begins : ∃ phase, Looping ((Loop.machine Thread Source opened).states schedule first) thread
      phase ∧ ∀ pass, phase ≠ .timers pass
  calm : ∀ time, first ≤ time → ∀ action, (Loop.machine Thread Source opened).Takes schedule time
    action → Calm ((Loop.machine Thread Source opened).states schedule time) action
  fair : (Loop.machine Thread Source opened).Fair schedule (Own thread)

/-- Where the thread stands, with a valid iterator if it is in a pass. -/
structure Stands (state : State Thread Source) (thread : Thread) (phase : Phase Source) :
    Prop where
  looping : Looping state thread phase
  valid : ∀ pass, phase = .timers pass → Valid state.table pass

/-- The thread does nothing, and others may. -/
structure Idles (opened : Bool) (schedule : Nat → Option (Action Thread Source))
    (thread : Thread) (time : Nat) : Prop where
  idle : ∀ move, ¬ (Loop.machine Thread Source opened).Takes schedule time (.move thread move)
  others : (Loop.machine Thread Source opened).states schedule (time + 1) =
      (Loop.machine Thread Source opened).states schedule time ∨
    ∃ action, (Loop.machine Thread Source opened).Takes schedule time action ∧
      Disturbs ((Loop.machine Thread Source opened).states schedule time) action
        ((Loop.machine Thread Source opened).states schedule (time + 1))

/-- What a time does to the thread. -/
theorem step_cases (hsteady : Steady opened schedule thread first) {time : Nat}
    (htime : first ≤ time) {phase : Phase Source}
    (hlooping : Looping ((Loop.machine Thread Source opened).states schedule time) thread phase) :
    let state := (Loop.machine Thread Source opened).states schedule time
    let next := (Loop.machine Thread Source opened).states schedule (time + 1)
    (Looping next thread phase ∧ Idles opened schedule thread time) ∨
      ∃ move middle later,
        (Loop.machine Thread Source opened).Takes schedule time (.move thread move) ∧
        walk state phase move = some (middle, some later) ∧
        next = middle.setFrames thread [later] ∧ Looping next thread later := by
  intro state next
  rcases Machine.takes_or_rests (Loop.machine Thread Source opened) schedule time with
    ⟨action, htakes⟩ | ⟨hidle, hrests⟩
  · rcases looping_of_step hlooping (hsteady.calm time htime action htakes) htakes.2 with
      ⟨hnext, hdisturbs⟩ | ⟨move, middle, later, rfl, hwalk, hnext, hlater⟩
    · refine Or.inl ⟨hnext, fun move hmove => ?_, Or.inr ⟨action, htakes, hdisturbs⟩⟩
      obtain rfl := hmove.unique htakes
      cases hdisturbs
    · exact Or.inr ⟨move, middle, later, htakes, hwalk, hnext, hlater⟩
  · refine Or.inl ⟨by simp only [next, hrests]; exact hlooping, fun move hmove => ?_, Or.inl hrests⟩
    exact hidle (· = .move thread move) ⟨_, rfl, hmove⟩

theorem Idles.not_acts {time : Nat} (hidles : Idles opened schedule thread time) :
    ¬ (Loop.machine Thread Source opened).Acts schedule (Own thread) time := by
  rintro ⟨_, ⟨move, _, rfl⟩, htakes⟩
  exact hidles.idle move htakes

/-- The table is as it was if the thread is in a pass. -/
theorem Idles.table {time : Nat} (hidles : Idles opened schedule thread time)
    (hsteady : Steady opened schedule thread first) (htime : first ≤ time) {pass : Pass}
    (hlooping : Looping ((Loop.machine Thread Source opened).states schedule time) thread
      (.timers pass)) :
    ((Loop.machine Thread Source opened).states schedule (time + 1)).table =
      ((Loop.machine Thread Source opened).states schedule time).table := by
  rcases hidles.others with hsame | ⟨action, htakes, hdisturbs⟩
  · rw [hsame]
  · exact hdisturbs.table (hsteady.calm time htime action htakes) hlooping

theorem Steady.stands (hsteady : Steady opened schedule thread first) (time : Nat)
    (htime : first ≤ time) :
    ∃ phase, Stands ((Loop.machine Thread Source opened).states schedule time) thread phase := by
  induction time, htime using Nat.le_induction with
  | base =>
      obtain ⟨phase, hlooping, hphase⟩ := hsteady.begins
      exact ⟨phase, hlooping, fun pass hpass => absurd hpass (hphase pass)⟩
  | succ time htime ih =>
      obtain ⟨phase, hlooping, hvalid⟩ := ih
      have hsound := sound_states opened schedule time
      rcases step_cases hsteady htime hlooping with
        ⟨hnext, hidles⟩ | ⟨move, middle, later, _, hwalk, hnext, hlater⟩
      · refine ⟨phase, hnext, fun pass hpass => ?_⟩
        rw [hidles.table hsteady htime (hpass ▸ hlooping)]
        exact hvalid pass hpass
      · refine ⟨later, hlater, fun pass hpass => ?_⟩
        rw [hnext]
        exact valid_of_walk hsound.wellFormed hvalid hwalk hpass

/-- The distance of a thread that is in one call of `run`. -/
def rank (state : State Thread Source) (thread : Thread) : Nat :=
  match state.frames thread with
  | [phase] => distance state.table phase
  | _ => 0

omit [DecidableEq Thread] in
theorem Looping.rank {state : State Thread Source} {phase : Phase Source}
    (hlooping : Looping state thread phase) : rank state thread = distance state.table phase := by
  simp [Rounds.rank, hlooping.frames]

/-- A time without a test leads closer to the next one, or the thread rests. -/
theorem rank_of_step (hsteady : Steady opened schedule thread first) {time : Nat}
    (htime : first ≤ time)
    (htest : ∀ now, ¬ (Loop.machine Thread Source opened).Takes schedule time
      (.move thread (.test now))) :
    let states := (Loop.machine Thread Source opened).states schedule
    rank (states (time + 1)) thread < rank (states time) thread ∨
      rank (states (time + 1)) thread ≤ rank (states time) thread ∧
        ¬ (Loop.machine Thread Source opened).Acts schedule (Own thread) time := by
  intro states
  obtain ⟨phase, hlooping, hvalid⟩ := hsteady.stands time htime
  have hsound := sound_states opened schedule time
  rcases step_cases hsteady htime hlooping with
    ⟨hnext, hidles⟩ | ⟨move, middle, later, htakes, hwalk, hnext, hlater⟩
  · refine Or.inr ⟨le_of_eq ?_, hidles.not_acts⟩
    rw [hlooping.rank, hnext.rank]
    cases phase with
    | timers pass => rw [hidles.table hsteady htime hlooping]
    | testing | polling | dispatching | handling => rfl
  · refine Or.inl ?_
    have hcloser := distance_of_walk hsound.wellFormed hwalk
      (fun now hnow => htest now (hnow ▸ htakes))
    rw [hlooping.rank, hlater.rank, hnext]
    exact hcloser

theorem enabled_of_limited {state : State Thread Source} {phase : Phase Source}
    (hstands : Stands state thread phase) (hlimited : phase.unlimited = false) :
    (Loop.machine Thread Source opened).Enabled (Own thread) state := by
  obtain ⟨move, hown, hsome⟩ := exists_walk hstands.looping hstands.valid hlimited
  refine ⟨.move thread move, ⟨move, hown, rfl⟩, ?_⟩
  simpa [Loop.machine, step, hstands.looping.frames] using hsome

/-- A thread in a wait without end does nothing by itself. -/
theorem not_enabled_of_unlimited {state : State Thread Source} {waitTime : Int}
    (hlooping : Looping state thread (.polling waitTime)) (hunlimited : waitTime < 0) :
    ¬ (Loop.machine Thread Source opened).Enabled (Own thread) state := by
  rintro ⟨_, ⟨move, hown, rfl⟩, hsome⟩
  cases move with
  | wake | interrupt | throws => cases hown
  | expire =>
      have hlimited : 0 ≤ waitTime := by
        simpa [Loop.machine, step, hlooping.frames, walk] using hsome
      omega
  | test | examine | returns | poll | dispatch | handled | next =>
      simp [Loop.machine, step, hlooping.frames, walk] at hsome

/-- A test of `running_` begins a pass over the table. -/
theorem begins_of_test (hsteady : Steady opened schedule thread first) {time : Nat}
    (htime : first ≤ time) {now : TimePoint}
    (htakes : (Loop.machine Thread Source opened).Takes schedule time (.move thread (.test now))) :
    let states := (Loop.machine Thread Source opened).states schedule
    Looping (states (time + 1)) thread (.timers (.begin (states time).table now)) ∧
      (states (time + 1)).table = (states time).table := by
  intro states
  obtain ⟨phase, hlooping, -⟩ := hsteady.stands time htime
  rcases step_cases hsteady htime hlooping with
    ⟨_, hidles⟩ | ⟨move, middle, later, htaken, hwalk, hnext, hlater⟩
  · exact absurd htakes (hidles.idle _)
  · obtain rfl : .test now = move := by simpa using htaken.unique htakes
    have hwalks := walks_of_walk hwalk
    cases hwalks with
    | enters => exact ⟨hlater, by simp only [states, hnext]; rfl⟩

/-- What waits for a thread that is in no wait without end, until it tests
`running_` again, reaches its goal. -/
theorem Steady.leads (hsteady : Steady opened schedule thread first) (waits goal : Nat → Prop)
    (hmoves : ∀ time, first ≤ time → waits time →
      (waits (time + 1) ∧ ∀ now, ¬ (Loop.machine Thread Source opened).Takes schedule time
        (.move thread (.test now))) ∨ goal time)
    (hlimited : ∀ time, first ≤ time → waits time → ∃ phase,
      Looping ((Loop.machine Thread Source opened).states schedule time) thread phase ∧
        phase.unlimited = false)
    {time : Nat} (htime : first ≤ time) (hwaits : waits time) :
    ∃ later, time ≤ later ∧ goal later := by
  refine Machine.Fair.leads_ranked hsteady.fair (fun now => first ≤ now ∧ waits now) goal
    (fun now => rank ((Loop.machine Thread Source opened).states schedule now) thread)
    (fun now ⟨hnow, hwaits⟩ => ?_) (fun now ⟨hnow, hwaits⟩ => ?_) ⟨htime, hwaits⟩
  · refine (hmoves now hnow hwaits).imp_left fun ⟨hafter, htest⟩ => ?_
    exact ⟨⟨Nat.le_succ_of_le hnow, hafter⟩, rank_of_step hsteady hnow htest⟩
  · obtain ⟨phase, hlooping, hphase⟩ := hlimited now hnow hwaits
    obtain ⟨phase', hstands⟩ := hsteady.stands now hnow
    obtain rfl := hlooping.unique hstands.looping
    exact enabled_of_limited hstands hphase

/-- The next test comes, as long as no wait is without end. -/
theorem Steady.tests (hsteady : Steady opened schedule thread first) {time : Nat}
    (htime : first ≤ time)
    (hlimited : ∀ later, time ≤ later → ∀ phase, Looping
      ((Loop.machine Thread Source opened).states schedule later) thread phase →
        phase.unlimited = false) :
    ∃ later, time ≤ later ∧ ∃ now, (Loop.machine Thread Source opened).Takes schedule later
      (.move thread (.test now)) := by
  refine hsteady.leads (time ≤ ·) _ (fun now _ hnow => ?_) (fun now hfirst hnow => ?_) htime le_rfl
  · by_cases htest : ∃ reading, (Loop.machine Thread Source opened).Takes schedule now
      (.move thread (.test reading))
    · exact Or.inr htest
    · exact Or.inl ⟨Nat.le_succ_of_le hnow, not_exists.mp htest⟩
  · obtain ⟨phase, hstands⟩ := hsteady.stands now hfirst
    exact ⟨phase, hstands.looping, hlimited now hnow phase hstands.looping⟩

end Runs

end Tang.EventLoop.Rounds
