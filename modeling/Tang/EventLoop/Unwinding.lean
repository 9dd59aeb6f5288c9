import Tang.Foundation.History
import Tang.EventLoop.Loop

/-! # Exceptions of callbacks and handlers

An exception leaves `run` from the middle of a pass or of a batch. No code on
its way out clears `running_`, and the timer of a callback is erased only after
the callback has returned. What is left behind is in order exactly when the code
that throws has seen to it.
-/

namespace Tang.EventLoop

namespace Unwinding

open Foundation Loop

variable {Thread Source : Type}

/-- The element whose callback a thread is in. -/
def firing (state : State Thread Source) (thread : Thread) : Option Nat :=
  match state.frames thread with
  | .timers pass :: _ => if pass.calling then pass.it else none
  | _ => none

/-- What has been done to the flag and to the timers. -/
structure History where
  /-- No call of `run` has set the flag since the last `stop`. -/
  stopped : Bool
  /-- The timers added, and neither cancelled nor fired. -/
  owed : List Timer
  /-- The elements that were cancelled, or erased after their callback. -/
  removed : List Nat
  deriving DecidableEq

namespace History

/-- `add_timer` wrote an element of the table. -/
def add (history : History) (handle : TimerHandle) (table : Table) : History :=
  { history with
    owed := history.owed.filter (fun timer => timer.handle != handle) ++
      table.timers.filter fun timer => timer.handle == handle }

/-- The callback of an element begins. -/
def fire (history : History) (node : Nat) : History :=
  { history with owed := history.owed.filter fun timer => timer.node != node }

/-- The elements that are not kept leave the table. -/
def remove (history : History) (table : Table) (keep : Timer → Bool) : History :=
  { history with
    owed := history.owed.filter keep
    removed := history.removed ++
      (table.timers.filter fun timer => !keep timer).map Timer.node }

end History

def record (history : History) (state : State Thread Source) (action : Action Thread Source)
    (next : State Thread Source) : History :=
  match action with
  | .call _ .stop => { history with stopped := true }
  | .call _ (.timer (.add _ _ _)) => history.add state.table.nextId next.table
  | .call _ (.timer (.cancel handle)) =>
      history.remove state.table fun timer => timer.handle != handle
  | .run _ => { history with stopped := false }
  | .move thread .examine =>
      match firing next thread with
      | some node => history.fire node
      | none => history
  | .move thread .returns =>
      match firing state thread with
      | some node => history.remove state.table fun timer => timer.node != node
      | none => history
  | .call _ _ | .move _ _ | .arrive _ | .withdraw _ => history

/-- The event loop with the record. -/
def recorded (Thread Source : Type) [DecidableEq Thread] (opened : Bool) :
    Machine (State Thread Source × History) (Action Thread Source) :=
  (Loop.machine Thread Source opened).recording ⟨true, [], []⟩ record

/-- An exception that leaves `run` leaves the flag clear, the timer whose
callback threw removed, and every timer not yet fired in the table. -/
structure Unwound (watched : State Thread Source × History) (thread : Thread)
    (next : State Thread Source) : Prop where
  running : next.running = false
  removed : ∀ node, firing watched.1 thread = some node → node ∉ next.table.nodes
  owed : ∀ timer ∈ watched.2.owed, timer ∈ next.table.timers

/-- A step that lets an exception out of `run` unwinds it. -/
def Unwinds (watched : State Thread Source × History) (action : Action Thread Source)
    (after : State Thread Source × History) : Prop :=
  ∀ thread, action = .move thread .throws → Unwound watched thread after.1

/-- Before the exception, `stop` was called, and the timer whose callback throws
was removed from within the callback. -/
def Prepared (watched : State Thread Source × History) (action : Action Thread Source) : Prop :=
  ∀ thread, action = .move thread .throws →
    watched.2.stopped = true ∧ ∀ node, firing watched.1 thread = some node →
      node ∈ watched.2.removed

/-! ## The timers on record -/

section Timers

variable {table table' : Table} {history : History} {handle : TimerHandle} {timer : Timer}

/-- The record agrees with the table: the timers owed are in it, and an element
that was allocated is in it until it is removed. -/
structure Ledger (table : Table) (history : History) : Prop where
  wellFormed : table.WellFormed
  owed : ∀ timer ∈ history.owed, timer ∈ table.timers
  present : ∀ node < table.allocated, node ∉ history.removed → node ∈ table.nodes
  removed : ∀ node ∈ history.removed, node < table.allocated ∧ node ∉ table.nodes

theorem new_ledger : Ledger .new ⟨true, [], []⟩ :=
  ⟨Table.new_wellFormed, by simp, by simp [Table.new], by simp⟩

/-- `add_timer` leaves the elements with other handles alone. -/
theorem mem_of_addTimer {now : TimePoint} {delay : Int} {placement : Placement}
    (hadd : table.addTimer now delay placement = some (table', handle))
    (htimer : timer ∈ table.timers) (hother : timer.handle ≠ handle) : timer ∈ table'.timers := by
  obtain ⟨_, _, ⟨_, rfl⟩ | ⟨_, hinsert⟩⟩ := Table.addTimer_cases hadd
  · exact List.mem_map.mpr ⟨timer, htimer, by rw [Timer.assign, if_neg hother]⟩
  · exact (Table.insert_perm hinsert).1.mem_iff.mpr (List.mem_cons_of_mem _ htimer)

/-- `add_timer` writes an element it found, or allocates the next one. -/
theorem nodes_of_addTimer {now : TimePoint} {delay : Int} {placement : Placement}
    (hadd : table.addTimer now delay placement = some (table', handle)) :
    table'.allocated = table.allocated ∧ table'.nodes = table.nodes ∨
      table'.allocated = table.allocated + 1 ∧
        table'.nodes.Perm (table.allocated :: table.nodes) := by
  obtain ⟨_, _, ⟨_, rfl⟩ | ⟨_, hinsert⟩⟩ := Table.addTimer_cases hadd
  · exact Or.inl ⟨rfl, Table.overwrite_nodes⟩
  · obtain ⟨hperm, _, hallocated⟩ := Table.insert_perm hinsert
    exact Or.inr ⟨hallocated, hperm.map Timer.node⟩

namespace Ledger

theorem stopped (hledger : Ledger table history) (stopped : Bool) :
    Ledger table { history with stopped := stopped } :=
  ⟨hledger.wellFormed, hledger.owed, hledger.present, hledger.removed⟩

theorem add (hledger : Ledger table history) {now : TimePoint} {delay : Int}
    {placement : Placement} (hadd : table.addTimer now delay placement = some (table', handle)) :
    Ledger table' (history.add handle table') := by
  constructor
  case wellFormed => exact hledger.wellFormed.addTimer hadd
  case owed =>
    intro timer htimer
    rcases List.mem_append.mp htimer with hold | hnew
    · obtain ⟨howed, hother⟩ := List.mem_filter.mp hold
      exact mem_of_addTimer hadd (hledger.owed timer howed) (by simpa using hother)
    · exact (List.mem_filter.mp hnew).1
  case present =>
    intro node hnode hkept
    -- an entry that is overwritten keeps its element, a new one takes the next
    rcases nodes_of_addTimer hadd with ⟨hallocated, hnodes⟩ | ⟨hallocated, hperm⟩
    · rw [hnodes]
      exact hledger.present node (hallocated ▸ hnode) hkept
    · rw [hperm.mem_iff]
      rcases Nat.lt_succ_iff_lt_or_eq.mp (hallocated ▸ hnode) with hold | rfl
      · exact List.mem_cons_of_mem _ (hledger.present node hold hkept)
      · exact List.mem_cons_self
  case removed =>
    intro node hnode
    obtain ⟨hold, habsent⟩ := hledger.removed node hnode
    rcases nodes_of_addTimer hadd with ⟨hallocated, hnodes⟩ | ⟨hallocated, hperm⟩
    · rw [hallocated, hnodes]
      exact ⟨hold, habsent⟩
    · rw [hallocated, hperm.mem_iff, List.mem_cons]
      exact ⟨Nat.lt_succ_of_lt hold, fun hmem => hmem.elim (Nat.ne_of_lt hold) habsent⟩

/-- Elements leave the table, and are put on record. -/
theorem remove (hledger : Ledger table history) (keep : Timer → Bool) :
    Ledger { table with timers := table.timers.filter keep } (history.remove table keep) := by
  have hsublist : (table.timers.filter keep).Sublist table.timers := List.filter_sublist
  constructor
  case wellFormed =>
    exact ⟨(hsublist.map Timer.node).nodup hledger.wellFormed.nodup,
      fun timer htimer => hledger.wellFormed.allocated timer (hsublist.subset htimer)⟩
  case owed =>
    intro timer htimer
    obtain ⟨howed, hkeep⟩ := List.mem_filter.mp htimer
    exact List.mem_filter.mpr ⟨hledger.owed timer howed, hkeep⟩
  case present =>
    intro node hnode hkept
    simp only [History.remove, List.mem_append, not_or] at hkept
    obtain ⟨timer, htimer, rfl⟩ := List.mem_map.mp (hledger.present node hnode hkept.1)
    refine List.mem_map_of_mem (List.mem_filter.mpr ⟨htimer, ?_⟩)
    by_contra hdropped
    exact hkept.2 (List.mem_map_of_mem (List.mem_filter.mpr ⟨htimer, by simpa using hdropped⟩))
  case removed =>
    intro node hnode
    rcases List.mem_append.mp hnode with hold | hnew
    · obtain ⟨hallocated, habsent⟩ := hledger.removed node hold
      exact ⟨hallocated, fun hmem => habsent ((hsublist.map Timer.node).subset hmem)⟩
    · obtain ⟨timer, htimer, rfl⟩ := List.mem_map.mp hnew
      obtain ⟨hmem, hdropped⟩ := List.mem_filter.mp htimer
      refine ⟨hledger.wellFormed.allocated timer hmem, fun hnodes => ?_⟩
      -- no two entries share an element, so none is left under another handle
      obtain ⟨other, hother, hnode⟩ := List.mem_map.mp hnodes
      obtain ⟨hotherMem, hkeep⟩ := List.mem_filter.mp hother
      obtain rfl := List.inj_on_of_nodup_map hledger.wellFormed.nodup hotherMem hmem hnode
      simp [hkeep] at hdropped

theorem fire (hledger : Ledger table history) (node : Nat) : Ledger table (history.fire node) :=
  ⟨hledger.wellFormed, fun timer htimer => hledger.owed timer (List.mem_filter.mp htimer).1,
    hledger.present, hledger.removed⟩

end Ledger

end Timers

/-! ## The flag, the timers and the iterators -/

structure Inv (watched : State Thread Source × History) : Prop where
  flag : watched.1.running = !watched.2.stopped
  ledger : Ledger watched.1.table watched.2
  /-- An iterator stands on an element that was allocated. -/
  stands : ∀ thread, ∀ phase ∈ watched.1.frames thread, ∀ pass, phase = .timers pass →
    ∀ node, pass.it = some node → node < watched.1.table.allocated

section Steps

variable {state next middle : State Thread Source} {history : History} {table table' : Table}
  {pass : Pass} {timer : Timer} {thread : Thread} {move : Move} {phase : Phase Source}
  {later : Option (Phase Source)} {callers : List (Phase Source)}

theorem lt_of_after (hwf : table.WellFormed) {node after : Nat}
    (hafter : table.after node = some after) : after < table.allocated := by
  obtain ⟨first, hfirst, rfl⟩ := Option.map_eq_some_iff.mp hafter
  exact hwf.allocated first (onward_subset (List.mem_of_mem_tail (List.mem_of_head? hfirst)))

theorem lt_of_begin (hwf : table.WellFormed) {node : Nat} (hbegin : table.begin = some node) :
    node < table.allocated := by
  obtain ⟨first, hfirst, rfl⟩ := Option.map_eq_some_iff.mp hbegin
  exact hwf.allocated first (List.mem_of_head? hfirst)

/-- Where the iterator of a pass stands after a step of the pass. -/
theorem lt_of_walks (hwf : state.table.WellFormed)
    (hold : ∀ pass, phase = .timers pass → ∀ node, pass.it = some node →
      node < state.table.allocated)
    (hwalks : Walks state phase move middle (some (.timers pass))) {node : Nat}
    (hnode : pass.it = some node) : node < state.table.allocated := by
  cases hwalks with
  | enters now _ => exact lt_of_begin hwf hnode
  | examines pass timer hcurrent =>
      unfold Pass.examine at hnode
      split at hnode
      next => exact hold pass rfl node hnode
      next => exact lt_of_after hwf hnode
  | erases pass timer hcurrent => exact lt_of_after hwf hnode

theorem calling_of_returns [DecidableEq Thread]
    (hframes : state.frames thread = .timers pass :: callers)
    (hstep : step state (.move thread .returns) = some next) : pass.calling := by
  by_contra hcalling
  simp [step, hframes, walk, hcalling] at hstep

theorem record_stopped (move : Move) :
    (record history state (.move thread move) next).stopped = history.stopped := by
  cases move with
  | examine | returns =>
      simp only [record]
      split <;> rfl
  | _ => rfl

/-- An exception changes nothing but where the thread is. -/
theorem throws_frame [DecidableEq Thread] (hstep : step state (.move thread .throws) = some next) :
    next.running = state.running ∧ next.table = state.table := by
  have hmoves := moves_of_step hstep
  cases hmoves with
  | walks thread move middle phase callers later hframes hwalks =>
      cases hwalks with
      | throws => exact ⟨rfl, rfl⟩

theorem allocated_le_of_walks (hwalks : Walks state phase move middle later) :
    middle.table.allocated = state.table.allocated := by
  cases hwalks with
  | _ => rfl

namespace Inv

/-- Code changes the table and the flag. -/
theorem of_table (hinv : Inv (state, history)) {later : History}
    (hframes : next.frames = state.frames) (hflag : next.running = !later.stopped)
    (hledger : Ledger next.table later)
    (hle : state.table.allocated ≤ next.table.allocated) : Inv (next, later) := by
  refine ⟨hflag, hledger, fun thread phase hphase pass hpass node hnode => ?_⟩
  have hmem : phase ∈ state.frames thread := hframes ▸ hphase
  exact Nat.lt_of_lt_of_le (hinv.stands thread phase hmem pass hpass node hnode) hle

theorem call (hinv : Inv (state, history)) {call : Call Source}
    (hperform : state.perform call = some next) :
    Inv (next, record history state (.call thread call) next) := by
  cases call with
  | stop =>
      cases hperform
      exact hinv.of_table rfl rfl (hinv.ledger.stopped true) (Nat.le_refl _)
  | timer op =>
      obtain ⟨table, hrun, rfl⟩ := Option.map_eq_some_iff.mp hperform
      cases op with
      | add now delay placement =>
          obtain ⟨⟨table', handle⟩, hadd, rfl⟩ := Option.map_eq_some_iff.mp hrun
          obtain ⟨rfl, _⟩ := Table.addTimer_cases hadd
          refine hinv.of_table rfl hinv.flag (hinv.ledger.add hadd) ?_
          rcases nodes_of_addTimer hadd with ⟨hallocated, _⟩ | ⟨hallocated, _⟩
          · exact Nat.le_of_eq hallocated.symm
          · exact hallocated ▸ Nat.le_succ _
      | cancel handle =>
          cases hrun
          exact hinv.of_table rfl hinv.flag (hinv.ledger.remove _) (Nat.le_refl _)
  | register | modify | delete =>
      cases hperform
      exact hinv.of_table rfl hinv.flag hinv.ledger (Nat.le_refl _)

/-- The element of a callback was allocated. -/
theorem lt_of_firing (hinv : Inv (state, history)) {node : Nat}
    (hfiring : firing state thread = some node) : node < state.table.allocated := by
  unfold firing at hfiring
  split at hfiring
  next pass callers hframes =>
    split at hfiring
    next => exact hinv.stands thread _ (hframes ▸ List.mem_cons_self) pass rfl node hfiring
    next => cases hfiring
  next => cases hfiring

variable [DecidableEq Thread]

theorem start_inv (opened : Bool) : Inv (recorded Thread Source opened).start :=
  ⟨rfl, new_ledger, fun _ _ hphase => absurd hphase List.not_mem_nil⟩

theorem starts (hinv : Inv (state, history)) (thread : Thread) :
    Inv ({ state with running := true }.setFrames thread (.testing :: state.frames thread),
      { history with stopped := false }) := by
  refine ⟨rfl, hinv.ledger.stopped false, fun other phase hphase pass hpass node hnode => ?_⟩
  rcases State.mem_setFrames hphase with ⟨rfl, hnew⟩ | hold
  · rcases List.mem_cons.mp hnew with rfl | hold
    · cases hpass
    · exact hinv.stands other phase hold pass hpass node hnode
  · exact hinv.stands other phase hold pass hpass node hnode

/-- The iterators after a step inside `run`. -/
theorem stands_walks (hinv : Inv (state, history))
    (hframes : state.frames thread = phase :: callers)
    (hwalks : Walks state phase move middle later) :
    ∀ other, ∀ phase ∈ (middle.setFrames thread (later.toList ++ callers)).frames other,
      ∀ pass, phase = .timers pass → ∀ node, pass.it = some node →
        node < middle.table.allocated := by
  rintro other _ hphase pass rfl node hnode
  rw [allocated_le_of_walks hwalks]
  rcases State.mem_setFrames hphase with ⟨rfl, hnew⟩ | hold
  · rcases List.mem_append.mp hnew with hlater | hcaller
    · obtain rfl : later = some (.timers pass) := by simpa using hlater
      exact lt_of_walks hinv.ledger.wellFormed
        (hinv.stands other phase (hframes ▸ List.mem_cons_self)) hwalks hnode
    · exact hinv.stands other _ (hframes ▸ List.mem_cons_of_mem _ hcaller) pass rfl node hnode
  · rw [hwalks.frame.2.2] at hold
    exact hinv.stands other _ hold pass rfl node hnode

/-- The record of a step inside `run`. -/
theorem ledger_walks (hinv : Inv (state, history))
    (hframes : state.frames thread = phase :: callers)
    (hwalks : Walks state phase move middle later)
    (hstep : step state (.move thread move) = some next) :
    Ledger middle.table (record history state (.move thread move) next) := by
  cases hwalks with
  | examines pass timer hcurrent =>
      simp only [record]
      split
      next node _ => exact hinv.ledger.fire node
      next => exact hinv.ledger
  | erases pass timer hcurrent =>
      -- only a callback returns to a pass
      have hcalling := calling_of_returns hframes hstep
      have hfiring : firing state thread = some timer.node := by
        simp [firing, hframes, hcalling, (Pass.onward_of_current hcurrent).2.1]
      simp only [record, hfiring]
      exact hinv.ledger.remove _
  | throws phase _ => exact hinv.ledger
  | _ => exact hinv.ledger

theorem walks (hinv : Inv (state, history)) (hframes : state.frames thread = phase :: callers)
    (hwalks : Walks state phase move middle later)
    (hstep : step state (.move thread move) =
      some (middle.setFrames thread (later.toList ++ callers))) :
    Inv (middle.setFrames thread (later.toList ++ callers),
      record history state (.move thread move)
        (middle.setFrames thread (later.toList ++ callers))) := by
  have hledger := hinv.ledger_walks hframes hwalks hstep
  constructor
  case flag =>
    rw [State.setFrames_running, hwalks.frame.1, record_stopped]
    exact hinv.flag
  case ledger => exact hledger
  case stands => exact hinv.stands_walks hframes hwalks

end Inv

theorem inv_step [DecidableEq Thread] {opened : Bool} {action : Action Thread Source}
    {watched after : State Thread Source × History} (hinv : Inv watched)
    (hstep : (recorded Thread Source opened).step watched action = some after) : Inv after := by
  obtain ⟨state, history⟩ := watched
  obtain ⟨next, later⟩ := after
  obtain ⟨hmachine, hrecord⟩ := Machine.recording_step hstep
  have hmoves := moves_of_step hmachine
  dsimp only at hmoves hrecord
  subst hrecord
  cases hmoves with
  | calls thread call next _ hperform => exact hinv.call hperform
  | returnsAtOnce thread hrunning =>
      exact hinv.of_table rfl hrunning (hinv.ledger.stopped false) (Nat.le_refl _)
  | starts thread _ _ => exact hinv.starts thread
  | walks thread move middle phase callers later hframes hwalks =>
      exact hinv.walks hframes hwalks hmachine
  | arrives | withdraws => exact hinv.of_table rfl hinv.flag hinv.ledger (Nat.le_refl _)

/-- An exception unwinds `run` exactly if the code that throws has prepared it. -/
theorem unwinds_iff [DecidableEq Thread] {opened : Bool} {action : Action Thread Source}
    {watched after : State Thread Source × History} (hinv : Inv watched)
    (hstep : (recorded Thread Source opened).step watched action = some after) :
    Unwinds watched action after ↔ Prepared watched action := by
  obtain ⟨state, history⟩ := watched
  obtain ⟨next, later⟩ := after
  obtain ⟨hmachine, _⟩ := Machine.recording_step hstep
  refine forall₂_congr fun thread haction => ?_
  subst haction
  -- nothing on the way out of `run` touches the flag or the table
  obtain ⟨hrunning, htable⟩ := throws_frame hmachine
  dsimp only at hrunning htable
  have hflag : state.running = !history.stopped := hinv.flag
  constructor
  · intro hunwound
    have hclear : next.running = false := hunwound.running
    refine ⟨by simpa [hclear, hflag] using hrunning, fun node hfiring => ?_⟩
    by_contra hkept
    have hpresent := hinv.ledger.present node (hinv.lt_of_firing hfiring) hkept
    exact hunwound.removed node hfiring (htable ▸ hpresent)
  · rintro ⟨hstopped, hremoved⟩
    constructor
    case running =>
      dsimp only at hstopped ⊢
      rw [hrunning, hflag, hstopped]
      rfl
    case removed =>
      intro node hfiring
      rw [htable]
      exact (hinv.ledger.removed node (hremoved node hfiring)).2
    case owed =>
      intro timer htimer
      rw [htable]
      exact hinv.ledger.owed timer htimer

/-- In every run, whatever timers and events there are and wherever callbacks and
handlers throw, every exception unwinds `run` exactly if before each of them
`stop` has been called and the timer of the callback removed. -/
theorem unwinds_throughout_iff [DecidableEq Thread] (opened : Bool)
    (actions : List (Action Thread Source)) :
    (recorded Thread Source opened).Throughout Unwinds
        (recorded Thread Source opened).start actions ↔
      (recorded Thread Source opened).Meets Prepared
        (recorded Thread Source opened).start actions := by
  apply Machine.throughout_iff_meets Inv ?_ ?_ (Inv.start_inv opened)
  · exact fun _ _ _ hinv hstep => inv_step hinv hstep
  · exact fun _ _ _ hinv hstep => unwinds_iff hinv hstep

end Steps

/-- A timer of a millisecond, and a pass in which its callback is called. -/
def fired : List (Loop.Action Unit Unit) :=
  [.call () (.timer (.add 0 1 (.insert 0))), .run (), .move () (.test 1000000),
    .move () .examine]

/-- The callback throws: the flag stays set, so that the next `run` returns at
once, and the timer stays in the table, so that the pass after a `stop` and a
`run` fires it again. -/
theorem not_unwinds_callback :
    ∃ watched, (recorded Unit Unit true).exec (recorded Unit Unit true).start
        (fired ++ [.move () .throws]) = some watched ∧
      watched.1.frames () = [] ∧ watched.1.running = true ∧
      (recorded Unit Unit true).exec watched [.run ()] = some watched ∧
      (∃ again, (recorded Unit Unit true).exec watched
        [.call () .stop, .run (), .move () (.test 1000000), .move () .examine] = some again ∧
          firing again.1 () = some 0) ∧
      ¬ (recorded Unit Unit true).Throughout Unwinds (recorded Unit Unit true).start
        (fired ++ [.move () .throws]) := by
  refine ⟨_, rfl, rfl, rfl, rfl, ⟨_, rfl, rfl⟩, fun hall => ?_⟩
  have hunwound := Machine.Throughout.last fired hall rfl rfl () rfl
  cases hunwound.running

end Unwinding

end Tang.EventLoop
