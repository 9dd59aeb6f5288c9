import Mathlib.Data.List.Range
import Tang.Foundation.History
import Tang.EventLoop.Timers

/-! # The life of a timer

A record of the timers added, fired and cancelled, and what it satisfies as long
as callbacks leave the iteration over the table alone.
-/

namespace Tang.EventLoop.LifeCycle

open Foundation Timers

/-- What has happened to timers. The last two fields are about the latest pass:
the timers due at its start, and those fired or cancelled since. -/
structure History where
  added : List (TimerHandle × TimePoint)
  fired : List Firing
  cancelled : List TimerHandle
  due : List TimerHandle
  settled : List TimerHandle
  deriving DecidableEq

namespace History

def addTimer (history : History) (handle : TimerHandle) (expire : TimePoint) : History :=
  { history with added := history.added ++ [(handle, expire)] }

def cancel (history : History) (handle : TimerHandle) : History :=
  { history with
    cancelled := history.cancelled ++ [handle], settled := history.settled ++ [handle] }

def start (history : History) (table : Table) (now : TimePoint) : History :=
  { history with
    due := (table.timers.filter fun timer => timer.expire ≤ now).map Timer.handle
    settled := [] }

def fire (history : History) (firing : Firing) : History :=
  { history with
    fired := history.fired ++ [firing], settled := history.settled ++ [firing.handle] }

end History

/-- A successful `cancel_timer` is put on record, a failed one is not. -/
def record (history : History) (state : State) (action : Action) (next : State) : History :=
  match action with
  | .code (.add now delay _) => history.addTimer state.table.nextId (expireTime now delay)
  | .code (.cancel handle) =>
      if (state.table.cancelTimer handle).2 then history.cancel handle else history
  | .start now => history.start state.table now
  | .examine =>
      match next.firing? with
      | some firing => history.fire firing
      | none => history
  | .returns | .throws | .finish => history

/-- The timer machine with the record. -/
def recorded : Machine (State × History) Action :=
  Timers.machine.recording ⟨[], [], [], [], []⟩ record

/-- Handles are distinct, no timer is fired twice, or cancelled twice, or fired
and cancelled, none is fired before its expiry, a pass that has come to the end
has fired every due timer that was not cancelled, and no invalid iterator was
used. -/
structure Sound (watched : State × History) : Prop where
  distinct : (watched.2.added.map Prod.fst).Nodup
  once : (watched.2.fired.map Firing.handle ++ watched.2.cancelled).Nodup
  punctual : ∀ firing ∈ watched.2.fired, ∃ expire ≤ firing.now,
    (firing.handle, expire) ∈ watched.2.added
  complete : ∀ pass, watched.1.pass = some pass → pass.it = none →
    ∀ handle ∈ watched.2.due, handle ∈ watched.2.settled
  valid : watched.1.undefined = false

/-- A callback neither cancels the timer that is firing, nor makes the table
rehash, nor throws, and no handle is used twice. -/
def Orderly (watched : State × History) : Action → Prop
  | .code (.add _ _ (.insert _)) => watched.2.added.length + 1 < 2 ^ 64 - 1
  | .code (.add _ _ (.rehash _)) =>
      watched.2.added.length + 1 < 2 ^ 64 - 1 ∧ watched.1.pass = none
  | .code (.cancel handle) => watched.1.firing?.map Firing.handle ≠ some handle
  | .throws => False
  | .start _ | .examine | .returns | .finish => True

/-- What holds of the pass under way. -/
structure PassInv (state : State) (history : History) (pass : Pass) : Prop where
  rehashes : pass.rehashes = state.table.rehashes
  valid : ∀ node, pass.it = some node → node ∈ state.table.nodes
  calling : pass.calling → pass.it ≠ none
  /-- A due timer that has not been reached yet is still ahead. -/
  ahead : ∀ handle ∈ history.due, handle ∈ history.settled ∨
    ∃ timer ∈ onward Timer.node pass.it state.table.timers,
      timer.handle = handle ∧ timer.expire ≤ pass.now

/-- What holds of the table and the record, whatever the pass does. -/
structure Registry (table : Table) (history : History) : Prop where
  wellFormed : table.WellFormed
  few : history.added.length < 2 ^ 64 - 1
  nextId : table.nextId = history.added.length + 1
  added : history.added.map Prod.fst = List.range' 1 history.added.length
  handles : table.handles.Nodup
  known : ∀ timer ∈ table.timers, (timer.handle, timer.expire) ∈ history.added
  once : (history.fired.map Firing.handle ++ history.cancelled).Nodup
  cancelled : ∀ handle ∈ history.cancelled, handle ∈ history.added.map Prod.fst
  punctual : ∀ firing ∈ history.fired, ∃ expire ≤ firing.now,
    (firing.handle, expire) ∈ history.added

structure Inv (watched : State × History) : Prop where
  registry : Registry watched.1.table watched.2
  defined : watched.1.undefined = false
  /-- A timer in the table is neither cancelled nor fired, unless it is firing. -/
  fresh : ∀ timer ∈ watched.1.table.timers,
    timer.handle ∈ watched.2.fired.map Firing.handle ++ watched.2.cancelled →
      watched.1.firing?.map Firing.handle = some timer.handle
  firing : ∀ firing, watched.1.firing? = some firing →
    firing ∈ watched.2.fired ∧ firing.handle ∈ watched.2.settled
  pass : ∀ pass, watched.1.pass = some pass → PassInv watched.1 watched.2 pass

variable {state next : State} {history later : History} {watched : State × History}
  {table : Table} {pass : Pass} {timer : Timer} {handle : TimerHandle} {action : Action}

namespace Registry

theorem empty : Registry .new ⟨[], [], [], [], []⟩ := by
  constructor
  case wellFormed => exact Table.new_wellFormed
  all_goals simp [Table.new, Table.handles]

theorem used (hregistry : Registry table history) :
    ∀ handle ∈ history.fired.map Firing.handle ++ history.cancelled,
      handle ∈ history.added.map Prod.fst := by
  intro handle hmem
  rcases List.mem_append.mp hmem with hfired | hcancelled
  · obtain ⟨firing, hfiring, rfl⟩ := List.mem_map.mp hfired
    obtain ⟨expire, _, hadded⟩ := hregistry.punctual firing hfiring
    exact List.mem_map_of_mem hadded
  · exact hregistry.cancelled handle hcancelled

/-- The next handle has not been used. -/
theorem nextId_notMem (hregistry : Registry table history) :
    table.nextId ∉ history.added.map Prod.fst := by
  rw [hregistry.added, hregistry.nextId, List.mem_range'_1]
  omega

theorem nextId_notMem_handles (hregistry : Registry table history) :
    table.nextId ∉ table.handles := by
  intro hmem
  obtain ⟨timer, htimer, hhandle⟩ := List.mem_map.mp hmem
  exact hregistry.nextId_notMem (hhandle ▸ List.mem_map_of_mem (hregistry.known timer htimer))

/-- `add_timer` inserts a timer with a new handle. -/
theorem addTimer_inserts (hregistry : Registry table history) {now : TimePoint} {delay : Int}
    {placement : Placement} {table' : Table}
    (hadd : table.addTimer now delay placement = some (table', table.nextId)) :
    { table with nextId := (table.nextId + 1) % 2 ^ 64 }.insert
        table.nextId (expireTime now delay) placement = some table' := by
  obtain ⟨_, _, ⟨hmem, _⟩ | ⟨_, hinsert⟩⟩ := Table.addTimer_cases hadd
  · exact absurd hmem hregistry.nextId_notMem_handles
  · exact hinsert

theorem addTimer (hregistry : Registry table history) {now : TimePoint} {delay : Int}
    {placement : Placement} {table' : Table} (hfew : history.added.length + 1 < 2 ^ 64 - 1)
    (hadd : table.addTimer now delay placement = some (table', table.nextId)) :
    Registry table' (history.addTimer table.nextId (expireTime now delay)) := by
  have hinsert := hregistry.addTimer_inserts hadd
  obtain ⟨hperm, hnextId, _⟩ := Table.insert_perm hinsert
  have hnext := hregistry.nextId
  constructor
  case wellFormed => exact hregistry.wellFormed.addTimer hadd
  case few => simpa [History.addTimer] using hfew
  case nextId =>
    rw [hnextId]
    simp only [History.addTimer, List.length_append, List.length_singleton]
    omega
  case added =>
    simp [History.addTimer, hregistry.added, hnext, List.range'_concat, Nat.add_comm]
  case handles =>
    exact (hperm.map Timer.handle).nodup_iff.mpr
      (List.nodup_cons.mpr ⟨hregistry.nextId_notMem_handles, hregistry.handles⟩)
  case known =>
    intro timer htimer
    rcases List.mem_cons.mp (hperm.mem_iff.mp htimer) with rfl | hold
    · exact List.mem_append_right _ (List.mem_singleton_self _)
    · exact List.mem_append_left _ (hregistry.known timer hold)
  case once => exact hregistry.once
  case cancelled =>
    intro handle hmem
    simpa [History.addTimer] using Or.inl (hregistry.cancelled handle hmem)
  case punctual =>
    intro firing hmem
    obtain ⟨expire, hle, hadded⟩ := hregistry.punctual firing hmem
    exact ⟨expire, hle, List.mem_append_left _ hadded⟩

/-- Elements leave the table. -/
theorem remove (hregistry : Registry table history) {table' : Table}
    (hwf : table'.WellFormed) (hnextId : table'.nextId = table.nextId)
    (hsublist : table'.timers.Sublist table.timers) : Registry table' history :=
  { hregistry with
    wellFormed := hwf
    nextId := hnextId.trans hregistry.nextId
    handles := (hsublist.map Timer.handle).nodup hregistry.handles
    known := fun timer htimer => hregistry.known timer (hsublist.subset htimer) }

/-- A timer that was neither fired nor cancelled is cancelled. -/
theorem cancel (hregistry : Registry table history) (htimer : timer ∈ table.timers)
    (hfresh : timer.handle ∉ history.fired.map Firing.handle ++ history.cancelled) :
    Registry table (history.cancel timer.handle) :=
  { hregistry with
    once := by
      have hperm := List.perm_append_singleton timer.handle
        (history.fired.map Firing.handle ++ history.cancelled)
      have honce := hperm.nodup_iff.mpr (List.nodup_cons.mpr ⟨hfresh, hregistry.once⟩)
      simpa [History.cancel] using honce
    cancelled := by
      intro handle hmem
      rcases List.mem_append.mp hmem with hold | hnew
      · exact hregistry.cancelled handle hold
      · rw [List.mem_singleton.mp hnew]
        exact List.mem_map_of_mem (hregistry.known timer htimer) }

/-- A timer that was neither fired nor cancelled, and that is due, is fired. -/
theorem fire (hregistry : Registry table history) (htimer : timer ∈ table.timers)
    (hfresh : timer.handle ∉ history.fired.map Firing.handle ++ history.cancelled)
    {now : TimePoint} (hdue : timer.expire ≤ now) :
    Registry table (history.fire ⟨timer.handle, now⟩) :=
  { hregistry with
    once := by
      have hperm := @List.perm_middle _ timer.handle (history.fired.map Firing.handle)
        history.cancelled
      have honce := hperm.nodup_iff.mpr (List.nodup_cons.mpr ⟨hfresh, hregistry.once⟩)
      simpa [History.fire] using honce
    punctual := by
      intro firing hmem
      rcases List.mem_append.mp hmem with hold | hnew
      · exact hregistry.punctual firing hold
      · rw [List.mem_singleton.mp hnew]
        exact ⟨timer.expire, hdue, hregistry.known timer htimer⟩ }

end Registry

namespace Inv

theorem sound (hinv : Inv watched) : Sound watched where
  distinct := hinv.registry.added ▸ List.nodup_range'
  once := hinv.registry.once
  punctual := hinv.registry.punctual
  complete pass hpass hit handle hdue := by
    rcases (hinv.pass pass hpass).ahead handle hdue with hsettled | ⟨timer, hahead, _⟩
    · exact hsettled
    · simp [hit, onward] at hahead
  valid := hinv.defined

theorem start_inv : Inv (⟨.new, none, false⟩, ⟨[], [], [], [], []⟩) := by
  constructor
  case registry => exact .empty
  all_goals simp [Table.new, State.firing?]

/-- The iterator of a running callback points to a timer. -/
theorem exists_current (hinv : Inv (state, history)) (hpass : state.pass = some pass)
    (hit : pass.it ≠ none) : ∃ timer, pass.current state.table = some timer := by
  have hpassInv := hinv.pass pass hpass
  obtain ⟨node, hnode⟩ := Option.ne_none_iff_exists'.mp hit
  exact Pass.current_of_mem hpassInv.rehashes hnode (hpassInv.valid node hnode)

/-- A change of the table between two passes, or one in a callback that the
iterator survives. -/
theorem of_code (hinv : Inv (state, history)) (hcode : state.codeRuns)
    (hregistry : Registry table later) (hfired : later.fired = history.fired)
    (hdue : later.due = history.due) (hsettled : ∀ handle ∈ history.settled, handle ∈ later.settled)
    (hfresh : ∀ timer ∈ table.timers,
      timer.handle ∈ history.fired.map Firing.handle ++ later.cancelled →
        state.firing?.map Firing.handle = some timer.handle)
    (hcurrent : ∀ pass timer, state.pass = some pass → pass.current state.table = some timer →
      pass.calling → pass.current table = some timer ∧
        ∀ other ∈ onward Timer.node pass.it state.table.timers,
          other ∈ onward Timer.node pass.it table.timers ∨ other.handle ∈ later.settled) :
    Inv ({ state with table := table }, later) := by
  have hcalling : ∀ pass, state.pass = some pass → pass.calling := by
    intro pass hpass
    simpa [State.codeRuns, hpass] using hcode
  have hexists : ∀ pass, state.pass = some pass →
      ∃ timer, pass.current state.table = some timer := fun pass hpass =>
    hinv.exists_current hpass ((hinv.pass pass hpass).calling (hcalling pass hpass))
  have hfiring : { state with table := table }.firing? = state.firing? := by
    cases hpass : state.pass with
    | none => simp [State.firing?, hpass]
    | some pass =>
        obtain ⟨timer, htimer⟩ := hexists pass hpass
        have hafter := (hcurrent pass timer hpass htimer (hcalling pass hpass)).1
        simp [State.firing?, hpass, htimer, hafter]
  constructor
  case registry => exact hregistry
  case defined => exact hinv.defined
  case fresh =>
    intro timer htimer hmem
    rw [hfiring]
    exact hfresh timer htimer (hfired ▸ hmem)
  case firing =>
    intro firing hmem
    rw [hfiring] at hmem
    obtain ⟨hmemFired, hmemSettled⟩ := hinv.firing firing hmem
    exact ⟨hfired ▸ hmemFired, hsettled _ hmemSettled⟩
  case pass =>
    intro pass hpass
    have hpassInv := hinv.pass pass hpass
    obtain ⟨timer, htimer⟩ := hexists pass hpass
    obtain ⟨hafter, hahead⟩ := hcurrent pass timer hpass htimer (hcalling pass hpass)
    obtain ⟨hrehashes, hit, rest, honward⟩ := Pass.onward_of_current hafter
    refine ⟨hrehashes, fun node hnode => ?_, hpassInv.calling, fun handle hmem => ?_⟩
    · obtain rfl : timer.node = node := Option.some.inj (hit ▸ hnode)
      have hsub : timer ∈ onward Timer.node pass.it table.timers := honward ▸ List.mem_cons_self
      exact List.mem_map_of_mem (onward_subset hsub)
    · rcases hpassInv.ahead handle (hdue ▸ hmem) with hdone | ⟨other, hother, rfl, hle⟩
      · exact Or.inl (hsettled _ hdone)
      · rcases hahead other hother with hstill | hdone
        · exact Or.inr ⟨other, hstill, rfl, hle⟩
        · exact Or.inl hdone

theorem add (hinv : Inv (state, history)) {now : TimePoint} {delay : Int} {placement : Placement}
    (horderly : Orderly (state, history) (.code (.add now delay placement)))
    (hcode : state.codeRuns)
    (hadd : state.table.addTimer now delay placement = some (table, state.table.nextId)) :
    Inv ({ state with table := table },
      history.addTimer state.table.nextId (expireTime now delay)) := by
  have hfew : history.added.length + 1 < 2 ^ 64 - 1 := by
    cases placement with
    | insert index => exact horderly
    | rehash order => exact horderly.1
  have hregistry := hinv.registry.addTimer hfew hadd
  have hinsert := hinv.registry.addTimer_inserts hadd
  refine hinv.of_code hcode hregistry rfl rfl (fun _ => id) ?_ ?_
  · intro timer htimer hused
    rcases List.mem_cons.mp ((Table.insert_perm hinsert).1.mem_iff.mp htimer) with rfl | hold
    · exact absurd (hinv.registry.used _ hused) hinv.registry.nextId_notMem
    · exact hinv.fresh timer hold hused
  · intro pass timer hpass hcurrent _
    cases placement with
    | insert index =>
        have hcounted : pass.current
            { state.table with nextId := (state.table.nextId + 1) % 2 ^ 64 } = some timer :=
          hcurrent
        obtain ⟨hafter, hahead⟩ := Pass.current_insert hcounted hregistry.wellFormed hinsert
        exact ⟨hafter, fun other hother => Or.inl (hahead other hother)⟩
    | rehash order =>
        have hnone : state.pass = none := horderly.2
        simp [hnone] at hpass

/-- Cancelling a timer that is not firing leaves the iterator valid. -/
theorem cancel_current (horderly : Orderly (state, history) (.code (.cancel handle)))
    (hinv : Inv (state, history)) (hpass : state.pass = some pass) (hcalling : pass.calling)
    (hcurrent : pass.current state.table = some timer) :
    pass.current (state.table.cancelTimer handle).1 = some timer ∧
      ∀ other ∈ onward Timer.node pass.it state.table.timers, other.handle ≠ handle →
        other ∈ onward Timer.node pass.it (state.table.cancelTimer handle).1.timers := by
  have hother : timer.handle ≠ handle := by
    intro heq
    apply horderly
    simp [State.firing?_of_current hpass hcalling hcurrent, heq]
  exact Pass.current_cancelTimer hcurrent hinv.registry.wellFormed hother

theorem cancel (hinv : Inv (state, history)) (handle : TimerHandle)
    (horderly : Orderly (state, history) (.code (.cancel handle))) (hcode : state.codeRuns) :
    Inv ({ state with table := (state.table.cancelTimer handle).1 },
      if (state.table.cancelTimer handle).2 then history.cancel handle else history) := by
  have hwf := hinv.registry.wellFormed.cancelTimer handle
  have hsublist : (state.table.cancelTimer handle).1.timers.Sublist state.table.timers :=
    List.filter_sublist
  by_cases hmem : handle ∈ state.table.handles
  · obtain ⟨timer, htimer, rfl⟩ := List.mem_map.mp hmem
    have hunused : timer.handle ∉ history.fired.map Firing.handle ++ history.cancelled :=
      fun hused => horderly (hinv.fresh timer htimer hused)
    have hregistry := (hinv.registry.cancel htimer hunused).remove hwf rfl hsublist
    simp only [Table.cancelTimer, hmem, decide_true, if_true]
    refine hinv.of_code hcode hregistry rfl rfl (fun _ => List.mem_append_left _) ?_ ?_
    · intro other hother hused
      obtain ⟨hold, hne⟩ := Table.mem_cancelTimer.mp hother
      apply hinv.fresh other hold
      simpa [History.cancel, hne] using hused
    · intro pass firing hpass hcurrent hcalling
      obtain ⟨hafter, hahead⟩ := cancel_current horderly hinv hpass hcalling hcurrent
      refine ⟨hafter, fun other hother => ?_⟩
      by_cases hsame : other.handle = timer.handle
      · exact Or.inr (hsame ▸ List.mem_append_right _ (List.mem_singleton_self _))
      · exact Or.inl (hahead other hother hsame)
  · have hregistry := hinv.registry.remove hwf rfl hsublist
    simp only [Table.cancelTimer, hmem, decide_false, Bool.false_eq_true, if_false]
    refine hinv.of_code hcode hregistry rfl rfl (fun _ => id) ?_ ?_
    · intro other hother
      exact hinv.fresh other (Table.mem_cancelTimer.mp hother).1
    · intro pass firing hpass hcurrent hcalling
      obtain ⟨hafter, hahead⟩ := cancel_current horderly hinv hpass hcalling hcurrent
      refine ⟨hafter, fun other hother => Or.inl (hahead other hother fun hsame => ?_)⟩
      exact hmem (hsame ▸ List.mem_map_of_mem (onward_subset hother))

/-- Nothing is firing, and every timer in the table is unused. -/
theorem unused (hinv : Inv (state, history)) (hidle : state.firing? = none)
    (htimer : timer ∈ state.table.timers) :
    timer.handle ∉ history.fired.map Firing.handle ++ history.cancelled := by
  intro hused
  have hfiring := hinv.fresh timer htimer hused
  simp [hidle] at hfiring

/-- The pass goes on or ends while no callback runs. -/
theorem of_idle (hinv : Inv (state, history)) (hregistry : Registry table history)
    (hfresh : ∀ timer ∈ table.timers,
      timer.handle ∉ history.fired.map Firing.handle ++ history.cancelled)
    {later : Option Pass} (hidle : ∀ pass, later = some pass → pass.calling = false)
    (hpass : ∀ pass, later = some pass →
      PassInv { state with table := table, pass := later } history pass) :
    Inv ({ state with table := table, pass := later }, history) := by
  have hnone : { state with table := table, pass := later }.firing? = none :=
    State.firing?_of_idle hidle
  constructor
  case registry => exact hregistry
  case defined => exact hinv.defined
  case fresh => exact fun timer htimer hused => absurd hused (hfresh timer htimer)
  case firing => simp [hnone]
  case pass => exact hpass

/-- The pass starts with all timers ahead. -/
theorem start (hinv : Inv (state, history)) (now : TimePoint) (hpass : state.pass = none) :
    Inv ({ state with pass := some (.begin state.table now) },
      history.start state.table now) := by
  have hidle : state.firing? = none := by simp [State.firing?, hpass]
  have hwf := hinv.registry.wellFormed
  have honward : onward Timer.node state.table.begin state.table.timers = state.table.timers :=
    (cut_eq (List.nil_append _).symm hwf.nodup rfl).2
  have hlater : Inv ({ state with pass := none }, history.start state.table now) := by
    have hregistry : Registry state.table (history.start state.table now) :=
      { hinv.registry with }
    exact ⟨hregistry, hinv.defined, fun timer htimer hused =>
      absurd hused (hinv.unused hidle htimer), by simp [State.firing?], by simp⟩
  refine hlater.of_idle hlater.registry (fun timer htimer => hinv.unused hidle htimer) ?_ ?_
  · rintro _ ⟨⟩
    rfl
  · rintro _ ⟨⟩
    refine ⟨rfl, fun node hnode => ?_, by simp [Pass.begin], fun handle hdue => Or.inr ?_⟩
    · obtain ⟨first, hfirst, rfl⟩ := Option.map_eq_some_iff.mp hnode
      exact List.mem_map_of_mem (List.mem_of_head? hfirst)
    · obtain ⟨timer, htimer, rfl⟩ := List.mem_map.mp hdue
      obtain ⟨hmem, hexpired⟩ := List.mem_filter.mp htimer
      exact ⟨timer, honward.symm ▸ hmem, rfl, of_decide_eq_true hexpired⟩

/-- Where the iterator goes, an element is in the table. -/
theorem mem_nodes_of_frontKey {rest timers : List Timer} {node : Nat}
    (hsub : ∀ timer ∈ rest, timer ∈ timers) (hnode : frontKey Timer.node rest = some node) :
    node ∈ timers.map Timer.node := by
  obtain ⟨first, hfirst, rfl⟩ := Option.map_eq_some_iff.mp hnode
  exact List.mem_map_of_mem (hsub first (List.mem_of_head? hfirst))

theorem waits (hinv : Inv (state, history)) (hpass : state.pass = some pass)
    (hcalling : pass.calling = false) (hcurrent : pass.current state.table = some timer)
    (hlate : pass.now < timer.expire) :
    Inv ({ state with pass := some (pass.examine state.table timer) }, history) := by
  have hidle : state.firing? = none := by simp [State.firing?, hpass, hcalling]
  have hpassInv := hinv.pass pass hpass
  obtain ⟨hrehashes, hit, rest, honward⟩ := Pass.onward_of_current hcurrent
  rw [hit] at honward
  have hnext := (cut_next honward hinv.registry.wellFormed.nodup).2
  have hafter : state.table.after timer.node = frontKey Timer.node rest := by
    simp [Table.after, honward]
  refine hinv.of_idle hinv.registry (fun timer htimer => hinv.unused hidle htimer) ?_ ?_
  · rintro _ ⟨⟩
    simp [Pass.examine, Int.not_le.mpr hlate, hcalling]
  · rintro _ ⟨⟩
    simp only [Pass.examine, if_neg (Int.not_le.mpr hlate)]
    refine ⟨hrehashes, fun node hnode => ?_, by simp [hcalling], fun handle hdue => ?_⟩
    · refine mem_nodes_of_frontKey (fun other hother => ?_) (hafter.symm.trans hnode)
      exact onward_subset (honward ▸ List.mem_cons_of_mem _ hother)
    · rcases hpassInv.ahead handle hdue with hsettled | ⟨other, hother, rfl, hexpired⟩
      · exact Or.inl hsettled
      · rw [hit, honward] at hother
        rcases List.mem_cons.mp hother with rfl | hrest
        · exact absurd hexpired (Int.not_le.mpr hlate)
        · exact Or.inr ⟨other, by rw [hafter, hnext]; exact hrest, rfl, hexpired⟩

theorem fires (hinv : Inv (state, history)) (hpass : state.pass = some pass)
    (hcalling : pass.calling = false) (hcurrent : pass.current state.table = some timer)
    (hdue : timer.expire ≤ pass.now) :
    Inv ({ state with pass := some { pass with calling := true } },
      history.fire ⟨timer.handle, pass.now⟩) := by
  have hidle : state.firing? = none := by simp [State.firing?, hpass, hcalling]
  have hpassInv := hinv.pass pass hpass
  obtain ⟨hrehashes, hit, rest, honward⟩ := Pass.onward_of_current hcurrent
  have htimer : timer ∈ state.table.timers := Pass.mem_of_current hcurrent
  have hfiring : { state with pass := some { pass with calling := true } }.firing? =
      some ⟨timer.handle, pass.now⟩ := by
    have hcurrent' : { pass with calling := true }.current state.table = some timer := hcurrent
    simp [State.firing?, hcurrent']
  constructor
  case registry => exact hinv.registry.fire htimer (hinv.unused hidle htimer) hdue
  case defined => exact hinv.defined
  case fresh =>
    intro other hother hused
    have hunused := hinv.unused hidle hother
    rw [hfiring]
    by_contra hne
    apply hunused
    simpa [History.fire, show other.handle ≠ timer.handle from fun heq => hne (by simp [heq])]
      using hused
  case firing =>
    intro firing hmem
    rw [hfiring] at hmem
    cases hmem
    simp [History.fire]
  case pass =>
    rintro _ ⟨⟩
    refine ⟨hrehashes, hpassInv.valid, fun _ => by simp [hit], fun handle hmem => ?_⟩
    rcases hpassInv.ahead handle hmem with hsettled | hahead
    · exact Or.inl (List.mem_append_left _ hsettled)
    · exact Or.inr hahead

theorem erases (hinv : Inv (state, history)) (hpass : state.pass = some pass)
    (hcalling : pass.calling) (hcurrent : pass.current state.table = some timer) :
    Inv ({ state with
      table := state.table.erase timer.node
      pass := some (pass.proceed state.table timer) }, history) := by
  have hpassInv := hinv.pass pass hpass
  have hfiring := State.firing?_of_current hpass hcalling hcurrent
  obtain ⟨hrehashes, hit, rest, honward⟩ := Pass.onward_of_current hcurrent
  have htimer : timer ∈ state.table.timers := Pass.mem_of_current hcurrent
  rw [hit] at honward
  have hwf := hinv.registry.wellFormed
  have hnext := (cut_erase honward hwf.nodup).2
  have hafter : state.table.after timer.node = frontKey Timer.node rest := by
    simp [Table.after, honward]
  have hregistry := hinv.registry.remove (hwf.erase timer.node) rfl List.filter_sublist
  refine hinv.of_idle hregistry (fun other hother hused => ?_) ?_ ?_
  · -- a timer that was used can only be the one that fired
    obtain ⟨hold, hne⟩ := Table.mem_erase.mp hother
    have hsame := hinv.fresh other hold hused
    rw [hfiring] at hsame
    have hhandle : timer.handle = other.handle := Option.some.inj hsame
    exact hne (List.inj_on_of_nodup_map hinv.registry.handles htimer hold hhandle ▸ rfl)
  · rintro _ ⟨⟩
    rfl
  · rintro _ ⟨⟩
    refine ⟨hrehashes, fun node hnode => ?_, by simp [Pass.proceed], fun handle hdue => ?_⟩
    · refine mem_nodes_of_frontKey (fun other hother => ?_) (hafter.symm.trans hnode)
      exact onward_subset (hnext.symm ▸ hother)
    · rcases hpassInv.ahead handle hdue with hsettled | ⟨other, hother, rfl, hexpired⟩
      · exact Or.inl hsettled
      · rw [hit, honward] at hother
        rcases List.mem_cons.mp hother with rfl | hrest
        · exact Or.inl (hinv.firing _ hfiring).2
        · refine Or.inr ⟨other, ?_, rfl, hexpired⟩
          simp only [Pass.proceed, hafter]
          exact hnext.symm ▸ hrest

theorem finish (hinv : Inv (state, history)) (hpass : state.pass = some pass)
    (hit : pass.it = none) : Inv ({ state with pass := none }, history) := by
  have hidle : state.firing? = none := by simp [State.firing?, hpass, Pass.current, hit]
  exact hinv.of_idle hinv.registry (fun timer htimer => hinv.unused hidle htimer)
    (by simp) (by simp)

end Inv

theorem inv_step {watched after : State × History} (hinv : Inv watched)
    (horderly : Orderly watched action) (hstep : recorded.step watched action = some after) :
    Inv after := by
  obtain ⟨state, history⟩ := watched
  obtain ⟨next, later⟩ := after
  obtain ⟨hmachine, hrecord⟩ := Machine.recording_step hstep
  have hmoves := moves_of_step hmachine
  dsimp only at hmoves hrecord
  subst hrecord
  cases hmoves with
  | add now delay placement table hcode hadd => exact hinv.add horderly hcode hadd
  | cancel handle hcode => exact hinv.cancel handle horderly hcode
  | start now hpass => exact hinv.start now hpass
  | waits pass timer hpass hcalling hcurrent hlate =>
      have hidle : { state with pass := some (pass.examine state.table timer) }.firing? = none := by
        simp [State.firing?, Pass.examine, Int.not_le.mpr hlate, hcalling]
      simpa only [record, hidle] using hinv.waits hpass hcalling hcurrent hlate
  | fires pass timer hpass hcalling hcurrent hdue =>
      have hcurrent' : { pass with calling := true }.current state.table = some timer := hcurrent
      have hfiring : { state with pass := some { pass with calling := true } }.firing? =
          some ⟨timer.handle, pass.now⟩ := by simp [State.firing?, hcurrent']
      simpa only [record, hfiring] using hinv.fires hpass hcalling hcurrent hdue
  | erases pass timer hpass hcalling hcurrent => exact hinv.erases hpass hcalling hcurrent
  | strays pass _ hpass haction hcurrent =>
      have hit : pass.it ≠ none := by
        rcases haction with ⟨_, hit, _⟩ | ⟨_, hcalling⟩
        · exact hit
        · exact (hinv.pass pass hpass).calling hcalling
      obtain ⟨timer, htimer⟩ := hinv.exists_current hpass hit
      simp [hcurrent] at htimer
  | throws => exact horderly.elim
  | finish pass hpass hit => exact hinv.finish hpass hit

/-- With callbacks that leave the iterator alone, timers live as they should. -/
theorem sound_of_orderly (actions : List Action)
    (hmeets : recorded.Meets Orderly recorded.start actions) :
    recorded.Along Sound recorded.start actions :=
  Machine.along_of_meets Inv (fun _ _ _ hinv horderly hstep => inv_step hinv horderly hstep)
    (fun _ hinv => hinv.sound) Inv.start_inv hmeets

instance (watched : State × History) (action : Action) : Decidable (Orderly watched action) := by
  unfold Orderly
  split <;> infer_instance

/-- A callback re-arms its timer and cancels another one. -/
theorem sound_of_orderly_rearm :
    recorded.Along Sound recorded.start
      [.code (.add 0 1 (.insert 0)), .code (.add 0 1 (.insert 1)), .start 1000000, .examine,
        .code (.add 1000000 1 (.insert 0)), .code (.cancel 2), .returns, .finish] :=
  sound_of_orderly _ (by decide)

/-- A callback that cancels its own timer: `handle_timers` then erases through
an iterator to an erased element, and the timer was both fired and cancelled. -/
theorem not_sound_selfCancel :
    ∃ final, recorded.exec recorded.start
        [.code (.add 0 1 (.insert 0)), .start 1000000, .examine, .code (.cancel 1), .returns] =
          some final ∧
      final.2.added.length < 2 ^ 64 - 1 ∧ final.1.undefined = true ∧
        final.2.fired.map Firing.handle = [1] ∧ final.2.cancelled = [1] ∧ ¬ Sound final := by
  refine ⟨_, rfl, by decide, rfl, rfl, rfl, fun hsound => ?_⟩
  exact absurd hsound.valid (by decide)

end Tang.EventLoop.LifeCycle
