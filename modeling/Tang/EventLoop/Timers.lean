import Mathlib.Algebra.Group.Int.Defs
import Mathlib.Algebra.Group.Nat.Defs
import Tang.Foundation.Machine
import Tang.Foundation.Cursor

/-! # The timer table of the event loop

`timers_` is an `unordered_map` that callbacks change while `handle_timers`
iterates over it. Where a new element lands in the iteration order, and whether
its insertion rehashes the table, is up to the hash table and chosen by the
run. An iterator is valid as long as its element is in the table and nothing has
been rehashed since it was obtained; what the code does with an invalid one is
undefined, and the run ends there.
-/

namespace Tang.EventLoop

open Foundation

/-- `timer_handle`, a `uint64_t`. -/
abbrev TimerHandle := Nat

/-- `steady_clock::time_point`: a signed 64-bit count of nanoseconds. -/
abbrev TimePoint := Int

/-- What a signed 64-bit operation leaves of an exact result. -/
def wrap64 (count : Int) : Int := count.bmod (2 ^ 64)

/-- `milliseconds::max()`. -/
def maxTimeout : Int := 2 ^ 63 - 1

/-- `now + delay` for a delay in milliseconds. -/
def expireTime (now : TimePoint) (delay : Int) : TimePoint :=
  wrap64 (now + wrap64 (delay * 1000000))

/-- `duration_cast<milliseconds>(expire_time - now)`. -/
def timeoutUntil (now expire : TimePoint) : Int := (wrap64 (expire - now)).tdiv 1000000

theorem wrap64_le {count : Int} (hcount : 0 ≤ count) : wrap64 count ≤ count := by
  unfold wrap64
  rw [Int.bmod_def]
  split <;> omega

theorem wrap64_lt (count : Int) : wrap64 count < 2 ^ 63 := by
  unfold wrap64
  rw [Int.bmod_def]
  split <;> omega

theorem tdiv_million_le {count : Int} (hcount : 0 ≤ count) :
    count.tdiv 1000000 * 1000000 ≤ count := by
  rw [Int.tdiv_eq_ediv_of_nonneg hcount]
  omega

/-- The remaining time of a timer that is not due is rounded down. -/
theorem timeoutUntil_mul_le {now expire : Int} (hlate : now < expire) :
    timeoutUntil now expire * 1000000 ≤ expire - now := by
  have hwrap := wrap64_le (show 0 ≤ expire - now by omega)
  unfold timeoutUntil
  rcases Int.le_total 0 (wrap64 (expire - now)) with hnonneg | hnonpos
  · exact Int.le_trans (tdiv_million_le hnonneg) hwrap
  · have hdiv := tdiv_million_le (show 0 ≤ -wrap64 (expire - now) by omega)
    have hnonneg := Int.tdiv_nonneg (show 0 ≤ -wrap64 (expire - now) by omega)
      (show (0 : Int) ≤ 1000000 by decide)
    rw [Int.neg_tdiv] at hdiv hnonneg
    omega

/-- No remaining time is `milliseconds::max()`. -/
theorem timeoutUntil_lt (now expire : Int) : timeoutUntil now expire < maxTimeout := by
  have hwrap := wrap64_lt (expire - now)
  unfold timeoutUntil maxTimeout
  rcases Int.le_total 0 (wrap64 (expire - now)) with hnonneg | hnonpos
  · have hdiv := tdiv_million_le hnonneg
    omega
  · have hnonneg := Int.tdiv_nonneg (show 0 ≤ -wrap64 (expire - now) by omega)
      (show (0 : Int) ≤ 1000000 by decide)
    rw [Int.neg_tdiv] at hnonneg
    omega

/-- An element of `timers_`, without its callback: what a callback does is
chosen by the run. `node` is the identity of the element, what an iterator
points to. -/
structure Timer where
  handle : TimerHandle
  expire : TimePoint
  node : Nat
  deriving DecidableEq

/-- The element after `timers_[handle] = ...` found its handle in the table. -/
def Timer.assign (handle : TimerHandle) (expire : TimePoint) (timer : Timer) : Timer :=
  if timer.handle = handle then { timer with expire := expire } else timer

@[simp] theorem Timer.assign_node (handle : TimerHandle) (expire : TimePoint) (timer : Timer) :
    (timer.assign handle expire).node = timer.node := by
  unfold assign
  split <;> rfl

@[simp] theorem Timer.assign_handle (handle : TimerHandle) (expire : TimePoint) (timer : Timer) :
    (timer.assign handle expire).handle = timer.handle := by
  unfold assign
  split <;> rfl

/-- Where the hash table puts a new element. -/
inductive Placement
  | insert (index : Nat)
  | rehash (order : List Timer)
  deriving DecidableEq

/-- `timers_` in iteration order and `next_timer_id_`. The hash table has
allocated and has been rehashed as often as the last two fields say. -/
structure Table where
  timers : List Timer
  nextId : Nat
  allocated : Nat
  rehashes : Nat
  deriving DecidableEq

namespace Table

def new : Table := ⟨[], 1, 0, 0⟩

def handles (table : Table) : List TimerHandle := table.timers.map Timer.handle

def nodes (table : Table) : List Nat := table.timers.map Timer.node

/-- `timers_[handle] = ...` for a handle that is in the table. -/
def overwrite (table : Table) (handle : TimerHandle) (expire : TimePoint) : Table :=
  { table with timers := table.timers.map (Timer.assign handle expire) }

/-- `timers_[handle] = ...` for a handle that is not; none for an order the hash
table cannot choose. -/
def insert (table : Table) (handle : TimerHandle) (expire : TimePoint) :
    Placement → Option Table
  | .insert index => some { table with
      timers := insertAt index ⟨handle, expire, table.allocated⟩ table.timers
      allocated := table.allocated + 1 }
  | .rehash order =>
      if order.Perm (⟨handle, expire, table.allocated⟩ :: table.timers) then
        some { table with
          timers := order, allocated := table.allocated + 1, rehashes := table.rehashes + 1 }
      else none

def addTimer (table : Table) (now : TimePoint) (delay : Int) (placement : Placement) :
    Option (Table × TimerHandle) :=
  let handle := table.nextId
  let counted := { table with nextId := (handle + 1) % 2 ^ 64 }
  let assigned :=
    if handle ∈ table.handles then some (counted.overwrite handle (expireTime now delay))
    else counted.insert handle (expireTime now delay) placement
  assigned.map fun table' => (table', handle)

def cancelTimer (table : Table) (handle : TimerHandle) : Table × Bool :=
  ({ table with timers := table.timers.filter fun timer => timer.handle != handle },
    decide (handle ∈ table.handles))

/-- `timers_.begin()`, none for `end()`. -/
def begin (table : Table) : Option Nat := frontKey Timer.node table.timers

/-- The element an iterator points to. -/
def deref (table : Table) (node : Nat) : Option Timer :=
  (onward Timer.node (some node) table.timers).head?

/-- Where an iterator stands after `++it`, or after its element is erased. -/
def after (table : Table) (node : Nat) : Option Nat :=
  frontKey Timer.node (onward Timer.node (some node) table.timers).tail

/-- `timers_.erase(it)`. -/
def erase (table : Table) (node : Nat) : Table :=
  { table with timers := table.timers.filter fun timer => timer.node != node }

variable {table table' : Table} {timer : Timer} {placement : Placement}
  {handle : TimerHandle} {expire : TimePoint} {node : Nat}

/-- Elements have distinct identities, all of them allocated. -/
structure WellFormed (table : Table) : Prop where
  nodup : table.nodes.Nodup
  allocated : ∀ timer ∈ table.timers, timer.node < table.allocated

theorem new_wellFormed : WellFormed .new := ⟨List.nodup_nil, by simp [new]⟩

@[simp] theorem mem_erase :
    timer ∈ (table.erase node).timers ↔ timer ∈ table.timers ∧ timer.node ≠ node := by
  simp [erase]

@[simp] theorem mem_cancelTimer :
    timer ∈ (table.cancelTimer handle).1.timers ↔
      timer ∈ table.timers ∧ timer.handle ≠ handle := by
  simp [cancelTimer]

@[simp] theorem overwrite_nodes : (table.overwrite handle expire).nodes = table.nodes := by
  simp [nodes, overwrite, Function.comp_def]

/-- What an insertion leaves, wherever the element goes. -/
theorem insert_perm (hinsert : table.insert handle expire placement = some table') :
    table'.timers.Perm (⟨handle, expire, table.allocated⟩ :: table.timers) ∧
      table'.nextId = table.nextId ∧ table'.allocated = table.allocated + 1 := by
  cases placement with
  | insert index =>
      cases hinsert
      exact ⟨insertAt_perm _ _ _, rfl, rfl⟩
  | rehash order =>
      simp only [insert] at hinsert
      split at hinsert
      next horder =>
        cases hinsert
        exact ⟨horder, rfl, rfl⟩
      next => cases hinsert

theorem rehashes_le_insert (hinsert : table.insert handle expire placement = some table') :
    table.rehashes ≤ table'.rehashes := by
  cases placement with
  | insert index =>
      cases hinsert
      exact Nat.le_refl _
  | rehash order =>
      simp only [insert] at hinsert
      split at hinsert
      next =>
        cases hinsert
        exact Nat.le_succ _
      next => cases hinsert

theorem rehashes_insert_rehash {order : List Timer}
    (hinsert : table.insert handle expire (.rehash order) = some table') :
    table'.rehashes = table.rehashes + 1 := by
  simp only [insert] at hinsert
  split at hinsert
  next =>
    cases hinsert
    rfl
  next => cases hinsert

/-- `add_timer` hands out the next handle, and overwrites or inserts. -/
theorem addTimer_cases {now : TimePoint} {delay : Int}
    (hadd : table.addTimer now delay placement = some (table', handle)) :
    handle = table.nextId ∧ table'.nextId = (table.nextId + 1) % 2 ^ 64 ∧
      ((handle ∈ table.handles ∧
          table' = { table with nextId := (table.nextId + 1) % 2 ^ 64 }.overwrite handle
            (expireTime now delay)) ∨
        (handle ∉ table.handles ∧
          { table with nextId := (table.nextId + 1) % 2 ^ 64 }.insert handle
            (expireTime now delay) placement = some table')) := by
  obtain ⟨assigned, hassigned, heq⟩ := Option.map_eq_some_iff.mp hadd
  obtain ⟨rfl, rfl⟩ := Prod.mk.inj heq
  split at hassigned
  next hmem =>
    cases hassigned
    exact ⟨rfl, rfl, Or.inl ⟨hmem, rfl⟩⟩
  next hmem => exact ⟨rfl, (insert_perm hassigned).2.1, Or.inr ⟨hmem, hassigned⟩⟩

namespace WellFormed

theorem addTimer (hwf : table.WellFormed) {now : TimePoint} {delay : Int}
    (hadd : table.addTimer now delay placement = some (table', handle)) : table'.WellFormed := by
  obtain ⟨_, _, ⟨_, rfl⟩ | ⟨_, hinsert⟩⟩ := addTimer_cases hadd
  · constructor
    · rw [overwrite_nodes]
      exact hwf.nodup
    · intro timer htimer
      obtain ⟨old, hold, rfl⟩ := List.mem_map.mp htimer
      rw [Timer.assign_node]
      exact hwf.allocated old hold
  · obtain ⟨hperm, _, hallocated⟩ := insert_perm hinsert
    have hfresh : table.allocated ∉ table.nodes := by
      intro hmem
      obtain ⟨timer, htimer, hnode⟩ := List.mem_map.mp hmem
      exact absurd (hwf.allocated timer htimer) (by omega)
    constructor
    · exact (hperm.map Timer.node).nodup_iff.mpr (List.nodup_cons.mpr ⟨hfresh, hwf.nodup⟩)
    · intro timer htimer
      rw [hallocated]
      rcases List.mem_cons.mp (hperm.mem_iff.mp htimer) with rfl | hold
      · exact Nat.lt_succ_self _
      · exact Nat.lt_succ_of_lt (hwf.allocated timer hold)

theorem cancelTimer (hwf : table.WellFormed) (handle : TimerHandle) :
    (table.cancelTimer handle).1.WellFormed :=
  ⟨(List.filter_sublist.map Timer.node).nodup hwf.nodup,
    fun timer htimer => hwf.allocated timer (mem_cancelTimer.mp htimer).1⟩

theorem erase (hwf : table.WellFormed) (node : Nat) : (table.erase node).WellFormed :=
  ⟨(List.filter_sublist.map Timer.node).nodup hwf.nodup,
    fun timer htimer => hwf.allocated timer (mem_erase.mp htimer).1⟩

end WellFormed

end Table

/-- The local variables of `handle_timers`. -/
structure Pass where
  now : TimePoint
  nextTimeout : Int
  it : Option Nat
  /-- The rehashes of the table when `it` was obtained. -/
  rehashes : Nat
  /-- The callback of the timer at `it` is running. -/
  calling : Bool
  deriving DecidableEq

namespace Pass

def begin (table : Table) (now : TimePoint) : Pass :=
  ⟨now, maxTimeout, table.begin, table.rehashes, false⟩

/-- The element at the iterator, if the iterator is valid. -/
def current (pass : Pass) (table : Table) : Option Timer :=
  if pass.rehashes = table.rehashes then pass.it.bind table.deref else none

/-- One round of the loop up to the call of the callback, or a whole round for a
timer that is not due. -/
def examine (pass : Pass) (table : Table) (timer : Timer) : Pass :=
  if timer.expire ≤ pass.now then { pass with calling := true }
  else
    let timeout := timeoutUntil pass.now timer.expire
    { pass with
      nextTimeout := if timeout < pass.nextTimeout then timeout else pass.nextTimeout
      it := table.after timer.node }

/-- `it = timers_.erase(it)`, once the callback has returned. -/
def proceed (pass : Pass) (table : Table) (timer : Timer) : Pass :=
  { pass with it := table.after timer.node, calling := false }

end Pass

/-- The calls code makes, between two passes or in a callback. -/
inductive TimerOp
  | add (now : TimePoint) (delay : Int) (placement : Placement)
  | cancel (handle : TimerHandle)
  deriving DecidableEq

namespace TimerOp

/-- The table a call leaves; none for a placement the hash table cannot choose. -/
def run (table : Table) : TimerOp → Option Table
  | .add now delay placement => (table.addTimer now delay placement).map Prod.fst
  | .cancel handle => some (table.cancelTimer handle).1

end TimerOp

namespace Timers

/-- The table and the pass under way. -/
structure State where
  table : Table
  pass : Option Pass
  /-- The pass has used an invalid iterator. -/
  undefined : Bool
  deriving DecidableEq

/-- A call of a callback: the timer, and the clock reading of the pass. -/
structure Firing where
  handle : TimerHandle
  now : TimePoint
  deriving DecidableEq

/-- The callback that is running. -/
def State.firing? (state : State) : Option Firing :=
  state.pass.bind fun pass =>
    if pass.calling then
      (pass.current state.table).map fun timer => ⟨timer.handle, pass.now⟩
    else none

inductive Action
  | code (op : TimerOp)
  | start (now : TimePoint)
  | examine
  | returns
  | throws
  | finish
  deriving DecidableEq

/-- Code runs between two passes and in the callbacks of a pass. -/
def State.codeRuns (state : State) : Bool :=
  match state.pass with
  | none => true
  | some pass => pass.calling

/-- The next step of the pass, which needs the element at its iterator. -/
def State.advance (state : State) (pass : Pass)
    (next : Timer → Table × Pass) : State :=
  match pass.current state.table with
  | some timer => { state with table := (next timer).1, pass := some (next timer).2 }
  | none => { state with pass := none, undefined := true }

def step (state : State) : Action → Option State
  | .code op =>
      if state.undefined = false ∧ state.codeRuns then
        (op.run state.table).map fun table => { state with table := table }
      else none
  | .start now =>
      match state.pass with
      | none =>
          if state.undefined then none
          else some { state with pass := some (.begin state.table now) }
      | some _ => none
  | .examine =>
      match state.pass with
      | some pass =>
          if pass.it ≠ none ∧ pass.calling = false then
            some (state.advance pass fun timer =>
              (state.table, pass.examine state.table timer))
          else none
      | none => none
  | .returns =>
      match state.pass with
      | some pass =>
          if pass.calling then
            some (state.advance pass fun timer =>
              (state.table.erase timer.node, pass.proceed state.table timer))
          else none
      | none => none
  -- an exception of a callback leaves `handle_timers` before the erasure
  | .throws =>
      match state.pass with
      | some pass => if pass.calling then some { state with pass := none } else none
      | none => none
  | .finish =>
      match state.pass with
      | some pass => if pass.it = none then some { state with pass := none } else none
      | none => none

/-- Passes over one table, with code between them and in the callbacks. -/
def machine : Machine State Action where
  start := ⟨.new, none, false⟩
  step := step

/-! ## Inversion of a step -/

/-- The steps, by what they do. -/
inductive Moves (state : State) : Action → State → Prop
  | add (now : TimePoint) (delay : Int) (placement : Placement) (table : Table)
      (hcode : state.codeRuns)
      (hadd : state.table.addTimer now delay placement = some (table, state.table.nextId)) :
      Moves state (.code (.add now delay placement)) { state with table := table }
  | cancel (handle : TimerHandle) (hcode : state.codeRuns) :
      Moves state (.code (.cancel handle))
        { state with table := (state.table.cancelTimer handle).1 }
  | start (now : TimePoint) (hpass : state.pass = none) :
      Moves state (.start now) { state with pass := some (.begin state.table now) }
  | waits (pass : Pass) (timer : Timer) (hpass : state.pass = some pass)
      (hcalling : pass.calling = false) (hcurrent : pass.current state.table = some timer)
      (hlate : pass.now < timer.expire) :
      Moves state .examine { state with pass := some (pass.examine state.table timer) }
  | fires (pass : Pass) (timer : Timer) (hpass : state.pass = some pass)
      (hcalling : pass.calling = false) (hcurrent : pass.current state.table = some timer)
      (hdue : timer.expire ≤ pass.now) :
      Moves state .examine { state with pass := some { pass with calling := true } }
  | erases (pass : Pass) (timer : Timer) (hpass : state.pass = some pass)
      (hcalling : pass.calling) (hcurrent : pass.current state.table = some timer) :
      Moves state .returns { state with
        table := state.table.erase timer.node
        pass := some (pass.proceed state.table timer) }
  | strays (pass : Pass) (action : Action) (hpass : state.pass = some pass)
      (haction : action = .examine ∧ pass.it ≠ none ∧ pass.calling = false ∨
        action = .returns ∧ pass.calling)
      (hcurrent : pass.current state.table = none) :
      Moves state action { state with pass := none, undefined := true }
  | throws (pass : Pass) (hpass : state.pass = some pass) (hcalling : pass.calling) :
      Moves state .throws { state with pass := none }
  | finish (pass : Pass) (hpass : state.pass = some pass) (hit : pass.it = none) :
      Moves state .finish { state with pass := none }

variable {state next : State} {action : Action}

theorem moves_of_step (hstep : step state action = some next) : Moves state action next := by
  cases action with
  | code op =>
      simp only [step] at hstep
      split at hstep
      next hcode =>
        obtain ⟨table, hrun, rfl⟩ := Option.map_eq_some_iff.mp hstep
        cases op with
        | add now delay placement =>
            obtain ⟨⟨table', handle⟩, hadd, rfl⟩ := Option.map_eq_some_iff.mp hrun
            obtain ⟨rfl, _⟩ := Table.addTimer_cases hadd
            exact .add now delay placement table' hcode.2 hadd
        | cancel handle =>
            cases hrun
            exact .cancel handle hcode.2
      next => cases hstep
  | start now =>
      simp only [step] at hstep
      split at hstep
      next hpass =>
        split at hstep
        next => cases hstep
        next =>
          cases hstep
          exact .start now hpass
      next => cases hstep
  | examine =>
      simp only [step] at hstep
      split at hstep
      next pass hpass =>
        split at hstep
        next hplace =>
          cases hstep
          unfold State.advance
          split
          next timer hcurrent =>
            by_cases hdue : timer.expire ≤ pass.now
            · simpa only [Pass.examine, if_pos hdue] using
                Moves.fires pass timer hpass hplace.2 hcurrent hdue
            · exact .waits pass timer hpass hplace.2 hcurrent (Int.not_le.mp hdue)
          next hcurrent => exact .strays pass _ hpass (Or.inl ⟨rfl, hplace⟩) hcurrent
        next => cases hstep
      next => cases hstep
  | returns =>
      simp only [step] at hstep
      split at hstep
      next pass hpass =>
        split at hstep
        next hcalling =>
          cases hstep
          unfold State.advance
          split
          next timer hcurrent => exact .erases pass timer hpass hcalling hcurrent
          next hcurrent => exact .strays pass _ hpass (Or.inr ⟨rfl, hcalling⟩) hcurrent
        next => cases hstep
      next => cases hstep
  | throws =>
      simp only [step] at hstep
      split at hstep
      next pass hpass =>
        split at hstep
        next hcalling =>
          cases hstep
          exact .throws pass hpass hcalling
        next => cases hstep
      next => cases hstep
  | finish =>
      simp only [step] at hstep
      split at hstep
      next pass hpass =>
        split at hstep
        next hit =>
          cases hstep
          exact .finish pass hpass hit
        next => cases hstep
      next => cases hstep

theorem State.firing?_of_current {pass : Pass} {timer : Timer} (hpass : state.pass = some pass)
    (hcalling : pass.calling) (hcurrent : pass.current state.table = some timer) :
    state.firing? = some ⟨timer.handle, pass.now⟩ := by
  simp [State.firing?, hpass, hcalling, hcurrent]

theorem State.firing?_of_idle (hidle : ∀ pass, state.pass = some pass → pass.calling = false) :
    state.firing? = none := by
  cases hpass : state.pass with
  | none => simp [State.firing?, hpass]
  | some pass => simp [State.firing?, hpass, hidle pass hpass]

theorem Moves.wellFormed (hmoves : Moves state action next) (hwf : state.table.WellFormed) :
    next.table.WellFormed := by
  cases hmoves with
  | add now delay placement table _ hadd => exact hwf.addTimer hadd
  | cancel handle _ => exact hwf.cancelTimer handle
  | erases pass timer _ _ _ => exact hwf.erase timer.node
  | start | waits | fires | strays | throws | finish => exact hwf

end Timers

namespace Pass

variable {pass : Pass} {table : Table} {timer : Timer}

/-- A valid iterator begins the part of the table still to be visited. -/
theorem onward_of_current (hcurrent : pass.current table = some timer) :
    pass.rehashes = table.rehashes ∧ pass.it = some timer.node ∧
      ∃ rest, onward Timer.node pass.it table.timers = timer :: rest := by
  unfold current at hcurrent
  split at hcurrent
  next hrehashes =>
    obtain ⟨node, hit, hderef⟩ := Option.bind_eq_some_iff.mp hcurrent
    obtain ⟨rest, honward⟩ := List.head?_eq_some_iff.mp hderef
    have hnode := key_of_onward honward
    exact ⟨hrehashes, hnode ▸ hit, rest, hit ▸ honward⟩
  next => cases hcurrent

/-- An iterator whose element is in the table is valid if nothing was rehashed. -/
theorem current_of_mem {node : Nat} (hrehashes : pass.rehashes = table.rehashes)
    (hit : pass.it = some node) (hmem : node ∈ table.nodes) :
    ∃ timer, pass.current table = some timer := by
  obtain ⟨timer, rest, honward⟩ := onward_eq_cons hmem
  exact ⟨timer, by simp [current, hrehashes, hit, Table.deref, honward]⟩

theorem mem_of_current (hcurrent : pass.current table = some timer) : timer ∈ table.timers := by
  obtain ⟨_, _, rest, honward⟩ := onward_of_current hcurrent
  exact onward_subset (honward ▸ List.mem_cons_self)

theorem current_of_onward {rest : List Timer} (hrehashes : pass.rehashes = table.rehashes)
    (hit : pass.it = some timer.node)
    (honward : onward Timer.node (some timer.node) table.timers = timer :: rest) :
    pass.current table = some timer := by
  simp [current, hrehashes, hit, Table.deref, honward]

/-- An insertion that does not rehash leaves the iterator valid and everything
ahead of it ahead. -/
theorem current_insert {table' : Table} {handle : TimerHandle} {expire : TimePoint}
    {index : Nat} (hcurrent : pass.current table = some timer) (hwf : table'.WellFormed)
    (hinsert : table.insert handle expire (.insert index) = some table') :
    pass.current table' = some timer ∧
      ∀ other ∈ onward Timer.node pass.it table.timers,
        other ∈ onward Timer.node pass.it table'.timers := by
  obtain ⟨hrehashes, hit, rest, honward⟩ := onward_of_current hcurrent
  cases hinsert
  rw [hit] at honward
  rw [hit, honward]
  rcases cut_insertAt index honward hwf.nodup with ⟨_, _, hafter⟩ | ⟨_, _, later, hlater, hafter⟩
  · exact ⟨current_of_onward hrehashes hit hafter, fun other hother => hafter ▸ hother⟩
  · refine ⟨current_of_onward hrehashes hit hafter, fun other hother => ?_⟩
    rw [hafter]
    rcases List.mem_cons.mp hother with rfl | hrest
    · exact List.mem_cons_self
    · exact List.mem_cons_of_mem _ (hlater.mem_iff.mpr (List.mem_cons_of_mem _ hrest))

/-- Cancelling another timer leaves the iterator valid, and only the cancelled
timer is no longer ahead. -/
theorem current_cancelTimer {handle : TimerHandle} (hcurrent : pass.current table = some timer)
    (hwf : table.WellFormed) (hother : timer.handle ≠ handle) :
    pass.current (table.cancelTimer handle).1 = some timer ∧
      ∀ other ∈ onward Timer.node pass.it table.timers, other.handle ≠ handle →
        other ∈ onward Timer.node pass.it (table.cancelTimer handle).1.timers := by
  obtain ⟨hrehashes, hit, rest, honward⟩ := onward_of_current hcurrent
  rw [hit] at honward
  have hkeep : (timer.handle != handle) = true := by simpa using hother
  have hafter : onward Timer.node (some timer.node) (table.cancelTimer handle).1.timers =
      timer :: rest.filter fun timer => timer.handle != handle :=
    (cut_filter honward hwf.nodup hkeep).2
  refine ⟨current_of_onward hrehashes hit hafter, fun other hmem hne => ?_⟩
  rw [hit] at hmem ⊢
  rw [honward] at hmem
  refine hafter ▸ ?_
  rcases List.mem_cons.mp hmem with rfl | hrest
  · exact List.mem_cons_self
  · exact List.mem_cons_of_mem _ (List.mem_filter.mpr ⟨hrest, by simpa using hne⟩)

end Pass

end Tang.EventLoop
