import Mathlib.Data.List.Induction
import Mathlib.Order.Lattice
import Tang.Foundation.History
import Tang.EventLoop.Timers

/-! # A pass whose callbacks leave the timers alone

The loop of `handle_timers` moves an iterator and erases as it goes. Over any
table it does what two filters and a minimum do: the due timers are fired in
table order and removed, the others stay as they are, and the remaining time it
returns is the least one. An exception of a callback leaves its own timer and
everything behind it in the table.
-/

namespace Tang.EventLoop.Sweep

open Foundation Timers

/-! ## What a pass is for -/

section Spec

variable (now : TimePoint)

def due (timer : Timer) : Bool := decide (timer.expire ≤ now)

/-- The timers that stay. -/
def left (timers : List Timer) : List Timer := timers.filter fun timer => !due now timer

/-- The calls of the callbacks, in order. -/
def firings (timers : List Timer) : List Firing :=
  (timers.filter (due now)).map fun timer => ⟨timer.handle, now⟩

/-- The least remaining time, `milliseconds::max()` without a timer. -/
def soonest (timers : List Timer) : Int :=
  timers.foldl (fun least timer => min least (timeoutUntil now timer.expire)) maxTimeout

variable {now} {timer : Timer} {timers : List Timer}

theorem soonest_append : soonest now (timers ++ [timer]) =
    min (soonest now timers) (timeoutUntil now timer.expire) := by
  simp [soonest]

theorem left_append_of_due (hdue : due now timer = true) :
    left now (timers ++ [timer]) = left now timers := by
  simp [left, hdue]

theorem left_append_of_late (hlate : due now timer = false) :
    left now (timers ++ [timer]) = left now timers ++ [timer] := by
  simp [left, hlate]

theorem firings_append_of_due (hdue : due now timer = true) :
    firings now (timers ++ [timer]) = firings now timers ++ [⟨timer.handle, now⟩] := by
  simp [firings, hdue]

theorem firings_append_of_late (hlate : due now timer = false) :
    firings now (timers ++ [timer]) = firings now timers := by
  simp [firings, hlate]

end Spec

/-! ## The loop -/

/-- The calls of callbacks so far. -/
def record (fired : List Firing) (_ : State) (action : Action) (next : State) : List Firing :=
  match action with
  | .examine => fired ++ next.firing?.toList
  | .code _ | .start _ | .returns | .throws | .finish => fired

/-- The timer machine with the record. -/
abbrev recorded : Machine (State × List Firing) Action := Timers.machine.recording [] record

/-- A step of the pass itself, not of code in a callback. -/
def quiet : Action → Bool
  | .examine | .returns | .throws | .finish => true
  | .code _ | .start _ => false

/-- Where the pass stands, what it has computed and whom it has called, when it
has the timers `visited` behind it. -/
inductive Stage (now : TimePoint) (rehashes : Nat) (visited : List Timer) :
    List Timer → Option Pass → List Firing → Prop
  | looking (rest : List Timer) :
      Stage now rehashes visited rest
        (some ⟨now, soonest now (left now visited), frontKey Timer.node rest, rehashes, false⟩)
        (firings now visited)
  | calling (timer : Timer) (rest : List Timer) (hdue : due now timer = true) :
      Stage now rehashes visited (timer :: rest)
        (some ⟨now, soonest now (left now visited), some timer.node, rehashes, true⟩)
        (firings now visited ++ [⟨timer.handle, now⟩])
  | finished : Stage now rehashes visited [] none (firings now visited)
  | thrown (timer : Timer) (rest : List Timer) (hdue : due now timer = true) :
      Stage now rehashes visited (timer :: rest) none
        (firings now visited ++ [⟨timer.handle, now⟩])

/-- The pass has gone through a first part of the table: what was not due there
is left, and the rest is as it was. -/
structure Swept (table : Table) (now : TimePoint) (visited rest : List Timer)
    (watched : State × List Firing) : Prop where
  split : table.timers = visited ++ rest
  kept : watched.1.table = { table with timers := left now visited ++ rest }
  defined : watched.1.undefined = false
  stage : Stage now table.rehashes visited rest watched.1.pass watched.2

/-- The steps a pass takes at most, with the timers `rest` before it. -/
def remaining (rest : List Timer) : Option Pass → Nat
  | none => 0
  | some pass => 2 * rest.length + if pass.calling then 0 else 1

/-- At every moment the pass has swept a part of the table. -/
def Sweeps (table : Table) (now : TimePoint) (watched : State × List Firing) : Prop :=
  ∃ visited rest, Swept table now visited rest watched

section Steps

variable {table : Table} {now : TimePoint} {visited rest : List Timer} {state next : State}
  {fired : List Firing} {pass : Pass} {timer : Timer} {action : Action}

namespace Swept

theorem nodup (hswept : Swept table now visited rest (state, fired)) (hwf : table.WellFormed) :
    (state.table.timers.map Timer.node).Nodup := by
  have hsublist : (left now visited ++ rest).Sublist table.timers := by
    rw [hswept.split]
    exact List.filter_sublist.append (List.Sublist.refl rest)
  rw [hswept.kept]
  exact (hsublist.map Timer.node).nodup hwf.nodup

/-- The iterator stands at the first timer of the rest. -/
theorem current (hswept : Swept table now visited (timer :: rest) (state, fired))
    (hwf : table.WellFormed) (hit : pass.it = some timer.node)
    (hrehashes : pass.rehashes = table.rehashes) :
    onward Timer.node (some timer.node) state.table.timers = timer :: rest ∧
      pass.current state.table = some timer := by
  have hnodup : (state.table.timers.map Timer.node).Nodup := hswept.nodup hwf
  have htimers : state.table.timers = left now visited ++ timer :: rest := by rw [hswept.kept]
  have hcut := cut_eq htimers hnodup (frontKey_cons Timer.node timer rest)
  refine ⟨hcut.2, Pass.current_of_onward ?_ hit hcut.2⟩
  rw [hrehashes, hswept.kept]

/-- The timer at the iterator is the first one of the rest. -/
theorem eq_of_current {head : Timer}
    (hswept : Swept table now visited (head :: rest) (state, fired))
    (hwf : table.WellFormed) (hit : pass.it = some head.node)
    (hrehashes : pass.rehashes = table.rehashes)
    (hcurrent : pass.current state.table = some timer) : timer = head :=
  Option.some.inj (hcurrent.symm.trans (hswept.current hwf hit hrehashes).2)

theorem after (hswept : Swept table now visited (timer :: rest) (state, fired))
    (hwf : table.WellFormed) : state.table.after timer.node = frontKey Timer.node rest := by
  have hnodup : (state.table.timers.map Timer.node).Nodup := hswept.nodup hwf
  have htimers : state.table.timers = left now visited ++ timer :: rest := by rw [hswept.kept]
  rw [Table.after, (cut_eq htimers hnodup (frontKey_cons Timer.node timer rest)).2]
  rfl

theorem erase (hswept : Swept table now visited (timer :: rest) (state, fired))
    (hwf : table.WellFormed) :
    state.table.erase timer.node = { table with timers := left now visited ++ rest } := by
  have hnodup : (state.table.timers.map Timer.node).Nodup := hswept.nodup hwf
  have htimers : state.table.timers = left now visited ++ timer :: rest := by rw [hswept.kept]
  obtain ⟨hbefore, honward⟩ := cut_eq htimers hnodup (frontKey_cons Timer.node timer rest)
  obtain ⟨hfront, hback⟩ := cut_erase honward hnodup
  have herased : (state.table.timers.filter fun timer' => timer'.node != timer.node) =
      left now visited ++ rest := by
    rw [← before_append_onward (frontKey Timer.node rest)
      (state.table.timers.filter fun timer' => timer'.node != timer.node), hfront, hback, hbefore]
  rw [Table.erase, herased, hswept.kept]

end Swept

/-- The pass goes on behind the timer at its iterator. -/
theorem Swept.advance (hswept : Swept table now visited (timer :: rest) (state, fired))
    (hkept : next.table = { table with timers := left now (visited ++ [timer]) ++ rest })
    (hdefined : next.undefined = false)
    (hstage : Stage now table.rehashes (visited ++ [timer]) rest next.pass fired) :
    Swept table now (visited ++ [timer]) rest (next, fired) :=
  ⟨by rw [hswept.split, List.append_assoc, List.singleton_append], hkept, hdefined, hstage⟩

/-- The pass looks at a timer that is not due. -/
theorem Swept.waits (hswept : Swept table now visited (timer :: rest) (state, firings now visited))
    (hwf : table.WellFormed)
    (hpass : pass =
      ⟨now, soonest now (left now visited), some timer.node, table.rehashes, false⟩)
    (hlate : pass.now < timer.expire)
    (hnext : next = { state with pass := some (pass.examine state.table timer) }) :
    Swept table now (visited ++ [timer]) rest
        (next, record (firings now visited) state .examine next) ∧
      remaining rest next.pass < remaining (timer :: rest) (some pass) := by
  subst hpass hnext
  have hnotDue : due now timer = false := by simpa [due] using hlate
  have hleft : left now (visited ++ [timer]) = left now visited ++ [timer] :=
    left_append_of_late hnotDue
  have hleast : (if timeoutUntil now timer.expire < soonest now (left now visited) then
      timeoutUntil now timer.expire else soonest now (left now visited)) =
        soonest now (left now (visited ++ [timer])) := by
    rw [hleft, soonest_append]
    split <;> omega
  have hexamine : Pass.examine
      ⟨now, soonest now (left now visited), some timer.node, table.rehashes, false⟩
        state.table timer =
      ⟨now, soonest now (left now (visited ++ [timer])), frontKey Timer.node rest,
        table.rehashes, false⟩ := by
    simp only [Pass.examine, if_neg (Int.not_le.mpr hlate), hleast, hswept.after hwf]
  have hstage : Stage now table.rehashes (visited ++ [timer]) rest
      (some ⟨now, soonest now (left now (visited ++ [timer])), frontKey Timer.node rest,
        table.rehashes, false⟩) (firings now (visited ++ [timer])) := .looking rest
  rw [firings_append_of_late hnotDue] at hstage
  rw [hexamine]
  simp only [record, State.firing?, Option.bind_some, Bool.false_eq_true, if_false,
    Option.toList_none, List.append_nil]
  refine ⟨hswept.advance ?_ hswept.defined hstage, by simp [remaining]⟩
  rw [hleft, List.append_assoc, List.singleton_append]
  exact hswept.kept

/-- The callback of a due timer is called. -/
theorem Swept.fires (hswept : Swept table now visited (timer :: rest) (state, firings now visited))
    (hwf : table.WellFormed)
    (hpass : pass =
      ⟨now, soonest now (left now visited), some timer.node, table.rehashes, false⟩)
    (hdue : timer.expire ≤ pass.now)
    (hnext : next = { state with pass := some { pass with calling := true } }) :
    Swept table now visited (timer :: rest)
        (next, record (firings now visited) state .examine next) ∧
      remaining (timer :: rest) next.pass < remaining (timer :: rest) (some pass) := by
  subst hpass hnext
  let called : Pass := ⟨now, soonest now (left now visited), some timer.node, table.rehashes, true⟩
  have hcurrent : called.current state.table = some timer := (hswept.current hwf rfl rfl).2
  have hfiring : State.firing? { state with pass := some called } = some ⟨timer.handle, now⟩ := by
    simp [State.firing?, hcurrent, called]
  simp only [called] at hfiring
  simp only [record, hfiring, Option.toList_some]
  exact ⟨⟨hswept.split, hswept.kept, hswept.defined,
    .calling timer rest (by simpa [due] using hdue)⟩, by simp [remaining]⟩

/-- The timer that was fired is erased. -/
theorem Swept.erases (hswept : Swept table now visited (timer :: rest)
      (state, firings now visited ++ [⟨timer.handle, now⟩]))
    (hwf : table.WellFormed) (hdue : due now timer = true)
    (hpass : pass =
      ⟨now, soonest now (left now visited), some timer.node, table.rehashes, true⟩)
    (hnext : next = { state with
      table := state.table.erase timer.node, pass := some (pass.proceed state.table timer) }) :
    Swept table now (visited ++ [timer]) rest
        (next, firings now visited ++ [⟨timer.handle, now⟩]) ∧
      remaining rest next.pass < remaining (timer :: rest) (some pass) := by
  subst hpass hnext
  have hstage : Stage now table.rehashes (visited ++ [timer]) rest
      (some ⟨now, soonest now (left now (visited ++ [timer])), frontKey Timer.node rest,
        table.rehashes, false⟩) (firings now (visited ++ [timer])) := .looking rest
  rw [firings_append_of_due hdue, left_append_of_due hdue] at hstage
  refine ⟨hswept.advance ?_ hswept.defined ?_, by simp [remaining, Pass.proceed]; omega⟩
  · rw [left_append_of_due hdue]
    exact hswept.erase hwf
  · simpa only [Pass.proceed, hswept.after hwf] using hstage

/-- The iterator of a pass is valid. -/
theorem Swept.not_strays (hswept : Swept table now visited rest (state, fired))
    (hwf : table.WellFormed) (hpass : state.pass = some pass) (hit : pass.it ≠ none) :
    ∃ timer, pass.current state.table = some timer := by
  have hstage : Stage now table.rehashes visited rest state.pass fired := hswept.stage
  rw [hpass] at hstage
  cases hstage with
  | looking =>
      cases rest with
      | nil => exact absurd rfl hit
      | cons head later => exact ⟨head, (hswept.current hwf rfl rfl).2⟩
  | calling head later => exact ⟨head, (hswept.current hwf rfl rfl).2⟩

/-- Every step of a pass sweeps on, and is one of a bounded number. -/
theorem Swept.step (hswept : Swept table now visited rest (state, fired))
    (hwf : table.WellFormed) (hquiet : quiet action = true) (hmoves : Moves state action next) :
    ∃ visited' rest', Swept table now visited' rest' (next, record fired state action next) ∧
      remaining rest' next.pass < remaining rest state.pass := by
  have hstage : Stage now table.rehashes visited rest state.pass fired := hswept.stage
  cases hmoves with
  | add | cancel | start => cases hquiet
  | waits pass timer hpass hcalling hcurrent hlate =>
      rw [hpass] at hstage
      cases hstage with
      | calling => cases hcalling
      | looking =>
          cases rest with
          | nil => cases (Pass.onward_of_current hcurrent).2.1
          | cons head later =>
              obtain rfl := hswept.eq_of_current hwf rfl rfl hcurrent
              exact ⟨_, _, hpass ▸ hswept.waits hwf rfl hlate rfl⟩
  | fires pass timer hpass hcalling hcurrent hdue =>
      rw [hpass] at hstage
      cases hstage with
      | calling => cases hcalling
      | looking =>
          cases rest with
          | nil => cases (Pass.onward_of_current hcurrent).2.1
          | cons head later =>
              obtain rfl := hswept.eq_of_current hwf rfl rfl hcurrent
              exact ⟨_, _, hpass ▸ hswept.fires hwf rfl hdue rfl⟩
  | erases pass timer hpass hcalling hcurrent =>
      rw [hpass] at hstage
      cases hstage with
      | looking => cases hcalling
      | calling head later hdue =>
          obtain rfl := hswept.eq_of_current hwf rfl rfl hcurrent
          exact ⟨_, _, hpass ▸ hswept.erases hwf hdue rfl rfl⟩
  | strays pass _ hpass haction hcurrent =>
      have hit : pass.it ≠ none := by
        rcases haction with ⟨_, hit, _⟩ | ⟨_, hcalling⟩
        · exact hit
        · rw [hpass] at hstage
          cases hstage with
          | looking => cases hcalling
          | calling => nofun
      obtain ⟨timer, hvalid⟩ := hswept.not_strays hwf hpass hit
      cases hvalid.symm.trans hcurrent
  | throws pass hpass hcalling =>
      rw [hpass] at hstage
      cases hstage with
      | looking => cases hcalling
      | calling timer later hdue =>
          exact ⟨visited, timer :: later, ⟨hswept.split, hswept.kept, hswept.defined,
            .thrown timer later hdue⟩, by simp [remaining, hpass]⟩
  | finish pass hpass hit =>
      rw [hpass] at hstage
      cases hstage with
      | calling => cases hit
      | looking =>
          obtain rfl : rest = [] := by simpa [frontKey] using hit
          exact ⟨visited, [], ⟨hswept.split, hswept.kept, hswept.defined, .finished⟩,
            by simp [remaining, hpass]⟩

end Steps

/-- The state in which a pass over the table begins. -/
def begun (table : Table) (now : TimePoint) : State × List Firing :=
  (⟨table, some (.begin table now), false⟩, [])

/-- A quiet step leads from a sweep to a sweep with less before it. -/
theorem Swept.advances {table : Table} {now : TimePoint} {watched after : State × List Firing}
    {action : Action} (hwf : table.WellFormed) {visited rest : List Timer}
    (hswept : Swept table now visited rest watched) (hquiet : quiet action = true)
    (hstep : recorded.step watched action = some after) :
    ∃ visited' rest', Swept table now visited' rest' after ∧
      remaining rest' after.1.pass < remaining rest watched.1.pass := by
  obtain ⟨state, fired⟩ := watched
  obtain ⟨next, later⟩ := after
  obtain ⟨hmachine, hrecord⟩ := Machine.recording_step hstep
  dsimp only at hrecord
  subst hrecord
  exact hswept.step hwf hquiet (moves_of_step hmachine)

/-- The steps of a pass are paid for by what is before it. -/
theorem length_le_remaining {table : Table} {now : TimePoint} (hwf : table.WellFormed)
    {watched final : State × List Firing} {visited rest : List Timer}
    (hswept : Swept table now visited rest watched) {actions : List Action}
    (hquiet : ∀ action ∈ actions, quiet action = true)
    (hfinal : recorded.exec watched actions = some final) :
    actions.length ≤ remaining rest watched.1.pass := by
  induction actions generalizing watched visited rest with
  | nil => exact Nat.zero_le _
  | cons action others ih =>
      obtain ⟨next, hnext, hothers⟩ := Option.bind_eq_some_iff.mp hfinal
      obtain ⟨visited', rest', hswept', hless⟩ :=
        Swept.advances hwf hswept (hquiet action List.mem_cons_self) hnext
      have hlength := ih hswept' (fun other hother => hquiet other (List.mem_cons_of_mem _ hother))
        hothers
      rw [List.length_cons]
      omega

/-- A pass over any table, whose callbacks leave the timers alone and may throw,
has at every moment swept a first part of the table: the due timers of this part
were fired, once and in table order, and removed, the others stay, the time
computed so far is the least remaining one among them, and the rest of the table
is as it was. It never uses an invalid iterator, and is over after two steps for
each timer and one more. -/
theorem sweeps_along (table : Table) (hwf : table.WellFormed) (now : TimePoint)
    (actions : List Action) (hquiet : ∀ action ∈ actions, quiet action = true) :
    recorded.Along (Sweeps table now) (begun table now) actions ∧
      ((recorded.exec (begun table now) actions).isSome →
        actions.length ≤ 2 * table.timers.length + 1) := by
  have hbegun : Swept table now [] table.timers (begun table now) :=
    ⟨rfl, rfl, rfl, .looking table.timers⟩
  constructor
  · have hmeets : recorded.Meets (fun _ action => quiet action = true) (begun table now) actions :=
      Machine.meets_of_forall (fun action haction _ => hquiet action haction) _
    refine Machine.along_of_meets (Sweeps table now) ?_ (fun _ hsweeps => hsweeps)
      ⟨[], table.timers, hbegun⟩ hmeets
    rintro watched action after ⟨visited, rest, hswept⟩ hcondition hstep
    obtain ⟨visited', rest', hswept', _⟩ := Swept.advances hwf hswept hcondition hstep
    exact ⟨visited', rest', hswept'⟩
  · intro hexecutable
    obtain ⟨final, hfinal⟩ := Option.isSome_iff_exists.mp hexecutable
    exact length_le_remaining hwf hbegun hquiet hfinal

/-- Two timers, of which the first is due. -/
def two : Table := ⟨[⟨1, 5, 0⟩, ⟨2, 9000000, 1⟩], 3, 2, 0⟩

/-- The first callback returns, and the pass computes what remains of the other
timer. -/
theorem sweeps_along_two :
    recorded.Along (Sweeps two 7) (begun two 7) [.examine, .returns, .examine, .finish] ∧
      ((recorded.exec (begun two 7) [.examine, .returns, .examine, .finish]).isSome →
        4 ≤ 2 * 2 + 1) :=
  sweeps_along two ⟨by decide, by decide⟩ 7 [.examine, .returns, .examine, .finish] (by decide)

end Tang.EventLoop.Sweep
