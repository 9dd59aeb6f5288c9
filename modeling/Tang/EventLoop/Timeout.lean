import Tang.Foundation.History
import Tang.EventLoop.Timers

/-! # The timeout of a pass

The minimum is taken over the timers the iteration meets before they are due.
A timer that a callback writes behind the iterator is not met, so the timeout is
right exactly when such timers are not the first to expire.
-/

namespace Tang.EventLoop.Timeout

open Foundation Timers

/-- About the latest pass: the timers the iteration found waiting, and those a
callback wrote where the iteration had already been. -/
structure History where
  passed : List Timer
  behind : List Timer
  deriving DecidableEq

/-- The element with a handle, if it stands before the iterator. -/
def writtenBehind (state : State) (handle : TimerHandle) : List Timer :=
  match state.pass with
  | some pass =>
      (before Timer.node pass.it state.table.timers).filter fun timer => timer.handle = handle
  | none => []

/-- The timer that the iteration is about to pass. -/
def waiting (state : State) : List Timer :=
  match state.pass with
  | some pass =>
      (pass.current state.table).toList.filter fun timer => pass.now < timer.expire
  | none => []

def record (history : History) (state : State) (action : Action) (next : State) : History :=
  match action with
  | .code (.add _ _ _) =>
      { history with behind := history.behind ++ writtenBehind next state.table.nextId }
  | .start _ => ⟨[], []⟩
  | .examine => { history with passed := history.passed ++ waiting state }
  | .code (.cancel _) | .returns | .throws | .finish => history

/-- The timer machine with the record. -/
def recorded : Machine (State × History) Action :=
  Timers.machine.recording ⟨[], []⟩ record

/-- What the loop needs of the timeout of a pass: no timer that is left expires
before it has elapsed, and it is `milliseconds::max()` only if none is left. -/
structure WakesInTime (table : Table) (pass : Pass) : Prop where
  bound : ∀ timer ∈ table.timers, pass.nextTimeout * 1000000 ≤ timer.expire - pass.now
  forever : pass.nextTimeout = maxTimeout → table.timers = []

/-- The minimum accumulated so far. -/
structure Least (pass : Pass) (passed : List Timer) : Prop where
  late : ∀ timer ∈ passed, pass.now < timer.expire
  le : ∀ timer ∈ passed, pass.nextTimeout ≤ timeoutUntil pass.now timer.expire
  attained : (pass.nextTimeout = maxTimeout ∧ passed = []) ∨
    ∃ timer ∈ passed, pass.nextTimeout = timeoutUntil pass.now timer.expire

/-- The iteration has met every timer before the iterator, apart from those
written there. A node that was allocated, and a rehash that was counted, stay
so: an invalid iterator does not become valid again. -/
structure PassInv (table : Table) (history : History) (pass : Pass) : Prop where
  least : Least pass history.passed
  rehashes : pass.rehashes ≤ table.rehashes
  allocated : ∀ node, pass.it = some node → node < table.allocated
  met : (pass.it = none ∨ ∃ timer, pass.current table = some timer) →
    ∀ timer ∈ before Timer.node pass.it table.timers,
      timer ∈ history.passed ∨ timer ∈ history.behind

structure Inv (watched : State × History) : Prop where
  wellFormed : watched.1.table.WellFormed
  calling : ∀ pass, watched.1.pass = some pass → pass.calling → pass.it ≠ none
  pass : ∀ pass, watched.1.pass = some pass → PassInv watched.1.table watched.2 pass

variable {state next : State} {history : History} {table : Table} {pass : Pass} {timer : Timer}
  {passed : List Timer} {handle : TimerHandle} {action : Action}

namespace Least

theorem begin (table : Table) (now : TimePoint) : Least (.begin table now) [] :=
  ⟨by simp, by simp, Or.inl ⟨rfl, rfl⟩⟩

/-- One more timer is passed. -/
theorem examine (hleast : Least pass passed) (table : Table) (hlate : pass.now < timer.expire) :
    Least (pass.examine table timer) (passed ++ [timer]) := by
  have hlt := timeoutUntil_lt pass.now timer.expire
  unfold Pass.examine
  rw [if_neg (Int.not_le.mpr hlate)]
  constructor
  · intro other hother
    rcases List.mem_append.mp hother with hold | hnew
    · exact hleast.late other hold
    · exact List.mem_singleton.mp hnew ▸ hlate
  · intro other hother
    dsimp only
    rcases List.mem_append.mp hother with hold | hnew
    · have hle := hleast.le other hold
      split <;> omega
    · rw [List.mem_singleton.mp hnew]
      split <;> omega
  · dsimp only
    split
    next hsmaller => exact Or.inr ⟨timer, by simp, rfl⟩
    next hsmaller =>
      rcases hleast.attained with ⟨hmax, _⟩ | ⟨other, hother, heq⟩
      · omega
      · exact Or.inr ⟨other, List.mem_append_left _ hother, heq⟩

end Least

namespace PassInv

/-- At the end of the iteration the table is what was met and what was written
behind. -/
theorem inTime_iff (hinv : PassInv table history pass) (hit : pass.it = none) :
    WakesInTime table pass ↔
      ∀ timer ∈ table.timers, timer ∈ history.behind →
        ∃ other ∈ history.passed,
          timeoutUntil pass.now other.expire * 1000000 ≤ timer.expire - pass.now := by
  have hmet := hinv.met (Or.inl hit)
  rw [hit] at hmet
  constructor
  · intro hwakes timer htimer _
    rcases hinv.least.attained with ⟨hmax, _⟩ | ⟨other, hother, heq⟩
    · rw [hwakes.forever hmax] at htimer
      exact absurd htimer List.not_mem_nil
    · exact ⟨other, hother, heq ▸ hwakes.bound timer htimer⟩
  · intro hbehind
    have hpassed : ∀ timer ∈ table.timers, ∃ other ∈ history.passed,
        timeoutUntil pass.now other.expire * 1000000 ≤ timer.expire - pass.now := by
      intro timer htimer
      rcases hmet timer htimer with hpassed | hwritten
      · exact ⟨timer, hpassed, timeoutUntil_mul_le (hinv.least.late timer hpassed)⟩
      · exact hbehind timer htimer hwritten
    constructor
    · intro timer htimer
      obtain ⟨other, hother, hle⟩ := hpassed timer htimer
      have hleast := hinv.least.le other hother
      omega
    · intro hmax
      refine List.eq_nil_iff_forall_not_mem.mpr fun timer htimer => ?_
      obtain ⟨other, hother, _⟩ := hpassed timer htimer
      have hlt := timeoutUntil_lt pass.now other.expire
      have hleast := hinv.least.le other hother
      omega

/-- What was met stays met when an element is overwritten. -/
theorem overwrite (hinv : PassInv table history pass) (hit : pass.it ≠ none)
    (expire : TimePoint) {written : List Timer}
    (hwritten : ∀ timer ∈ before Timer.node pass.it (table.overwrite handle expire).timers,
      timer.handle = handle → timer ∈ written) :
    PassInv (table.overwrite handle expire)
      { history with behind := history.behind ++ written } pass := by
  refine ⟨hinv.least, hinv.rehashes, hinv.allocated, fun hvalid timer htimer => ?_⟩
  obtain ⟨after, hafter⟩ := hvalid.resolve_left hit
  obtain ⟨hrehashes, hnode, _⟩ := Pass.onward_of_current hafter
  have hmem : after.node ∈ table.nodes := by
    rw [← Table.overwrite_nodes]
    exact List.mem_map_of_mem (Pass.mem_of_current hafter)
  have hmet := hinv.met (Or.inr (Pass.current_of_mem hrehashes hnode hmem))
  by_cases hsame : timer.handle = handle
  · exact Or.inr (List.mem_append_right _ (hwritten timer htimer hsame))
  · have hcut := (cut_map (Timer.assign_node handle expire) pass.it table.timers).1
    obtain ⟨old, hold, rfl⟩ := List.mem_map.mp (hcut ▸ htimer)
    have hother : old.handle ≠ handle := by simpa using hsame
    rw [Timer.assign, if_neg hother]
    exact (hmet old hold).imp_right (List.mem_append_left _)

/-- What was met stays met when an element is inserted. -/
theorem insert (hinv : PassInv table history pass) (hit : pass.it ≠ none) {table' : Table}
    {expire : TimePoint} {placement : Placement} (hwf : table'.WellFormed)
    (hinsert : table.insert handle expire placement = some table') {written : List Timer}
    (hwritten : ∀ timer ∈ before Timer.node pass.it table'.timers,
      timer.handle = handle → timer ∈ written) :
    PassInv table' { history with behind := history.behind ++ written } pass := by
  obtain ⟨hperm, _, hallocated⟩ := Table.insert_perm hinsert
  refine ⟨hinv.least, ?_, fun node hnode => ?_, fun hvalid timer htimer => ?_⟩
  · exact Nat.le_trans hinv.rehashes (Table.rehashes_le_insert hinsert)
  · exact hallocated ▸ Nat.lt_succ_of_lt (hinv.allocated node hnode)
  obtain ⟨after, hafter⟩ := hvalid.resolve_left hit
  obtain ⟨hrehashes, hnode, _⟩ := Pass.onward_of_current hafter
  cases placement with
  | rehash order =>
      have hmore := Table.rehashes_insert_rehash hinsert
      have hle := hinv.rehashes
      omega
  | insert index =>
      cases hinsert
      have hmem : after.node ∈ table.nodes := by
        rcases List.mem_cons.mp (hperm.mem_iff.mp (Pass.mem_of_current hafter)) with rfl | hold
        · exact absurd (hinv.allocated _ hnode) (Nat.lt_irrefl _)
        · exact List.mem_map_of_mem hold
      obtain ⟨head, hhead⟩ : ∃ head, pass.current table = some head :=
        Pass.current_of_mem hrehashes hnode hmem
      obtain ⟨_, hheadNode, rest, honward⟩ := Pass.onward_of_current hhead
      have hmet := hinv.met (Or.inr ⟨head, hhead⟩)
      rw [hheadNode] at honward hmet htimer hwritten
      by_cases hsame : timer.handle = handle
      · exact Or.inr (List.mem_append_right _ (hwritten timer htimer hsame))
      rcases cut_insertAt index honward hwf.nodup with ⟨_, hbefore, _⟩ | ⟨_, hbefore, _⟩
      · rw [hbefore] at htimer
        rcases List.mem_cons.mp ((insertAt_perm _ _ _).mem_iff.mp htimer) with rfl | hold
        · exact absurd rfl hsame
        · exact (hmet timer hold).imp_right (List.mem_append_left _)
      · exact (hmet timer (hbefore ▸ htimer)).imp_right (List.mem_append_left _)

/-- A cancellation the iterator survives removes elements on either side. -/
theorem cancelTimer (hinv : PassInv table history pass) (hit : pass.it ≠ none)
    (hwf : table.WellFormed) : PassInv (table.cancelTimer handle).1 history pass := by
  refine ⟨hinv.least, hinv.rehashes, hinv.allocated, fun hvalid timer htimer => ?_⟩
  obtain ⟨after, hafter⟩ := hvalid.resolve_left hit
  obtain ⟨hrehashes, hnode, _⟩ := Pass.onward_of_current hafter
  obtain ⟨hmem, hkept⟩ := Table.mem_cancelTimer.mp (Pass.mem_of_current hafter)
  obtain ⟨head, hhead⟩ : ∃ head, pass.current table = some head :=
    Pass.current_of_mem hrehashes hnode (List.mem_map_of_mem hmem)
  obtain ⟨_, hheadNode, rest, honward⟩ := Pass.onward_of_current hhead
  have hmet := hinv.met (Or.inr ⟨head, hhead⟩)
  have hsame : head.node = after.node := Option.some.inj (hheadNode.symm.trans hnode)
  obtain rfl := List.inj_on_of_nodup_map hwf.nodup (Pass.mem_of_current hhead) hmem hsame
  rw [hheadNode] at honward hmet htimer
  have hkeep : (head.handle != handle) = true := by simpa using hkept
  have hbefore : before Timer.node (some head.node) (table.cancelTimer handle).1.timers =
      (before Timer.node (some head.node) table.timers).filter
        fun timer => timer.handle != handle := (cut_filter honward hwf.nodup hkeep).1
  rw [hbefore] at htimer
  exact hmet timer (List.mem_filter.mp htimer).1

theorem begin (hwf : table.WellFormed) (now : TimePoint) :
    PassInv table ⟨[], []⟩ (.begin table now) := by
  have hbefore : before Timer.node table.begin table.timers = [] :=
    (cut_eq (List.nil_append _).symm hwf.nodup rfl).1
  refine ⟨.begin table now, Nat.le_refl _, fun node hnode => ?_, fun _ timer htimer => ?_⟩
  · obtain ⟨first, hfirst, rfl⟩ := Option.map_eq_some_iff.mp hnode
    exact hwf.allocated first (List.mem_of_head? hfirst)
  · change timer ∈ before Timer.node table.begin table.timers at htimer
    rw [hbefore] at htimer
    exact absurd htimer List.not_mem_nil

/-- The iteration passes a timer that is not due. -/
theorem waits (hinv : PassInv table history pass) (hwf : table.WellFormed)
    (hcurrent : pass.current table = some timer) (hlate : pass.now < timer.expire) :
    PassInv table { history with passed := history.passed ++ [timer] }
      (pass.examine table timer) := by
  have hmet := hinv.met (Or.inr ⟨timer, hcurrent⟩)
  obtain ⟨hrehashes, hit, rest, honward⟩ := Pass.onward_of_current hcurrent
  rw [hit] at honward hmet
  have hbefore := (cut_next honward hwf.nodup).1
  have hafter : table.after timer.node = frontKey Timer.node rest := by
    simp [Table.after, honward]
  have hleast := hinv.least.examine table hlate
  simp only [Pass.examine, if_neg (Int.not_le.mpr hlate), hafter] at hleast ⊢
  refine ⟨hleast, hinv.rehashes, fun node hnode => ?_, fun _ other hother => ?_⟩
  · obtain ⟨first, hfirst, rfl⟩ := Option.map_eq_some_iff.mp hnode
    refine hwf.allocated first (onward_subset (honward ▸ List.mem_cons_of_mem _ ?_))
    exact List.mem_of_head? hfirst
  · rw [hbefore] at hother
    rcases List.mem_append.mp hother with hold | hnew
    · exact (hmet other hold).imp_left (List.mem_append_left _)
    · exact Or.inl (List.mem_append_right _ hnew)

/-- The timer that fired leaves the table. -/
theorem erases (hinv : PassInv table history pass) (hwf : table.WellFormed)
    (hcurrent : pass.current table = some timer) :
    PassInv (table.erase timer.node) history (pass.proceed table timer) := by
  have hmet := hinv.met (Or.inr ⟨timer, hcurrent⟩)
  obtain ⟨hrehashes, hit, rest, honward⟩ := Pass.onward_of_current hcurrent
  rw [hit] at honward hmet
  have hbefore := (cut_erase honward hwf.nodup).1
  have hafter : table.after timer.node = frontKey Timer.node rest := by
    simp [Table.after, honward]
  simp only [Pass.proceed, hafter]
  refine ⟨⟨hinv.least.late, hinv.least.le, hinv.least.attained⟩, hinv.rehashes,
    fun node hnode => ?_, fun _ other hother => ?_⟩
  · obtain ⟨first, hfirst, rfl⟩ := Option.map_eq_some_iff.mp hnode
    refine hwf.allocated first (onward_subset (honward ▸ List.mem_cons_of_mem _ ?_))
    exact List.mem_of_head? hfirst
  · exact hmet other (hbefore ▸ hother)

end PassInv

namespace Inv

theorem start_inv : Inv (⟨.new, none, false⟩, ⟨[], []⟩) :=
  ⟨Table.new_wellFormed, by simp, by simp⟩

/-- The iterator of a pass in whose callback code runs. -/
theorem it_ne_none (hinv : Inv (state, history)) (hcode : state.codeRuns)
    (hpass : state.pass = some pass) : pass.it ≠ none := by
  have hcalling : pass.calling := by simpa [State.codeRuns, hpass] using hcode
  exact hinv.calling pass hpass hcalling

theorem add (hinv : Inv (state, history)) {now : TimePoint} {delay : Int} {placement : Placement}
    (hcode : state.codeRuns)
    (hadd : state.table.addTimer now delay placement = some (table, state.table.nextId)) :
    Inv ({ state with table := table },
      { history with behind :=
          history.behind ++ writtenBehind { state with table := table } state.table.nextId }) := by
  have hwf := hinv.wellFormed.addTimer hadd
  refine ⟨hwf, hinv.calling, fun pass hpass => ?_⟩
  have hpassState : state.pass = some pass := hpass
  have hit := hinv.it_ne_none hcode hpassState
  have hpassInv := hinv.pass pass hpass
  have hwritten : ∀ timer ∈ before Timer.node pass.it table.timers,
      timer.handle = state.table.nextId →
        timer ∈ writtenBehind { state with table := table } state.table.nextId := by
    intro timer htimer hhandle
    simp [writtenBehind, hpassState, htimer, hhandle]
  have hcounted : PassInv { state.table with nextId := (state.table.nextId + 1) % 2 ^ 64 }
      history pass :=
    ⟨hpassInv.least, hpassInv.rehashes, hpassInv.allocated, hpassInv.met⟩
  obtain ⟨_, _, ⟨_, rfl⟩ | ⟨_, hinsert⟩⟩ := Table.addTimer_cases hadd
  · exact hcounted.overwrite hit (expireTime now delay) hwritten
  · exact hcounted.insert hit hwf hinsert hwritten

end Inv

theorem inv_step {watched after : State × History} (hinv : Inv watched)
    (hstep : recorded.step watched action = some after) : Inv after := by
  obtain ⟨state, history⟩ := watched
  obtain ⟨next, later⟩ := after
  obtain ⟨hmachine, hrecord⟩ := Machine.recording_step hstep
  have hmoves := moves_of_step hmachine
  dsimp only at hmoves hrecord
  subst hrecord
  have hwf := hinv.wellFormed
  have hwfNext := hmoves.wellFormed hwf
  cases hmoves with
  | add now delay placement table hcode hadd => exact hinv.add hcode hadd
  | cancel handle hcode =>
      exact ⟨hwfNext, hinv.calling, fun pass hpass =>
        (hinv.pass pass hpass).cancelTimer (hinv.it_ne_none hcode hpass) hwf⟩
  | start now hpass =>
      refine ⟨hwfNext, ?_, ?_⟩
      · rintro _ ⟨⟩ hcalling
        cases hcalling
      · rintro _ ⟨⟩
        exact .begin hwf now
  | waits pass timer hpass hcalling hcurrent hlate =>
      have hwaiting : waiting state = [timer] := by simp [waiting, hpass, hcurrent, hlate]
      refine ⟨hwfNext, ?_, ?_⟩
      · rintro _ ⟨⟩ hcall
        simp [Pass.examine, Int.not_le.mpr hlate, hcalling] at hcall
      · rintro _ ⟨⟩
        simpa only [record, hwaiting] using (hinv.pass pass hpass).waits hwf hcurrent hlate
  | fires pass timer hpass hcalling hcurrent hdue =>
      have hwaiting : waiting state = [] := by
        simp [waiting, hpass, hcurrent, Int.not_lt.mpr hdue]
      have hpassInv := hinv.pass pass hpass
      refine ⟨hwfNext, ?_, ?_⟩
      · rintro _ ⟨⟩ _
        simp [(Pass.onward_of_current hcurrent).2.1]
      · rintro _ ⟨⟩
        simp only [record, hwaiting, List.append_nil]
        exact ⟨⟨hpassInv.least.late, hpassInv.least.le, hpassInv.least.attained⟩,
          hpassInv.rehashes, hpassInv.allocated, hpassInv.met⟩
  | erases pass timer hpass hcalling hcurrent =>
      refine ⟨hwfNext, ?_, ?_⟩
      · rintro _ ⟨⟩ hcall
        cases hcall
      · rintro _ ⟨⟩
        exact (hinv.pass pass hpass).erases hwf hcurrent
  | strays | throws | finish => exact ⟨hwfNext, by simp, by simp⟩

end Tang.EventLoop.Timeout
