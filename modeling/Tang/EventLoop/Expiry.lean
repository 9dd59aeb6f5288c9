import Tang.Foundation.History
import Tang.EventLoop.Timers

/-! # When a timer is due

The expiry of a timer is a 64-bit count of nanoseconds. A delay whose expiry the
clock cannot reach wraps around to a time that is already past, or leaves a
remaining time that is negative; every other timer waits for its delay.
-/

namespace Tang.EventLoop

theorem wrap64_of_fits {count : Int} (hlow : -2 ^ 63 ≤ count) (hhigh : count < 2 ^ 63) :
    wrap64 count = count :=
  Int.bmod_eq_of_le_mul_two (by omega) (by omega)

/-- The two operations of `now + delay` wrap around once. -/
theorem expireTime_eq (now : TimePoint) (delay : Int) :
    expireTime now delay = wrap64 (now + delay * 1000000) :=
  Int.add_bmod_bmod

/-- The difference to an expiry ahead of the reading, if it does not wrap. -/
theorem timeoutUntil_nonneg {now expire : Int} (hlate : now < expire)
    (hleft : expire - now < 2 ^ 63) : 0 ≤ timeoutUntil now expire := by
  rw [timeoutUntil, wrap64_of_fits (by omega) hleft]
  exact Int.tdiv_nonneg (by omega) (by decide)

/-- The difference to an expiry half the range ahead is negative. -/
theorem timeoutUntil_neg {now expire : Int} (hleft : expire - now = 2 ^ 63) :
    timeoutUntil now expire < 0 := by
  rw [timeoutUntil, hleft]
  decide

namespace Expiry

open Foundation Timers

/-- A call of `add_timer`: its reading of the clock, and the delay. -/
structure Added where
  now : TimePoint
  delay : Int
  deriving DecidableEq

/-- When the timer is due, as an exact count of nanoseconds. -/
def Added.due (call : Added) : Int := call.now + call.delay * 1000000

/-- The call each handle was handed out by last. -/
def record (calls : TimerHandle → Option Added) (state : State) (action : Action)
    (_ : State) : TimerHandle → Option Added :=
  match action with
  | .code (.add now delay _) => Function.update calls state.table.nextId (some ⟨now, delay⟩)
  | .code (.cancel _) | .start _ | .examine | .returns | .throws | .finish => calls

/-- The timer machine with the record. -/
abbrev recorded : Machine (State × (TimerHandle → Option Added)) Action :=
  Timers.machine.recording (fun _ => none) record

/-- Each timer in the table expires when the call that added it computed. -/
def Dated (watched : State × (TimerHandle → Option Added)) : Prop :=
  ∀ timer ∈ watched.1.table.timers, ∃ call, watched.2 timer.handle = some call ∧
    timer.expire = expireTime call.now call.delay

/-- The step of a pass leaves the timer it examines waiting, and computes a
remaining time that is not negative and not more than is left. -/
structure LeavesWaiting (state : State) (pass : Pass) (timer : Timer) (due : Int) : Prop where
  silent : ∀ next, step state .examine = some next → next.firing? = none
  nonneg : 0 ≤ timeoutUntil pass.now timer.expire
  bounded : timeoutUntil pass.now timer.expire * 1000000 ≤ due - pass.now

/-- In no run does a pass whose reading of the clock is `first` or later, and
before the timer of the call is due, fire this timer or misjudge what is left. -/
def NeverEarly (first : Int) (call : Added) : Prop :=
  ∀ watched pass timer, recorded.Reachable watched → watched.1.pass = some pass →
    pass.calling = false → pass.current watched.1.table = some timer →
      watched.2 timer.handle = some call → first ≤ pass.now → pass.now < 2 ^ 63 →
        pass.now < call.due → LeavesWaiting watched.1 pass timer call.due

variable {watched after : State × (TimerHandle → Option Added)} {state : State}
  {calls : TimerHandle → Option Added} {table : Table} {action : Action}

/-! ## The table holds what the calls computed -/

theorem Dated.of_subset (hdated : Dated (state, calls))
    (hsubset : table.timers ⊆ state.table.timers) :
    Dated ({ state with table := table }, calls) :=
  fun timer htimer => hdated timer (hsubset htimer)

theorem Dated.add (hdated : Dated (state, calls)) {now : TimePoint} {delay : Int}
    {placement : Placement}
    (hadd : state.table.addTimer now delay placement = some (table, state.table.nextId)) :
    Dated ({ state with table := table },
      Function.update calls state.table.nextId (some ⟨now, delay⟩)) := by
  have hkept : ∀ timer ∈ state.table.timers, timer.handle ≠ state.table.nextId →
      ∃ call, Function.update calls state.table.nextId (some ⟨now, delay⟩) timer.handle =
        some call ∧ timer.expire = expireTime call.now call.delay := by
    intro timer htimer hother
    rw [Function.update_of_ne hother]
    exact hdated timer htimer
  obtain ⟨_, _, ⟨_, rfl⟩ | ⟨hfresh, hinsert⟩⟩ := Table.addTimer_cases hadd
  -- `timers_[handle]` finds an entry, and overwrites it
  · intro timer htimer
    obtain ⟨old, hold, rfl⟩ := List.mem_map.mp htimer
    by_cases hsame : old.handle = state.table.nextId
    · exact ⟨⟨now, delay⟩, by simp [hsame], by simp [Timer.assign, hsame]⟩
    · rw [Timer.assign, if_neg hsame]
      exact hkept old hold hsame
  · intro timer htimer
    rcases List.mem_cons.mp ((Table.insert_perm hinsert).1.mem_iff.mp htimer) with rfl | hold
    · exact ⟨⟨now, delay⟩, by simp, rfl⟩
    · exact hkept timer hold fun hsame => hfresh (List.mem_map.mpr ⟨timer, hold, hsame⟩)

theorem dated_step (hdated : Dated watched) (hstep : recorded.step watched action = some after) :
    Dated after := by
  obtain ⟨state, calls⟩ := watched
  obtain ⟨next, later⟩ := after
  obtain ⟨hmachine, hrecord⟩ := Machine.recording_step hstep
  have hmoves := moves_of_step hmachine
  dsimp only at hmoves hrecord
  subst hrecord
  cases hmoves with
  | add now delay placement table hcode hadd => exact hdated.add hadd
  | cancel handle _ => exact hdated.of_subset (List.filter_subset_self _)
  | erases pass timer _ _ _ => exact hdated.of_subset (List.filter_subset_self _)
  | strays pass action _ haction _ =>
      rcases haction with ⟨rfl, _⟩ | ⟨rfl, _⟩
      · exact hdated
      · exact hdated
  | start | waits | fires | throws | finish => exact hdated

/-! ## The delays the clock can hold -/

theorem leavesWaiting_of_late {pass : Pass} {timer : Timer} (hpass : state.pass = some pass)
    (hcalling : pass.calling = false) (hcurrent : pass.current state.table = some timer)
    (hlate : pass.now < timer.expire) (hleft : timer.expire - pass.now < 2 ^ 63) :
    LeavesWaiting state pass timer timer.expire := by
  constructor
  case silent =>
    intro next hstep
    have hmoves := moves_of_step hstep
    cases hmoves with
    | waits pass' timer' hpass' _ _ hlate' =>
        refine State.firing?_of_idle fun later hlater => ?_
        cases hpass.symm.trans hpass'
        cases hlater
        rw [Pass.examine, if_neg (Int.not_le.mpr hlate')]
        exact hcalling
    | fires pass' timer' hpass' _ hcurrent' hdue =>
        cases hpass.symm.trans hpass'
        cases hcurrent.symm.trans hcurrent'
        exact absurd hdue (Int.not_le.mpr hlate)
    | strays pass' _ hpass' _ hcurrent' =>
        cases hpass.symm.trans hpass'
        cases hcurrent.symm.trans hcurrent'
  case nonneg => exact timeoutUntil_nonneg hlate hleft
  case bounded => exact timeoutUntil_mul_le hlate

theorem neverEarly_of_fits {first : Int} {call : Added} (hfirst : -2 ^ 63 ≤ first)
    (hdue : call.due < 2 ^ 63) (hleft : call.due - first < 2 ^ 63) : NeverEarly first call := by
  intro watched pass timer hreachable hpass hcalling hcurrent hcall hlow _ hearly
  have hdated : Dated watched :=
    hreachable.invariant (fun _ htimer => absurd htimer List.not_mem_nil)
      fun _ _ _ hdated hstep => dated_step hdated hstep
  obtain ⟨origin, horigin, hexpire⟩ := hdated timer (Pass.mem_of_current hcurrent)
  cases hcall.symm.trans horigin
  -- a timer that is not due yet has an expiry which did not wrap
  have hexact : timer.expire = call.due := by
    rw [hexpire, expireTime_eq]
    exact wrap64_of_fits
      (Int.le_trans hfirst (Int.le_trans hlow (Int.le_of_lt hearly))) hdue
  rw [← hexact] at hearly hleft ⊢
  exact leavesWaiting_of_late hpass hcalling hcurrent hearly
    (Int.lt_of_le_of_lt (Int.sub_le_sub_left hlow _) hleft)

/-! ## The delays it cannot hold -/

/-- A table with one timer, and a pass that has just begun. -/
def armed (expire now : TimePoint) : State :=
  ⟨⟨[⟨1, expire, 0⟩], 2, 1, 0⟩, some ⟨now, maxTimeout, some 0, 0, false⟩, false⟩

theorem armed_reachable (call : Added) (now : TimePoint) :
    Timers.machine.Reachable (armed (expireTime call.now call.delay) now) :=
  Machine.Reachable.start.exec
    [.code (.add call.now call.delay (.insert 0)), .start now] rfl

theorem recorded_armed_reachable (call : Added) (now : TimePoint) :
    recorded.Reachable (armed (expireTime call.now call.delay) now,
      Function.update (fun _ => none) 1 (some call)) :=
  Machine.Reachable.start.exec
    [.code (.add call.now call.delay (.insert 0)), .start now] rfl

/-- The pass over one timer misjudges it when the timer is due at once, or what
is left of it negative. -/
theorem not_neverEarly {first now : Int} {call : Added} (hlow : first ≤ now)
    (hhigh : now < 2 ^ 63) (hearly : now < call.due)
    (hwrong : wrap64 call.due ≤ now ∨ timeoutUntil now (wrap64 call.due) < 0) :
    ¬ NeverEarly first call := by
  intro hnever
  have hexpire : expireTime call.now call.delay = wrap64 call.due :=
    expireTime_eq call.now call.delay
  have hwaits := hnever _ ⟨now, maxTimeout, some 0, 0, false⟩
    ⟨1, expireTime call.now call.delay, 0⟩ (recorded_armed_reachable call now) rfl rfl rfl
    (by simp) hlow hhigh hearly
  rcases hwrong with hdue | hnegative
  · have hfires := hwaits.silent _ rfl
    simp [armed, State.advance, Pass.current, Table.deref, onward, Pass.examine, hexpire, hdue,
      State.firing?] at hfires
  · have hnonneg : 0 ≤ timeoutUntil now (expireTime call.now call.delay) := hwaits.nonneg
    rw [hexpire] at hnonneg
    exact absurd hnegative (Int.not_lt.mpr hnonneg)

/-- The timer of a call never fires early exactly if the clock can hold its
expiry, and the time from the first reading up to it. -/
theorem neverEarly_iff {first : Int} (call : Added) (hlow : -2 ^ 63 ≤ first)
    (hhigh : first < 2 ^ 63) :
    NeverEarly first call ↔ call.due < 2 ^ 63 ∧ call.due - first < 2 ^ 63 := by
  constructor
  · intro hnever
    by_contra hnot
    by_cases hdue : call.due < 2 ^ 63
    · -- a reading from which the difference is the first that wraps
      have hwrap : wrap64 call.due = call.due := wrap64_of_fits (by omega) hdue
      have hnegative : timeoutUntil (call.due - 2 ^ 63) (wrap64 call.due) < 0 :=
        timeoutUntil_neg (by omega)
      exact not_neverEarly (by omega) (by omega) (by omega) (Or.inr hnegative) hnever
    · -- no expiry lies after the last reading
      have hlast : wrap64 call.due ≤ 2 ^ 63 - 1 := Int.le_sub_one_of_lt (wrap64_lt call.due)
      exact not_neverEarly (by omega) (by omega) (by omega) (Or.inl hlast) hnever
  · exact fun hfits => neverEarly_of_fits hlow hfits.1 hfits.2

/-- A timer of one second. -/
theorem neverEarly_iff_second :
    NeverEarly 0 ⟨0, 1000⟩ ↔ (⟨0, 1000⟩ : Added).due < 2 ^ 63 ∧
      (⟨0, 1000⟩ : Added).due - 0 < 2 ^ 63 :=
  neverEarly_iff ⟨0, 1000⟩ (by decide) (by decide)

/-- A timer with the longest delay expires a millisecond before it is added. -/
theorem not_neverEarly_longest :
    expireTime 1000000000 maxTimeout = 1000000000 - 1000000 ∧
      ¬ ∀ now delay : Int, 0 ≤ delay → delay ≤ maxTimeout → NeverEarly now ⟨now, delay⟩ := by
  refine ⟨by decide, fun hall => ?_⟩
  have hearly := hall 1000000000 maxTimeout (by decide) (by decide)
  exact not_neverEarly (Int.le_refl _) (by decide) (by decide) (Or.inl (by decide)) hearly

end Expiry

end Tang.EventLoop
