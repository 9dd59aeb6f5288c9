import Tang.EventLoop.Rounds
import Tang.EventLoop.Narrowing

/-! # Timers are fired

A timer in the table limits every wait of the loop, if the remaining time fits
into the `int` of `epoll_wait`. So a thread alone in the loop comes back to it,
and the first pass that finds it due calls it.
-/

namespace Tang.EventLoop.Firing

open Foundation Filter Loop Rounds

variable {Thread Source : Type}

section Timers

/-- The milliseconds an `int` holds, in nanoseconds. -/
def intSpan : Int := 2 ^ 31 * 1000000

/-- The callback of the timer is running. -/
def Calls (state : State Thread Source) (thread : Thread) (timer : Timer) : Prop :=
  ∃ pass callers, state.frames thread = .timers pass :: callers ∧ pass.calling = true ∧
    pass.current state.table = some timer

/-- The pass has the timer before it, or has counted in what remains of it. -/
structure Minds (timer : Timer) (table : Table) (pass : Pass) : Prop where
  now_nonneg : 0 ≤ pass.now
  fits : timer.expire < pass.now + intSpan
  nonneg : 0 ≤ pass.nextTimeout
  seen : timer ∈ ahead table pass ∨ pass.now < timer.expire ∧
    pass.nextTimeout ≤ timeoutUntil pass.now timer.expire

/-- The thread will come back for the timer. -/
inductive Attends (timer : Timer) (table : Table) : Phase Source → Prop
  | testing : Attends timer table .testing
  | timers (pass : Pass) (hminds : Minds timer table pass) : Attends timer table (.timers pass)
  | polling (waitTime : Int) (hlimited : 0 ≤ waitTime) : Attends timer table (.polling waitTime)
  | dispatching (batch : List (Event Source)) : Attends timer table (.dispatching batch)
  | handling (batch : List (Event Source)) : Attends timer table (.handling batch)

variable {table : Table} {pass : Pass} {timer other : Timer} {rest : List Timer}
  {state middle : State Thread Source} {phase later : Phase Source} {move : Move}
  {thread : Thread}

/-- What remains of a timer that is not due is not negative. -/
theorem timeoutUntil_nonneg {now expire : Int} (hnow : 0 ≤ now) (hlate : now < expire)
    (hexpire : expire < 2 ^ 63) : 0 ≤ timeoutUntil now expire := by
  rw [timeoutUntil, wrap64_of_fits (by omega) (by omega)]
  exact Int.tdiv_nonneg (by omega) (by decide)

theorem Minds.begin (hwf : table.WellFormed) (hmem : timer ∈ table.timers) {now : TimePoint}
    (hnow : 0 ≤ now) (hfits : timer.expire < now + intSpan) :
    Minds timer table (.begin table now) :=
  ⟨hnow, hfits, by simp [Pass.begin, maxTimeout], Or.inl (by rwa [ahead_begin hwf])⟩

/-- The pass passes a timer. -/
theorem Minds.examine (hminds : Minds timer table pass) (hsound : Sound table)
    (hcurrent : pass.current table = some other) (hlate : pass.now < other.expire)
    (hahead : ahead table pass = other :: rest) :
    Minds timer table (pass.examine table other) := by
  have hnext := (ahead_examine hsound.wellFormed hcurrent hlate hahead).2
  have hnonneg := timeoutUntil_nonneg hminds.now_nonneg hlate
    (hsound.expire_lt other (Pass.mem_of_current hcurrent))
  have hseen := hminds.seen
  rw [hahead] at hseen
  constructor
  case now_nonneg => simpa [Pass.examine, Int.not_le.mpr hlate] using hminds.now_nonneg
  case fits => simpa [Pass.examine, Int.not_le.mpr hlate] using hminds.fits
  case nonneg =>
    have hold := hminds.nonneg
    simp only [Pass.examine, if_neg (Int.not_le.mpr hlate)]
    split <;> omega
  case seen =>
    rw [hnext]
    simp only [Pass.examine, if_neg (Int.not_le.mpr hlate)]
    rcases hseen with hmem | ⟨hlater, hle⟩
    · rcases List.mem_cons.mp hmem with rfl | hrest
      · refine Or.inr ⟨hlate, ?_⟩
        split <;> omega
      · exact Or.inl hrest
    · refine Or.inr ⟨hlater, ?_⟩
      split <;> omega

/-- Another timer is erased. -/
theorem Minds.proceed (hminds : Minds timer table pass) (hwf : table.WellFormed)
    (hcurrent : pass.current table = some other) (hahead : ahead table pass = other :: rest)
    (hother : other ≠ timer) :
    Minds timer (table.erase other.node) (pass.proceed table other) := by
  have hnext := (ahead_proceed hwf hcurrent hahead).2
  have hseen := hminds.seen
  rw [hahead, List.mem_cons] at hseen
  refine ⟨hminds.now_nonneg, hminds.fits, hminds.nonneg, ?_⟩
  rw [hnext]
  exact hseen.imp_left fun hmem => hmem.resolve_left (Ne.symm hother)

/-- A wait that is limited by the timer comes to an end. -/
theorem Minds.limited (hminds : Minds timer table pass) (hit : pass.it = none) :
    0 ≤ Poller.waitTime pass.nextTimeout := by
  have hahead : ahead table pass = [] := by rw [ahead, hit]; rfl
  obtain ⟨hlate, hle⟩ := hminds.seen.resolve_left (by simp [hahead])
  have hmul := timeoutUntil_mul_le hlate
  have hremaining := Int.sub_left_lt_of_lt_add hminds.fits
  have hnonneg := hminds.nonneg
  simp only [intSpan] at hremaining
  have hless : pass.nextTimeout < 2 ^ 31 := by omega
  refine ((Narrowing.epoll_iff hnonneg ?_).mpr (by omega)).1
  simp only [maxTimeout]
  omega

theorem Attends.limited (hattends : Attends timer table phase) : phase.unlimited = false := by
  cases hattends with
  | polling waitTime hlimited => simpa [Phase.unlimited] using hlimited
  | testing | timers | dispatching | handling => rfl

/-- The thread still attends to a timer after its step, if it has not called it. -/
theorem Attends.walk (hattends : Attends timer state.table phase) (hsound : Sound state.table)
    (hmem : timer ∈ state.table.timers) (hframes : state.frames thread = [phase])
    (hcalls : ¬ Calls state thread timer)
    (hread : ∀ now, move = .test now → 0 ≤ now ∧ timer.expire < now + intSpan)
    (hwalk : Loop.walk state phase move = some (middle, some later)) :
    Attends timer middle.table later ∧ timer ∈ middle.table.timers := by
  have hwalks := walks_of_walk hwalk
  cases hattends with
  | testing =>
      cases hwalks with
      | enters now =>
          obtain ⟨hnow, hfits⟩ := hread now rfl
          exact ⟨.timers _ (.begin hsound.wellFormed hmem hnow hfits), hmem⟩
  | timers pass hminds =>
      cases passes_of_walk hwalk with
      | waits other rest _ hcurrent hlate hahead =>
          exact ⟨.timers _ (hminds.examine hsound hcurrent hlate hahead), hmem⟩
      | fires other => exact ⟨.timers _ ⟨hminds.1, hminds.2, hminds.3, hminds.4⟩, hmem⟩
      | erases other rest hcalling hcurrent hahead =>
          have hother : other ≠ timer := by
            rintro rfl
            exact hcalls ⟨pass, [], hframes, hcalling, hcurrent⟩
          refine ⟨.timers _ (hminds.proceed hsound.wellFormed hcurrent hahead hother),
            Table.mem_erase.mpr ⟨hmem, fun hnode => hother ?_⟩⟩
          exact List.inj_on_of_nodup_map hsound.wellFormed.nodup
            (Pass.mem_of_current hcurrent) hmem hnode.symm
      | polls hit => exact ⟨.polling _ (hminds.limited hit), hmem⟩
      | fails => exact ⟨.testing, hmem⟩
  | polling =>
      cases hwalks with
      | wakes => exact ⟨.dispatching _, hmem⟩
      | expires | interrupts => exact ⟨.testing, hmem⟩
  | dispatching =>
      cases hwalks with
      | dispatches => exact ⟨.handling _, hmem⟩
      | next => exact ⟨.testing, hmem⟩
  | handling =>
      cases hwalks with
      | handled => exact ⟨.dispatching _, hmem⟩

theorem Attends.of_limited (hphase : ∀ pass, phase ≠ .timers pass)
    (hlimited : phase.unlimited = false) : Attends timer table phase := by
  cases phase with
  | testing => exact .testing
  | timers pass => exact absurd rfl (hphase pass)
  | polling waitTime => exact .polling waitTime (by simpa [Phase.unlimited] using hlimited)
  | dispatching batch => exact .dispatching batch
  | handling batch => exact .handling batch

/-- No call of code takes the timer out of the table or changes it. -/
def Spares (timer : Timer) (state : State Thread Source) (action : Action Thread Source) : Prop :=
  ∀ thread op table, action = .call thread (.timer op) → op.run state.table = some table →
    timer ∈ state.table.timers → timer ∈ table.timers

theorem mem_of_disturbs {next : State Thread Source} {action : Action Thread Source}
    (hdisturbs : Disturbs state action next) (hspares : Spares timer state action)
    (hmem : timer ∈ state.table.timers) : timer ∈ next.table.timers := by
  cases hdisturbs with
  | calls other call _ hperform =>
      cases call with
      | timer op =>
          obtain ⟨table, hrun, rfl⟩ := Option.map_eq_some_iff.mp hperform
          exact hspares other op table rfl hrun hmem
      | stop | register | modify | delete =>
          cases hperform
          exact hmem
  | runs | arrives | withdraws => exact hmem

variable [DecidableEq Thread] {opened : Bool} {schedule : Nat → Option (Action Thread Source)}
  {first : Nat}

/-- A timer of the loop that code leaves alone. Whenever the loop reads the
clock, what remains of the timer fits into an `int` of milliseconds, and in the
end nothing remains. -/
structure Awaited (opened : Bool) (schedule : Nat → Option (Action Thread Source))
    (thread : Thread) (first : Nat) (timer : Timer) : Prop where
  present : timer ∈ ((Loop.machine Thread Source opened).states schedule first).table.timers
  spared : ∀ time, first ≤ time → ∀ action, (Loop.machine Thread Source opened).Takes schedule
    time action → Spares timer ((Loop.machine Thread Source opened).states schedule time) action
  reads : ∀ time, first ≤ time → ∀ now, (Loop.machine Thread Source opened).Takes schedule time
    (.move thread (.test now)) → 0 ≤ now ∧ timer.expire < now + intSpan
  passes : ∀ᶠ time in atTop, ∀ now, (Loop.machine Thread Source opened).Takes schedule time
    (.move thread (.test now)) → timer.expire ≤ now

/-- A timer that is never called stays, and the thread attends to it. -/
theorem attends_states (hsteady : Steady opened schedule thread first)
    (hlimited : ∀ phase, Looping ((Loop.machine Thread Source opened).states schedule first)
      thread phase → phase.unlimited = false)
    (hawaited : Awaited opened schedule thread first timer)
    (hnever : ∀ later, first ≤ later →
      ¬ Calls ((Loop.machine Thread Source opened).states schedule later) thread timer)
    (time : Nat) (htime : first ≤ time) :
    let state := (Loop.machine Thread Source opened).states schedule time
    ∃ phase, Looping state thread phase ∧ Attends timer state.table phase ∧
      timer ∈ state.table.timers := by
  induction time, htime using Nat.le_induction with
  | base =>
      obtain ⟨phase, hlooping, hphase⟩ := hsteady.begins
      exact ⟨phase, hlooping, .of_limited hphase (hlimited phase hlooping), hawaited.present⟩
  | succ time htime ih =>
      obtain ⟨phase, hlooping, hattends, hmem⟩ := ih
      rcases step_cases hsteady htime hlooping with
        ⟨hnext, hidles⟩ | ⟨move, middle, later, htakes, hwalk, hnext, hlater⟩
      · refine ⟨phase, hnext, ?_, ?_⟩
        · cases hattends with
          | timers pass hminds =>
              rw [hidles.table hsteady htime hlooping]
              exact .timers pass hminds
          | testing => exact .testing
          | polling waitTime hnonneg => exact .polling waitTime hnonneg
          | dispatching batch => exact .dispatching batch
          | handling batch => exact .handling batch
        · rcases hidles.others with hsame | ⟨action, htakes, hdisturbs⟩
          · rwa [hsame]
          · exact mem_of_disturbs hdisturbs (hawaited.spared time htime action htakes) hmem
      · obtain ⟨hafter, hkept⟩ := hattends.walk (sound_states opened schedule time) hmem
          hlooping.frames (hnever time htime)
          (fun now hnow => hawaited.reads time htime now (hnow ▸ htakes)) hwalk
        simp only [hnext]
        exact ⟨later, hnext ▸ hlater, hafter, hkept⟩

omit [DecidableEq Thread] in
/-- A pass with a due timer before it. -/
def Approaches (state : State Thread Source) (thread : Thread) (timer : Timer) : Prop :=
  ∃ pass, Looping state thread (.timers pass) ∧ timer ∈ ahead state.table pass ∧
    timer.expire ≤ pass.now

/-- The pass comes to the timer. -/
theorem Approaches.step (hsteady : Steady opened schedule thread first) {time : Nat}
    (htime : first ≤ time)
    (happroaches : Approaches ((Loop.machine Thread Source opened).states schedule time) thread
      timer)
    (hcalls : ¬ Calls ((Loop.machine Thread Source opened).states schedule time) thread timer) :
    Approaches ((Loop.machine Thread Source opened).states schedule (time + 1)) thread timer := by
  obtain ⟨pass, hlooping, hahead, hdue⟩ := happroaches
  have hwf := (sound_states opened schedule time).wellFormed
  rcases step_cases hsteady htime hlooping with
    ⟨hnext, hidles⟩ | ⟨move, middle, later, htakes, hwalk, hnext, hlater⟩
  · exact ⟨pass, hnext, by rwa [hidles.table hsteady htime hlooping], hdue⟩
  · rw [hnext] at hlater ⊢
    cases passes_of_walk hwalk with
    | waits other rest hcalling hcurrent hlate hother =>
        obtain ⟨_, hrest⟩ := ahead_examine hwf hcurrent hlate hother
        rw [hother] at hahead
        refine ⟨_, hlater, ?_, by simpa [Pass.examine, Int.not_le.mpr hlate] using hdue⟩
        rcases List.mem_cons.mp hahead with rfl | hmem
        · exact absurd hdue (Int.not_le.mpr hlate)
        · exact hrest.symm ▸ hmem
    | fires other => exact ⟨_, hlater, hahead, hdue⟩
    | erases other rest hcalling hcurrent hother =>
        obtain ⟨_, hrest⟩ := ahead_proceed hwf hcurrent hother
        rw [hother] at hahead
        refine ⟨_, hlater, ?_, hdue⟩
        rcases List.mem_cons.mp hahead with rfl | hmem
        · exact absurd ⟨pass, [], hlooping.frames, hcalling, hcurrent⟩ hcalls
        · exact hrest.symm ▸ hmem
    | polls hit | fails hit => simp [ahead, hit, onward] at hahead

/-- A pass that has a due timer before it calls it. -/
theorem Approaches.calls (hsteady : Steady opened schedule thread first) {time : Nat}
    (htime : first ≤ time)
    (happroaches : Approaches ((Loop.machine Thread Source opened).states schedule time) thread
      timer) :
    ∃ later, time ≤ later ∧
      Calls ((Loop.machine Thread Source opened).states schedule later) thread timer := by
  refine hsteady.leads
    (fun now => Approaches ((Loop.machine Thread Source opened).states schedule now) thread timer)
    _ (fun now hnow happroaches => ?_) (fun now _ ⟨pass, hlooping, _⟩ => ?_) htime happroaches
  · by_cases hcalls : Calls ((Loop.machine Thread Source opened).states schedule now) thread timer
    · exact Or.inr hcalls
    · refine Or.inl ⟨happroaches.step hsteady hnow hcalls, fun reading htakes => ?_⟩
      obtain ⟨pass, hlooping, _⟩ := happroaches
      cases hlooping.testing htakes.2
  · exact ⟨_, hlooping, rfl⟩

end Timers

/-- A timer of a millisecond is added before the loop starts, and fired in its
first pass. -/
def alarm (time : Nat) : Option (Loop.Action Unit Unit) :=
  ([.call () (.timer (.add 0 1 (.insert 0))), .run ()] ++
    [.move () (.test 1000000), .move () .examine, .move () .returns, .move () .poll])[time]?

end Tang.EventLoop.Firing
