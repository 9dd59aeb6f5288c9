import Tang.Foundation.Family
import Tang.Foundation.Machine

/-! # The scopes that keep the runtime

A constructor of `RuntimeScope` raises `instance_count_`, and the one that found
it zero initialises the runtime and sets the flags afterwards. A destructor
lowers it, and the one that left it zero stops the runtime and clears the flags
afterwards. The counter is atomic, but nothing holds back a constructor or
destructor that comes while the actions of another are under way.
-/

namespace Tang.Scheduler.RuntimeScope

open Foundation

/-- A scope, by the next step of its constructor or destructor. -/
inductive Phase
  /-- It does not exist. -/
  | absent
  /-- `runtime::init`, `runtime_initialized_ = true`, `runtime_running_ = true`. -/
  | initializing
  | settingInitialized
  | settingRunning
  | constructed
  /-- `runtime::stop`, `runtime_initialized_ = false`, `runtime_running_ = false`. -/
  | stopping
  | clearingInitialized
  | clearingRunning
  deriving DecidableEq

/-- The static members, and `g_scheduler`, where schedulers are numbered by their
creation. `instance_count_` is a `std::atomic<int>`, which wraps around. -/
structure State (Scope : Type) where
  count : BitVec 32
  scheduler : Option Nat
  created : Nat
  initialized : Bool
  running : Bool
  phases : Scope → Phase

inductive Action (Scope : Type)
  /-- The constructor, up to the update of the counter. -/
  | construct (scope : Scope)
  /-- The destructor, up to the update of the counter. -/
  | destruct (scope : Scope)
  /-- The next step of the constructor or destructor. -/
  | go (scope : Scope)
  deriving DecidableEq

variable {Scope : Type}

section Steps

variable [DecidableEq Scope]

def State.advance (state : State Scope) (scope : Scope) (phase : Phase) : State Scope :=
  { state with phases := Function.update state.phases scope phase }

def step (state : State Scope) : Action Scope → Option (State Scope)
  | .construct scope =>
      match state.phases scope with
      | .absent =>
          some ({ state with count := state.count + 1 }.advance scope
            (if state.count = 0 then .initializing else .constructed))
      | _ => none
  | .destruct scope =>
      match state.phases scope with
      | .constructed =>
          some ({ state with count := state.count - 1 }.advance scope
            (if state.count - 1 = 0 then .stopping else .absent))
      | _ => none
  | .go scope =>
      match state.phases scope with
      -- a scheduler that is there is deleted first
      | .initializing =>
          some ({ state with scheduler := some state.created, created := state.created + 1 }.advance
            scope .settingInitialized)
      | .settingInitialized =>
          some ({ state with initialized := true }.advance scope .settingRunning)
      | .settingRunning => some ({ state with running := true }.advance scope .constructed)
      | .stopping => some ({ state with scheduler := none }.advance scope .clearingInitialized)
      | .clearingInitialized =>
          some ({ state with initialized := false }.advance scope .clearingRunning)
      | .clearingRunning => some ({ state with running := false }.advance scope .absent)
      | .absent | .constructed => none

end Steps

/-- Before the first scope. -/
def initial : State Scope where
  count := 0
  scheduler := none
  created := 0
  initialized := false
  running := false
  phases _ := .absent

/-- All interleavings of the constructors and destructors of any scopes. -/
def machine (Scope : Type) [DecidableEq Scope] : Machine (State Scope) (Action Scope) where
  start := initial
  step := step

/-! ## What the scopes are to guarantee -/

/-- While a scope is constructed the runtime is there and flagged so; when there
is none, and none is being built or destroyed, it is stopped and flagged so. -/
structure Kept (state : State Scope) : Prop where
  alive : ∀ scope, state.phases scope = .constructed →
    state.scheduler ≠ none ∧ state.initialized = true ∧ state.running = true
  stopped : (∀ scope, state.phases scope = .absent) →
    state.scheduler = none ∧ state.initialized = false ∧ state.running = false

/-- The actions of a constructor or destructor are under way. -/
def Phase.busy : Phase → Bool
  | .initializing | .settingInitialized | .settingRunning => true
  | .stopping | .clearingInitialized | .clearingRunning => true
  | .absent | .constructed => false

/-- The share of a scope in `instance_count_`. -/
def Phase.counted : Phase → Nat
  | .initializing | .settingInitialized | .settingRunning | .constructed => 1
  | .absent | .stopping | .clearingInitialized | .clearingRunning => 0

variable [Fintype Scope]

/-- How many scopes are counted. -/
def State.population (state : State Scope) : Nat := total Phase.counted state.phases

/-- The counter is updated only while no other constructor or destructor has
actions under way, and raised only as long as it can count the scopes. -/
def Apart (state : State Scope) : Action Scope → Prop
  | .construct _ => (∀ other, (state.phases other).busy = false) ∧ state.population < 2 ^ 32
  | .destruct _ => ∀ other, (state.phases other).busy = false
  | .go _ => True

/-! ## One change of the runtime at a time -/

/-- Whether there is a scheduler, and the two flags. -/
def State.regime (state : State Scope) : Bool × Bool × Bool :=
  (state.scheduler.isSome, state.initialized, state.running)

/-- The regime a scope finds in a phase. -/
def Phase.regime : Phase → Option (Bool × Bool × Bool)
  | .absent => none
  | .initializing => some (false, false, false)
  | .settingInitialized => some (true, false, false)
  | .settingRunning => some (true, true, false)
  | .constructed | .stopping => some (true, true, true)
  | .clearingInitialized => some (false, true, true)
  | .clearingRunning => some (false, false, true)

/-- The counter counts the scopes, and while one scope is busy there is no other. -/
structure Steady (state : State Scope) : Prop where
  counted : state.count.toNat = state.population % 2 ^ 32
  bounded : state.population ≤ 2 ^ 32
  regime : ∀ scope, ∀ regime ∈ (state.phases scope).regime, state.regime = regime
  once : ∀ scope, (state.phases scope).busy → ∀ other, other ≠ scope →
    state.phases other = .absent
  empty : (∀ scope, state.phases scope = .absent) → state.regime = (false, false, false)

theorem Phase.eq_absent {phase : Phase} (hcounted : phase.counted = 0)
    (hbusy : phase.busy = false) : phase = .absent := by
  cases phase with
  | absent => rfl
  | constructed => cases hcounted
  | initializing | settingInitialized | settingRunning => cases hcounted
  | stopping | clearingInitialized | clearingRunning => cases hbusy

theorem Phase.counted_eq_one {phase : Phase} (hcounted : phase.counted ≠ 0) :
    phase.counted = 1 := by
  cases phase with
  | initializing | settingInitialized | settingRunning | constructed => rfl
  | absent | stopping | clearingInitialized | clearingRunning => exact absurd rfl hcounted

theorem Phase.eq_constructed {phase : Phase} (hcounted : phase.counted ≠ 0)
    (hbusy : phase.busy = false) : phase = .constructed := by
  cases phase with
  | constructed => rfl
  | absent => exact absurd rfl hcounted
  | initializing | settingInitialized | settingRunning => cases hbusy
  | stopping | clearingInitialized | clearingRunning => cases hbusy

section Regimes

variable {state next : State Scope} {scope : Scope} {action : Action Scope}

omit [Fintype Scope] in
theorem State.regime_eq_iff {present initialized running : Bool} :
    state.regime = (present, initialized, running) ↔
      state.scheduler.isSome = present ∧ state.initialized = initialized ∧
        state.running = running := by
  simp [State.regime]

/-- Some scope is counted, if the population is not empty. -/
theorem State.exists_counted (hpopulation : state.population ≠ 0) :
    ∃ scope, (state.phases scope).counted ≠ 0 := by
  by_contra hnone
  push Not at hnone
  exact hpopulation (total_eq_zero hnone)

namespace Steady

theorem initial : Steady (initial : State Scope) where
  counted := by
    have hnone : (RuntimeScope.initial : State Scope).population = 0 := total_eq_zero fun _ => rfl
    rw [hnone]
    rfl
  bounded := by
    have hnone : (RuntimeScope.initial : State Scope).population = 0 := total_eq_zero fun _ => rfl
    omega
  regime := by simp [RuntimeScope.initial, Phase.regime]
  once := by simp [RuntimeScope.initial]
  empty _ := rfl

theorem kept (hsteady : Steady state) : Kept state where
  alive scope hphase := by
    have hregime := hsteady.regime scope (true, true, true) (by rw [hphase]; rfl)
    obtain ⟨hscheduler, hflags⟩ := State.regime_eq_iff.mp hregime
    exact ⟨Option.isSome_iff_ne_none.mp hscheduler, hflags⟩
  stopped habsent := by
    obtain ⟨hscheduler, hflags⟩ := State.regime_eq_iff.mp (hsteady.empty habsent)
    exact ⟨Option.isNone_iff_eq_none.mp (by simpa using hscheduler), hflags⟩

variable [DecidableEq Scope]

/-- A busy scope takes a step that leaves the counter alone: the others are
absent. -/
theorem advance (hsteady : Steady state) (hbusy : (state.phases scope).busy) {middle : State Scope}
    {phase : Phase} (hcount : middle.count = state.count) (hphases : middle.phases = state.phases)
    (hcounted : phase.counted = (state.phases scope).counted)
    (hregime : ∀ regime ∈ phase.regime, middle.regime = regime)
    (hempty : phase = .absent → middle.regime = (false, false, false)) :
    Steady (middle.advance scope phase) := by
  -- nobody else is counted, or finds the runtime in some regime
  have habsent := hsteady.once scope hbusy
  have hupdate :
      (middle.advance scope phase).phases = Function.update state.phases scope phase := by
    rw [← hphases]
    rfl
  have hpopulation : (middle.advance scope phase).population = state.population := by
    have htotal := total_update Phase.counted state.phases scope phase
    rw [State.population, State.population, hupdate]
    omega
  constructor
  case counted =>
    rw [hpopulation, ← hsteady.counted, ← hcount]
    rfl
  case bounded =>
    rw [hpopulation]
    exact hsteady.bounded
  case regime =>
    intro other regime hother
    by_cases heq : other = scope
    · subst heq
      exact hregime regime (by simpa [hupdate] using hother)
    · simp [hupdate, heq, habsent other heq, Phase.regime] at hother
  case once =>
    intro other hother third hne
    by_cases heq : other = scope
    · subst heq
      simpa [hupdate, hne] using habsent third hne
    · simp [hupdate, heq, habsent other heq, Phase.busy] at hother
  case empty =>
    intro hall
    exact hempty (by simpa [hupdate] using hall scope)

theorem go (hsteady : Steady state) (hstep : step state (.go scope) = some next) :
    Steady next := by
  have hregime := hsteady.regime scope
  simp only [step] at hstep
  cases hphase : state.phases scope with
  | absent | constructed => simp [hphase] at hstep
  | initializing | settingInitialized | settingRunning | stopping | clearingInitialized
  | clearingRunning =>
      simp only [hphase, Option.some.injEq] at hstep
      subst hstep
      rw [hphase] at hregime
      have hold := State.regime_eq_iff.mp (hregime _ rfl)
      apply hsteady.advance
      case hbusy => rw [hphase]; rfl
      case hcount | hphases => rfl
      case hcounted => rw [hphase]; rfl
      case hregime => simp [Phase.regime, State.regime, hold]
      case hempty => simp [State.regime, hold]

/-- A scope updates the counter while nobody is busy. -/
theorem recount (hsteady : Steady state) (hidle : ∀ other, (state.phases other).busy = false)
    {count : BitVec 32} {phase : Phase}
    (hcounted : count.toNat =
      total Phase.counted (Function.update state.phases scope phase) % 2 ^ 32)
    (hbounded : total Phase.counted (Function.update state.phases scope phase) ≤ 2 ^ 32)
    (hregime : ∀ regime ∈ phase.regime, state.regime = regime)
    (honce : phase.busy → ∀ other, other ≠ scope → state.phases other = .absent)
    (hothers : phase = .absent → ∃ other, other ≠ scope ∧ state.phases other ≠ .absent) :
    Steady ({ state with count := count }.advance scope phase) := by
  constructor
  case counted => exact hcounted
  case bounded => exact hbounded
  case regime =>
    intro other regime hother
    by_cases heq : other = scope
    · subst heq
      exact hregime regime (by simpa [State.advance] using hother)
    · exact hsteady.regime other regime (by simpa [State.advance, heq] using hother)
  case once =>
    intro other hother third hne
    by_cases heq : other = scope
    · subst heq
      simpa [State.advance, hne] using honce (by simpa [State.advance] using hother) third hne
    · simp [State.advance, heq, hidle other] at hother
  case empty =>
    intro hall
    have hphase : phase = .absent := by simpa [State.advance] using hall scope
    obtain ⟨other, hne, hpresent⟩ := hothers hphase
    exact absurd (by simpa [State.advance, hne] using hall other) hpresent

/-- A constructor that comes while nobody is busy. -/
theorem construct (hsteady : Steady state) (hidle : ∀ other, (state.phases other).busy = false)
    (hroom : state.population < 2 ^ 32) (hstep : step state (.construct scope) = some next) :
    Steady next := by
  have hcounted := hsteady.counted
  simp only [step] at hstep
  split at hstep
  next hphase =>
    cases hstep
    have hraised : (state.count + 1).toNat = (state.population + 1) % 2 ^ 32 := by bv_omega
    have hzero : state.count = 0 ↔ state.population = 0 := by bv_omega
    have hpopulation : ∀ phase : Phase, phase.counted = 1 →
        total Phase.counted (Function.update state.phases scope phase) = state.population + 1 := by
      intro phase hone
      have htotal := total_update Phase.counted state.phases scope phase
      rwa [hphase, hone] at htotal
    split
    next hfirst =>
      -- there is no other scope, and the runtime is stopped
      have hnone : ∀ other, state.phases other = .absent := fun other =>
        Phase.eq_absent (Nat.le_zero.mp (hzero.mp hfirst ▸ le_total _ _ other)) (hidle other)
      apply hsteady.recount hidle
      case hcounted => rw [hraised, hpopulation .initializing rfl]
      case hbounded => rw [hpopulation .initializing rfl]; exact hroom
      case hregime =>
        rintro _ ⟨⟩
        exact hsteady.empty hnone
      case honce => exact fun _ other _ => hnone other
      case hothers => rintro ⟨⟩
    next hlater =>
      -- another scope is constructed, and finds the runtime there
      obtain ⟨other, hother⟩ := State.exists_counted fun hnone => hlater (hzero.mpr hnone)
      have hthere := Phase.eq_constructed hother (hidle other)
      apply hsteady.recount hidle
      case hcounted => rw [hraised, hpopulation .constructed rfl]
      case hbounded => rw [hpopulation .constructed rfl]; exact hroom
      case hregime =>
        rintro _ ⟨⟩
        exact hsteady.regime other _ (by rw [hthere]; rfl)
      case honce => rintro ⟨⟩
      case hothers => rintro ⟨⟩
  next => cases hstep

/-- A destructor that comes while nobody is busy. -/
theorem destruct (hsteady : Steady state) (hidle : ∀ other, (state.phases other).busy = false)
    (hstep : step state (.destruct scope) = some next) : Steady next := by
  have hcounted := hsteady.counted
  have hbounded := hsteady.bounded
  simp only [step] at hstep
  split at hstep
  next hphase =>
    cases hstep
    have hpopulation : ∀ phase : Phase, phase.counted = 0 →
        total Phase.counted (Function.update state.phases scope phase) + 1 = state.population := by
      intro phase hzero
      have htotal := total_update Phase.counted state.phases scope phase
      rwa [hphase, hzero] at htotal
    have hregime := hsteady.regime scope (true, true, true) (by rw [hphase]; rfl)
    split
    next hlast =>
      have hstopping := hpopulation .stopping rfl
      have hnone : total Phase.counted (Function.update state.phases scope .stopping) = 0 := by
        bv_omega
      apply hsteady.recount hidle
      case hcounted => bv_omega
      case hbounded => omega
      case hregime =>
        rintro _ ⟨⟩
        exact hregime
      case honce =>
        intro _ other hne
        have hle := le_total Phase.counted (Function.update state.phases scope .stopping) other
        rw [hnone, Function.update_of_ne hne] at hle
        exact Phase.eq_absent (Nat.le_zero.mp hle) (hidle other)
      case hothers => rintro ⟨⟩
    next hmore =>
      -- the scope leaves others behind
      have habsent := hpopulation .absent rfl
      have hsome : total Phase.counted (Function.update state.phases scope .absent) ≠ 0 := by
        bv_omega
      apply hsteady.recount hidle
      case hcounted => bv_omega
      case hbounded => omega
      case hregime => rintro _ ⟨⟩
      case honce => rintro ⟨⟩
      case hothers =>
        intro _
        by_contra hnone
        push Not at hnone
        refine hsome (total_eq_zero fun other => ?_)
        by_cases heq : other = scope
        · simp [heq, Phase.counted]
        · simp [heq, hnone other heq, Phase.counted]
  next => cases hstep

theorem step (hsteady : Steady state) (happart : Apart state action)
    (hstep : step state action = some next) : Steady next := by
  cases action with
  | construct scope => exact hsteady.construct happart.1 happart.2 hstep
  | destruct scope => exact hsteady.destruct happart hstep
  | go scope => exact hsteady.go hstep

/-- A scope that is being built is counted, and alone. -/
theorem count_of_building (hsteady : Steady state) (hbusy : (state.phases scope).busy)
    (hcounted : (state.phases scope).counted ≠ 0) : state.count ≠ 0 := by
  have hone : state.population = 1 := by
    have htotal := total_update Phase.counted state.phases scope .absent
    have hnone : total Phase.counted (Function.update state.phases scope .absent) = 0 := by
      refine total_eq_zero fun other => ?_
      by_cases heq : other = scope
      · simp [heq, Phase.counted]
      · simp [heq, hsteady.once scope hbusy other heq, Phase.counted]
    rw [hnone, Phase.counted_eq_one hcounted] at htotal
    exact htotal.symm
  have hcounts := hsteady.counted
  intro hzero
  bv_omega

/-- A scope that is being destroyed is alone, and not counted. -/
theorem count_of_destroying (hsteady : Steady state) (hbusy : (state.phases scope).busy)
    (huncounted : (state.phases scope).counted = 0) : state.count = 0 := by
  have hnone : state.population = 0 := by
    refine total_eq_zero fun other => ?_
    by_cases heq : other = scope
    · rw [heq, huncounted]
    · simp [hsteady.once scope hbusy other heq, Phase.counted]
  have hcounted := hsteady.counted
  bv_omega

omit [DecidableEq Scope] in
/-- While a scope is being built the runtime is not there yet. -/
theorem regime_of_building (hsteady : Steady state) (hbusy : (state.phases scope).busy)
    (hcounted : (state.phases scope).counted ≠ 0) : state.regime ≠ (true, true, true) := by
  have hregime := hsteady.regime scope
  cases hphase : state.phases scope with
  | absent | constructed => simp [hphase, Phase.busy] at hbusy
  | stopping | clearingInitialized | clearingRunning => simp [hphase, Phase.counted] at hcounted
  | initializing | settingInitialized | settingRunning =>
      rw [hphase] at hregime
      rw [hregime _ rfl]
      decide

end Steady

/-! ## No update of the counter can do without its distance -/

variable [DecidableEq Scope]

/-- The rest of a constructor that initialises the runtime. -/
def initialises (scope : Scope) : List (Action Scope) := [.go scope, .go scope, .go scope]

omit [Fintype Scope] in
theorem exec_initialises (hphase : state.phases scope = .initializing) :
    ∃ final, (machine Scope).exec state (initialises scope) = some final ∧
      final.count = state.count ∧ final.regime = (true, true, true) ∧
      final.phases = Function.update state.phases scope .constructed := by
  refine ⟨{ state with
    scheduler := some state.created
    created := state.created + 1
    initialized := true
    running := true
    phases := Function.update state.phases scope .constructed }, ?_, rfl, rfl, rfl⟩
  simp [initialises, Machine.exec, machine, step, State.advance, hphase]

omit [Fintype Scope] [DecidableEq Scope] in
/-- A scope is constructed without the runtime. -/
theorem not_kept_of_regime (hphase : state.phases scope = .constructed)
    (hregime : state.regime ≠ (true, true, true)) : ¬ Kept state := by
  intro hkept
  obtain ⟨hscheduler, hflags⟩ := hkept.alive scope hphase
  exact hregime (State.regime_eq_iff.mpr ⟨Option.isSome_iff_ne_none.mpr hscheduler, hflags⟩)

omit [Fintype Scope] in
/-- A destructor that goes on after a constructor takes the runtime away again. -/
theorem regime_go_of_destroying {other : Scope} (hbusy : (state.phases other).busy)
    (huncounted : (state.phases other).counted = 0) :
    ∃ final, step state (.go other) = some final ∧ final.regime ≠ (true, true, true) ∧
      ∀ scope, scope ≠ other → final.phases scope = state.phases scope := by
  cases hphase : state.phases other with
  | absent | constructed => simp [hphase, Phase.busy] at hbusy
  | initializing | settingInitialized | settingRunning =>
      simp [hphase, Phase.counted] at huncounted
  | stopping | clearingInitialized | clearingRunning =>
      refine ⟨_, by simp only [step, hphase]; rfl, by simp [State.regime, State.advance], ?_⟩
      intro scope hne
      simp [State.advance, hne]

theorem meets_initialises : (machine Scope).Meets Apart state (initialises scope) :=
  fun _ _ => ⟨trivial, fun _ _ => ⟨trivial, fun _ _ => ⟨trivial, trivial⟩⟩⟩

/-- A scope is constructed while the destructor of another stops the runtime. -/
theorem not_secure_of_overlap {other : Scope} (hne : scope ≠ other)
    (hphase : state.phases scope = .constructed) (hbusy : (state.phases other).busy)
    (huncounted : (state.phases other).counted = 0) :
    ¬ (machine Scope).Secure Apart Kept state := by
  intro hsecure
  obtain ⟨final, hfinal, hregime, hothers⟩ := regime_go_of_destroying hbusy huncounted
  have hapart : Apart state (.go other) := trivial
  have hlast : final.phases scope = .constructed := (hothers scope hne).trans hphase
  exact not_kept_of_regime hlast hregime (hsecure.step hapart hfinal).head

/-- A new first scope is under construction while the last destructor stops the
runtime. -/
theorem not_secure_of_destroying {other : Scope} (hne : scope ≠ other)
    (hphase : state.phases scope = .initializing) (hbusy : (state.phases other).busy)
    (huncounted : (state.phases other).counted = 0) :
    ¬ (machine Scope).Secure Apart Kept state := by
  intro hsecure
  obtain ⟨middle, hexec, _, _, hphases⟩ := exec_initialises hphase
  have hself : middle.phases scope = .constructed := by rw [hphases, Function.update_self]
  have hother : middle.phases other = state.phases other := by
    rw [hphases, Function.update_of_ne hne.symm]
  exact not_secure_of_overlap hne hself (hother ▸ hbusy) (hother ▸ huncounted)
    (hsecure.exec meets_initialises hexec)

/-- The counter has come round: the next destructor is taken for the last. -/
theorem not_secure_of_wrapped {other : Scope} (hne : scope ≠ other)
    (hphase : state.phases scope = .initializing) (hother : state.phases other = .constructed)
    (hidle : ∀ third, third ≠ scope → (state.phases third).busy = false)
    (hcount : state.count = 1) : ¬ (machine Scope).Secure Apart Kept state := by
  intro hsecure
  obtain ⟨middle, hexec, hmiddleCount, _, hphases⟩ := exec_initialises hphase
  have hmiddle : middle.phases other = .constructed := by
    rw [hphases, Function.update_of_ne hne.symm, hother]
  have hapart : Apart middle (.destruct other) := by
    intro third
    by_cases heq : third = scope
    · simp [hphases, heq, Phase.busy]
    · simp [hphases, heq, hidle third heq]
  have hdestruct : step middle (.destruct other) =
      some ({ middle with count := middle.count - 1 }.advance other .stopping) := by
    simp [step, hmiddle, hmiddleCount, hcount]
  have hstopping := (hsecure.exec meets_initialises hexec).step hapart hdestruct
  have hself : ({ middle with count := middle.count - 1 }.advance other .stopping).phases scope =
      .constructed := by
    simp [State.advance, hne, hphases]
  have hbusy : ({ middle with count := middle.count - 1 }.advance other .stopping).phases other =
      .stopping := by
    simp [State.advance]
  exact not_secure_of_overlap hne hself (by rw [hbusy]; rfl) (by rw [hbusy]; rfl) hstopping

/-- A constructor raises the counter while another scope is busy. -/
theorem not_secure_of_construct_busy (hsteady : Steady state) {other : Scope}
    (hbusy : (state.phases other).busy) (hstep : step state (.construct scope) = some next) :
    ¬ (machine Scope).Secure Apart Kept next := by
  simp only [step] at hstep
  split at hstep
  next hphase =>
    cases hstep
    have hne : scope ≠ other := by
      rintro rfl
      rw [hphase] at hbusy
      cases hbusy
    by_cases hcounted : (state.phases other).counted = 0
    -- the other scope is being destroyed: an `init` and a `stop` are under way
    · have hzero := hsteady.count_of_destroying hbusy hcounted
      rw [if_pos hzero]
      apply not_secure_of_destroying hne
      case hphase => simp [State.advance]
      case hbusy => simpa [State.advance, hne.symm] using hbusy
      case huncounted => simpa [State.advance, hne.symm] using hcounted
    -- the other scope is being built: this one is constructed before it
    · have hlater := hsteady.count_of_building hbusy hcounted
      have hregime := hsteady.regime_of_building hbusy hcounted
      rw [if_neg hlater]
      intro hsecure
      have hself : ({ state with count := state.count + 1 }.advance scope .constructed).phases
          scope = .constructed := by
        simp [State.advance]
      exact not_kept_of_regime hself hregime hsecure.head
  next => cases hstep

/-- A constructor raises the counter beyond the scopes it can count. -/
theorem not_secure_of_construct_full (hsteady : Steady state)
    (hidle : ∀ other, (state.phases other).busy = false) (hfull : ¬ state.population < 2 ^ 32)
    (hstep : step state (.construct scope) = some next) :
    ¬ (machine Scope).Secure Apart Kept next := by
  have hcounted := hsteady.counted
  have hbounded := hsteady.bounded
  simp only [step] at hstep
  split at hstep
  next hphase =>
    cases hstep
    -- the counter has come round although a scope is there
    have hzero : state.count = 0 := by bv_omega
    obtain ⟨other, hother⟩ := State.exists_counted (show state.population ≠ 0 by omega)
    have hthere := Phase.eq_constructed hother (hidle other)
    have hne : scope ≠ other := by
      rintro rfl
      rw [hphase] at hthere
      cases hthere
    rw [if_pos hzero]
    apply not_secure_of_wrapped hne
    case hphase => simp [State.advance]
    case hother => simpa [State.advance, hne.symm] using hthere
    case hidle => exact fun third hthird => by simpa [State.advance, hthird] using hidle third
    case hcount => simp [State.advance, hzero]
  next => cases hstep

theorem not_secure_of_not_apart (hsteady : Steady state) (happart : ¬ Apart state action)
    (hstep : step state action = some next) : ¬ (machine Scope).Secure Apart Kept next := by
  cases action with
  | construct scope =>
      by_cases hidle : ∀ other, (state.phases other).busy = false
      · exact not_secure_of_construct_full hsteady hidle (fun hroom => happart ⟨hidle, hroom⟩) hstep
      · push Not at hidle
        obtain ⟨other, hbusy⟩ := hidle
        exact not_secure_of_construct_busy hsteady (by simpa using hbusy) hstep
  | destruct scope =>
      -- while a scope is busy no other is constructed
      have hidle : ¬ ∀ other, (state.phases other).busy = false := happart
      push Not at hidle
      obtain ⟨other, hbusy⟩ := hidle
      have habsent := hsteady.once other (by simpa using hbusy) scope
      simp only [step] at hstep
      split at hstep
      next hphase =>
        have hsame : scope = other := by
          by_contra hne
          rw [habsent hne] at hphase
          cases hphase
        subst hsame
        simp [hphase, Phase.busy] at hbusy
      next => cases hstep
  | go scope => exact absurd trivial happart

end Regimes

variable [DecidableEq Scope]

/-- In every run the runtime stays safe from the constructors and destructors
that are under way exactly if each of them updates the counter apart from the
actions of the others; then it is kept as long as there is a scope, and no
longer. -/
theorem secure_along_iff_apart (actions : List (Action Scope)) :
    ((machine Scope).Along ((machine Scope).Secure Apart Kept) initial actions ↔
        (machine Scope).Meets Apart initial actions) ∧
      ((machine Scope).Meets Apart initial actions →
        (machine Scope).Along Kept initial actions) := by
  have hpreserved : ∀ (state : State Scope) action next, Steady state → Apart state action →
      (machine Scope).step state action = some next → Steady next :=
    fun _ _ _ hsteady happart hstep => hsteady.step happart hstep
  have hproperty : ∀ state : State Scope, Steady state → Kept state :=
    fun _ hsteady => hsteady.kept
  constructor
  · exact Machine.secure_along_iff_meets Steady hpreserved hproperty
      (fun _ _ _ hsteady happart hstep => not_secure_of_not_apart hsteady happart hstep) .initial
  · exact Machine.along_of_meets Steady hpreserved hproperty .initial

/-- Two threads build a scope: the first has raised the counter and not
initialised the runtime when the second scope is constructed without one. And
the last destructor stops the runtime of a new first scope. -/
theorem overtaken_init_run :
    (¬ (machine (Fin 2)).Along Kept initial [.construct 0, .construct 1]) ∧
      ¬ (machine (Fin 2)).Along Kept initial
        ([.construct 0] ++ initialises 0 ++ [.destruct 0, .construct 1] ++ initialises 1 ++
          [.go 0]) := by
  constructor
  · intro halong
    have hlast := halong.last rfl
    exact absurd (hlast.alive 1 rfl).2.1 (by decide)
  · intro halong
    have hlast := halong.last rfl
    exact (hlast.alive 1 rfl).1 rfl

end Tang.Scheduler.RuntimeScope
