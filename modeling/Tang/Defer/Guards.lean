import Mathlib.Data.List.Sort
import Mathlib.Data.Finset.Range
import Tang.Foundation.Custody
import Tang.Foundation.Machine
import Tang.Foundation.Order

/-! # Deferred functions

One thread with its nested blocks. A `defer` block declares a guard in the
innermost block; leaving a block destroys the guards declared in it, and a guard
calls its function when it is destroyed. What the program does next, how a block
is left and what a deferred function does is the choice of the action, so the
runs cover every program. A `return`, a `break` or a `co_return` out of several
blocks leaves one after the other.
-/

namespace Tang.Defer

open Foundation

/-- A function given to a guard, by its number. -/
abbrev Func := Nat

/-- What the thread is in the middle of. Guards are listed the youngest first. -/
inductive Region
  /-- A block of code; `catches` for the block of a `try`, and for the body of a
  coroutine. -/
  | block (catches : Bool) (guards : List Nat)
  /-- A block being left, by an exception when it is `raising`. -/
  | leaving (raising catches : Bool) (guards : List Nat)
  /-- The destructor of a guard, calling its function. -/
  | call (func : Func)
  deriving DecidableEq

/-- `guards` are the guards by construction, each with what its `func_` holds;
`dynamic` are those on the heap. History: how many functions were given to
guards, and which guards were destroyed with which function. -/
structure State where
  guards : List (Option Func) := []
  regions : List Region := []
  dynamic : List Nat := []
  functions : Nat := 0
  destroyed : List (Nat × Option Func) := []
  terminated : Bool := false
  deriving DecidableEq

inductive Action
  | enter (catches : Bool)
  /-- A guard is constructed from a function, or from an empty one. -/
  | declare (callable : Bool)
  | allocate (callable : Bool)
  /-- A guard is constructed by moving from another. -/
  | declareMoved (source : Nat)
  | allocateMoved (source : Nat)
  | release (guard : Nat)
  | leave
  | raise
  /-- The thread goes on leaving a block, or returns from a deferred function. -/
  | proceed
  deriving DecidableEq

/-- The guards declared in the region that are not destroyed. -/
@[simp] def Region.guards : Region → List Nat
  | .block _ guards | .leaving _ _ guards => guards
  | .call _ => []

/-- An exception raised here is caught. No destructor lets one through. -/
def handled : List Region → Bool
  | .block true _ :: _ => true
  | .block false _ :: rest => handled rest
  | .leaving _ _ _ :: _ | .call _ :: _ | [] => false

namespace State

variable (state : State)

/-- The guards with automatic storage that are alive, the innermost first. -/
def automatic : List Nat := state.regions.flatMap Region.guards

/-- The functions called by destructors, in the order of the calls. -/
def called : List Func := state.destroyed.filterMap Prod.snd

/-- A new guard; the function it is given is a new one. -/
def construct (callable : Bool) : State :=
  if callable then
    { state with
      guards := state.guards ++ [some state.functions]
      functions := state.functions + 1 }
  else { state with guards := state.guards ++ [none] }

/-- `defer_guard(defer_guard&& other)`: `other.func_` is set to null. -/
def constructMoved (source : Nat) : Option State :=
  if source ∈ state.automatic ++ state.dynamic then
    state.guards[source]?.map fun func =>
      { state with guards := state.guards.set source none ++ [func] }
  else none

/-- The guard is a variable of the innermost block. -/
def place (guard : Nat) : Option State :=
  match state.regions with
  | .block catches guards :: rest =>
      some { state with regions := .block catches (guard :: guards) :: rest }
  | _ => none

/-- The guard is on the heap. -/
def placeDynamic (guard : Nat) : Option State :=
  match state.regions with
  | .block _ _ :: _ => some { state with dynamic := state.dynamic ++ [guard] }
  | _ => none

/-- `~defer_guard`: the function is called if there is one. -/
def destruct (guard : Nat) (rest : List Region) : State :=
  let func := state.guards[guard]?.join
  { state with
    guards := state.guards.set guard none
    destroyed := state.destroyed ++ [(guard, func)]
    regions := match func with
      | some func => .block false [] :: .call func :: rest
      | none => rest }

/-- The exception leaves for the region around. -/
def propagate : List Region → State
  | .block catches guards :: rest =>
      { state with regions := .leaving true catches guards :: rest }
  | rest => { state with regions := rest, terminated := true }

end State

def step (state : State) (action : Action) : Option State :=
  if state.terminated then none
  else
    match action, state.regions with
    | .enter catches, [] => some { state with regions := [.block catches []] }
    | .enter catches, .block outer guards :: rest =>
        some { state with regions := .block catches [] :: .block outer guards :: rest }
    | .declare callable, _ => (state.construct callable).place state.guards.length
    | .allocate callable, _ => (state.construct callable).placeDynamic state.guards.length
    | .declareMoved source, _ =>
        (state.constructMoved source).bind fun made => made.place state.guards.length
    | .allocateMoved source, _ =>
        (state.constructMoved source).bind fun made => made.placeDynamic state.guards.length
    | .release guard, .block catches guards :: rest =>
        if guard ∈ state.dynamic then
          some ({ state with dynamic := state.dynamic.erase guard }.destruct guard
            (.block catches guards :: rest))
        else none
    | .leave, .block catches guards :: rest =>
        some { state with regions := .leaving false catches guards :: rest }
    | .raise, .block catches guards :: rest =>
        if handled state.regions then
          some { state with regions := .leaving true catches guards :: rest }
        else some { state with terminated := true }
    | .proceed, .leaving raising catches (guard :: guards) :: rest =>
        some (state.destruct guard (.leaving raising catches guards :: rest))
    | .proceed, .leaving raising catches [] :: rest =>
        if raising && !catches then some (state.propagate rest)
        else some { state with regions := rest }
    | .proceed, .call _ :: rest => some { state with regions := rest }
    | _, _ => none

/-- All programs of one thread. -/
def machine : Machine State Action where
  start := {}
  step := step

/-! ## The guards and their functions -/

/-- Who is alive, what each holds, and what was called. -/
structure Ledger where
  guards : List (Option Func)
  automatic : List Nat
  dynamic : List Nat
  functions : Nat
  destroyed : List (Nat × Option Func)

namespace Ledger

def alive (ledger : Ledger) : List Nat := ledger.automatic ++ ledger.dynamic

def gone (ledger : Ledger) : List Nat := ledger.destroyed.map Prod.fst

def called (ledger : Ledger) : List Func := ledger.destroyed.filterMap Prod.snd

/-- A guard stops to exist, and what it held is called. -/
def destroy (ledger : Ledger) (guard : Nat) : Ledger :=
  { ledger with
    guards := ledger.guards.set guard none
    destroyed := ledger.destroyed ++ [(guard, ledger.guards[guard]?.join)] }

/-- The ways in which a new guard gets what it holds. -/
inductive Born (ledger : Ledger) : Ledger → Prop
  | callable : Born ledger
      { ledger with
        guards := ledger.guards ++ [some ledger.functions]
        functions := ledger.functions + 1 }
  | empty : Born ledger { ledger with guards := ledger.guards ++ [none] }
  | moved (source : Nat) (func : Option Func) (halive : source ∈ ledger.alive)
      (hsource : ledger.guards[source]? = some func) :
      Born ledger { ledger with guards := ledger.guards.set source none ++ [func] }

/-- What one step does to the guards. -/
inductive Next (ledger : Ledger) : Ledger → Prop
  | stays : Next ledger ledger
  | declares {made : Ledger} (hborn : Born ledger made) :
      Next ledger { made with automatic := ledger.guards.length :: ledger.automatic }
  | allocates {made : Ledger} (hborn : Born ledger made) :
      Next ledger { made with dynamic := ledger.dynamic ++ [ledger.guards.length] }
  /-- The youngest of the automatic guards is destroyed. -/
  | destroys (guard : Nat) (rest : List Nat) (hautomatic : ledger.automatic = guard :: rest) :
      Next ledger ({ ledger with automatic := rest }.destroy guard)
  | releases (guard : Nat) (hdynamic : guard ∈ ledger.dynamic) :
      Next ledger ({ ledger with dynamic := ledger.dynamic.erase guard }.destroy guard)

end Ledger

def State.ledger (state : State) : Ledger where
  guards := state.guards
  automatic := state.automatic
  dynamic := state.dynamic
  functions := state.functions
  destroyed := state.destroyed

variable {state next : State} {action : Action}

theorem State.destruct_ledger (state : State) (guard : Nat) (rest : List Region) :
    (state.destruct guard rest).ledger =
      { state.ledger with automatic := rest.flatMap Region.guards }.destroy guard := by
  simp only [State.destruct, State.ledger, State.automatic, Ledger.destroy]
  cases state.guards[guard]?.join <;> simp

theorem State.construct_born (state : State) (callable : Bool) :
    state.ledger.Born (state.construct callable).ledger := by
  cases callable
  · exact .empty
  · exact .callable

theorem State.constructMoved_born {source : Nat}
    (hmade : state.constructMoved source = some next) : state.ledger.Born next.ledger := by
  unfold State.constructMoved at hmade
  split at hmade
  next halive =>
    obtain ⟨func, hsource, rfl⟩ := Option.map_eq_some_iff.mp hmade
    exact .moved source func halive hsource
  next => cases hmade

/-- A new guard is not placed anywhere yet. -/
theorem Ledger.Born.placed {ledger made : Ledger} (hborn : ledger.Born made) :
    made.automatic = ledger.automatic ∧ made.dynamic = ledger.dynamic ∧
      made.destroyed = ledger.destroyed := by
  cases hborn <;> exact ⟨rfl, rfl, rfl⟩

theorem State.place_next {made : State} (hborn : state.ledger.Born made.ledger)
    (hplaced : made.place state.guards.length = some next) : state.ledger.Next next.ledger := by
  unfold State.place at hplaced
  split at hplaced
  next catches guards rest hregions =>
    cases hplaced
    have hdeclares := Ledger.Next.declares hborn
    rw [← hborn.placed.1] at hdeclares
    simpa [State.ledger, State.automatic, hregions] using hdeclares
  next => cases hplaced

theorem State.placeDynamic_next {made : State} (hborn : state.ledger.Born made.ledger)
    (hplaced : made.placeDynamic state.guards.length = some next) :
    state.ledger.Next next.ledger := by
  unfold State.placeDynamic at hplaced
  split at hplaced
  next =>
    cases hplaced
    have hallocates := Ledger.Next.allocates hborn
    rw [← hborn.placed.2.1] at hallocates
    exact hallocates
  next => cases hplaced

/-- The guards stay where they are. -/
theorem State.regions_next {regions : List Region} (terminated : Bool)
    (hsame : regions.flatMap Region.guards = state.automatic) :
    state.ledger.Next { state with regions, terminated }.ledger := by
  have hledger : { state with regions, terminated }.ledger = state.ledger := by
    simp [State.ledger, State.automatic, hsame]
  rw [hledger]
  exact .stays

theorem State.propagate_next {rest : List Region}
    (hsame : rest.flatMap Region.guards = state.automatic) :
    state.ledger.Next (state.propagate rest).ledger := by
  unfold State.propagate
  split
  · exact regions_next state.terminated (by simpa using hsame)
  · exact regions_next true hsame

theorem step_next (hstep : step state action = some next) : state.ledger.Next next.ledger := by
  unfold step at hstep
  split at hstep
  · cases hstep
  split at hstep
  next catches hregions =>
    cases hstep
    exact State.regions_next state.terminated (by simp [State.automatic, hregions])
  next catches outer guards rest hregions =>
    cases hstep
    exact State.regions_next state.terminated (by simp [State.automatic, hregions])
  next callable => exact State.place_next (state.construct_born callable) hstep
  next callable => exact State.placeDynamic_next (state.construct_born callable) hstep
  next source =>
    obtain ⟨made, hmade, hplaced⟩ := Option.bind_eq_some_iff.mp hstep
    exact State.place_next (State.constructMoved_born hmade) hplaced
  next source =>
    obtain ⟨made, hmade, hplaced⟩ := Option.bind_eq_some_iff.mp hstep
    exact State.placeDynamic_next (State.constructMoved_born hmade) hplaced
  next guard catches guards rest hregions =>
    split at hstep
    next hdynamic =>
      cases hstep
      rw [State.destruct_ledger]
      have hreleases : state.ledger.Next _ := .releases guard hdynamic
      simpa [State.ledger, State.automatic, hregions] using hreleases
    next => cases hstep
  next catches guards rest hregions =>
    cases hstep
    exact State.regions_next state.terminated (by simp [State.automatic, hregions])
  next catches guards rest hregions =>
    split at hstep <;> cases hstep
    · exact State.regions_next state.terminated (by simp [State.automatic, hregions])
    · exact State.regions_next true rfl
  next raising catches guard guards rest hregions =>
    cases hstep
    rw [State.destruct_ledger]
    exact .destroys guard _ (by simp [State.ledger, State.automatic, hregions])
  next raising catches rest hregions =>
    have hsame : rest.flatMap Region.guards = state.automatic := by
      simp [State.automatic, hregions]
    split at hstep <;> cases hstep
    · exact State.propagate_next hsame
    · exact State.regions_next state.terminated hsame
  next func rest hregions =>
    cases hstep
    exact State.regions_next state.terminated (by simp [State.automatic, hregions])
  next => cases hstep

/-! ## Custody of the functions -/

/-- Every function is held by one guard or was called once, every guard is alive
once or was destroyed once, only a living guard holds a function, and the
automatic guards are listed the youngest first. -/
structure Ledger.Sound (ledger : Ledger) : Prop where
  functions : Accounted (Finset.range ledger.functions)
    (fun func => ledger.guards.count (some func)) fun func => ledger.called.count func
  guards : Accounted (Finset.range ledger.guards.length)
    (fun guard => ledger.alive.count guard) fun guard => ledger.gone.count guard
  holders : ∀ guard func, ledger.guards[guard]? = some (some func) → guard ∈ ledger.alive
  order : ledger.automatic.Pairwise (· > ·)

namespace Ledger

variable {ledger made next : Ledger} {guard : Nat}

theorem Sound.lt_length (hsound : ledger.Sound) (halive : guard ∈ ledger.alive) :
    guard < ledger.guards.length :=
  Finset.mem_range.mp (hsound.guards.of_held (List.count_pos_iff.mpr halive)).1

theorem Born.length (hborn : ledger.Born made) :
    made.guards.length = ledger.guards.length + 1 := by
  cases hborn <;> simp

/-- The new guard holds a new function, none, or that of the guard moved from. -/
theorem Born.functions (hborn : ledger.Born made) (hsound : ledger.Sound) :
    Accounted (Finset.range made.functions) (fun func => made.guards.count (some func))
      fun func => made.called.count func := by
  cases hborn with
  | callable =>
      rw [Finset.range_add_one]
      refine hsound.functions.issue Finset.notMem_range_self fun func => ?_
      simp only [called, List.count_append, count_some_singleton, Option.toList_some]
      omega
  | empty =>
      refine hsound.functions.keeps fun func => ?_
      simp [called]
  | moved source held halive hsource =>
      refine hsound.functions.keeps fun func => ?_
      have hmoves := count_set_add hsource none func
      simp only [called, List.count_append, count_some_singleton, Option.toList_none,
        List.count_nil, Nat.add_zero] at hmoves ⊢
      omega

/-- Whoever holds a function is new or held it before. -/
theorem Born.holder (hborn : ledger.Born made) {func : Func}
    (hholds : made.guards[guard]? = some (some func)) :
    guard = ledger.guards.length ∨ ledger.guards[guard]? = some (some func) := by
  have hlast : ∀ {guards : List (Option Func)} {new : Option Func},
      guards.length = ledger.guards.length → (guards ++ [new])[guard]? = some (some func) →
        guard = ledger.guards.length ∨ guards[guard]? = some (some func) := by
    intro guards new hlength hnew
    rcases Nat.lt_trichotomy guard guards.length with hlt | heq | hgt
    · exact Or.inr (by rwa [List.getElem?_append_left hlt] at hnew)
    · exact Or.inl (heq.trans hlength)
    · rw [List.getElem?_eq_none (by rw [List.length_append]; exact hgt)] at hnew
      cases hnew
  cases hborn with
  | callable | empty => exact hlast rfl hholds
  | moved source held halive hsource =>
      refine (hlast (List.length_set ..) hholds).imp_right fun hkept => ?_
      by_cases heq : source = guard
      · subst heq
        rw [List.getElem?_set_self', hsource] at hkept
        cases hkept
      · rwa [List.getElem?_set_ne heq] at hkept

/-- A new guard joins the living. -/
theorem Sound.born (hsound : ledger.Sound) (hborn : ledger.Born made) {automatic dynamic : List Nat}
    (hcount : ∀ other, (automatic ++ dynamic).count other =
      ledger.alive.count other + [ledger.guards.length].count other)
    (horder : automatic.Pairwise (· > ·)) : { made with automatic, dynamic }.Sound where
  functions := hborn.functions hsound
  guards := by
    have hnew : ledger.guards.length ∉ Finset.range ledger.guards.length := Finset.notMem_range_self
    simp only [hborn.length, Finset.range_add_one]
    refine hsound.guards.issue hnew fun other => ?_
    have hgone : made.gone = ledger.gone := congrArg (List.map Prod.fst) hborn.placed.2.2
    have hsum := hcount other
    simp only [alive, gone] at *
    rw [hgone]
    omega
  holders guard func hholds := by
    refine List.count_pos_iff.mp ((hcount guard).trans_gt ?_)
    rcases hborn.holder hholds with rfl | hbefore
    · simp
    · have hpos := List.count_pos_iff.mpr (hsound.holders guard func hbefore)
      omega
  order := horder

/-- A guard leaves the living, and the function it held has been called. -/
theorem Sound.destroy (hsound : ledger.Sound) {automatic dynamic : List Nat}
    (hcount : ∀ other, (automatic ++ dynamic).count other + [guard].count other =
      ledger.alive.count other)
    (horder : automatic.Pairwise (· > ·)) :
    ({ ledger with automatic, dynamic }.destroy guard).Sound := by
  have halive : guard ∈ ledger.alive := by
    refine List.count_pos_iff.mp ?_
    rw [← hcount guard, List.count_singleton_self]
    omega
  obtain ⟨held, hheld⟩ : ∃ held, ledger.guards[guard]? = some held :=
    ⟨_, List.getElem?_eq_getElem (hsound.lt_length halive)⟩
  constructor
  case functions =>
    refine hsound.functions.keeps fun func => ?_
    have hspends := count_set_add hheld none func
    have hcalled : ({ ledger with automatic, dynamic }.destroy guard).called =
        ledger.called ++ held.toList := by
      simp only [called, Ledger.destroy, List.filterMap_append, hheld, Option.join_some]
      cases held <;> rfl
    rw [hcalled, List.count_append]
    simp only [Ledger.destroy, Option.toList_none, List.count_nil] at hspends ⊢
    omega
  case guards =>
    have hlength : ({ ledger with automatic, dynamic }.destroy guard).guards.length =
        ledger.guards.length := List.length_set ..
    rw [hlength]
    refine hsound.guards.keeps fun other => ?_
    have hsum := hcount other
    simp only [alive, gone, Ledger.destroy, List.map_append, List.map_cons, List.map_nil,
      List.count_append] at hsum ⊢
    omega
  case holders =>
    intro other func hholds
    have hne : guard ≠ other := by
      rintro rfl
      rw [Ledger.destroy, List.getElem?_set_self', hheld] at hholds
      cases hholds
    have hbefore : ledger.guards[other]? = some (some func) := by
      rwa [Ledger.destroy, List.getElem?_set_ne hne] at hholds
    have hpos := List.count_pos_iff.mpr (hsound.holders other func hbefore)
    rw [← hcount other, List.count_singleton, if_neg (by simpa using hne)] at hpos
    exact List.count_pos_iff.mp hpos
  case order => exact horder

theorem Next.sound (hnext : ledger.Next next) (hsound : ledger.Sound) : next.Sound := by
  cases hnext with
  | stays => exact hsound
  | declares hborn =>
      refine hsound.born hborn (fun other => ?_) (List.pairwise_cons.mpr ⟨?_, hsound.order⟩)
      · simp only [alive, hborn.placed.2.1, List.cons_append, List.count_cons, List.count_append,
          List.count_nil]
        omega
      · exact fun other hother => hsound.lt_length (List.mem_append_left _ hother)
  | allocates hborn =>
      refine hsound.born hborn (fun other => ?_) (hborn.placed.1 ▸ hsound.order)
      simp only [alive, hborn.placed.1, List.count_append]
      omega
  | destroys guard rest hautomatic =>
      have horder := hsound.order
      rw [hautomatic] at horder
      refine hsound.destroy (fun other => ?_) horder.of_cons
      simp only [alive, hautomatic, List.cons_append, List.count_cons, List.count_nil,
        List.count_append]
      omega
  | releases guard hdynamic =>
      refine hsound.destroy (fun other => ?_) hsound.order
      have herase := (List.perm_cons_erase hdynamic).count_eq other
      simp only [alive, List.count_append, List.count_cons, List.count_nil] at herase ⊢
      omega

end Ledger

theorem start_sound : (machine.start.ledger).Sound where
  functions _ := rfl
  guards _ := rfl
  holders _ _ hholds := by cases hholds
  order := .nil

theorem reachable_sound (hstate : machine.Reachable state) : state.ledger.Sound := by
  induction hstate with
  | start => exact start_sound
  | step action _ hstep ih => exact (step_next hstep).sound ih

/-- Each function given to a guard is held by one guard, which is alive, and has
not been called, or it is held by none and has been called once. When no guard
is left all of them have been called. -/
structure CalledOnce (state : State) : Prop where
  custody : ∀ func < state.functions,
    (state.called.count func = 0 ∧ ∃ guard ∈ state.automatic ++ state.dynamic,
      ∀ other, state.guards[other]? = some (some func) ↔ other = guard) ∨
    (state.called.count func = 1 ∧ ∀ guard : Nat, state.guards[guard]? ≠ some (some func))
  known : ∀ func ∈ state.called, func < state.functions
  complete : state.automatic = [] → state.dynamic = [] →
    state.called.Perm (List.range state.functions)

theorem Ledger.Sound.calledOnce (hsound : state.ledger.Sound) : CalledOnce state := by
  have haccount : ∀ func, state.guards.count (some func) + state.called.count func =
      if func < state.functions then 1 else 0 := by
    intro func
    have hsum := hsound.functions func
    simp only [Finset.mem_range] at hsum
    exact hsum
  have hholder : ∀ {func guard : Nat}, state.guards[guard]? = some (some func) →
      0 < state.guards.count (some func) :=
    fun hguard => List.count_pos_iff.mpr (List.mem_of_getElem? hguard)
  constructor
  case custody =>
    intro func hfunc
    have hsum := haccount func
    rw [if_pos hfunc] at hsum
    by_cases hheld : state.guards.count (some func) = 0
    · refine Or.inr ⟨by omega, fun guard hguard => ?_⟩
      exact absurd (hholder hguard) (by omega)
    · refine Or.inl ⟨by omega, ?_⟩
      obtain ⟨guard, hguard⟩ :=
        List.mem_iff_getElem?.mp (List.count_pos_iff.mp (Nat.pos_of_ne_zero hheld))
      refine ⟨guard, hsound.holders guard func hguard, fun other => ⟨fun hother => ?_, ?_⟩⟩
      · exact index_eq_of_count_le_one (by omega) hother hguard
      · rintro rfl
        exact hguard
  case known =>
    intro func hcalled
    by_contra hnew
    have hsum := haccount func
    rw [if_neg hnew] at hsum
    exact List.count_eq_zero.mp (Nat.eq_zero_of_add_eq_zero_left hsum) hcalled
  case complete =>
    intro hautomatic hdynamic
    refine List.perm_iff_count.mpr fun func => ?_
    have hunheld : state.guards.count (some func) = 0 := by
      refine List.count_eq_zero.mpr fun hmem => ?_
      obtain ⟨guard, hguard⟩ := List.mem_iff_getElem?.mp hmem
      have halive := hsound.holders guard func hguard
      simp [Ledger.alive, State.ledger, hautomatic, hdynamic] at halive
    have hsum := haccount func
    rw [hunheld, Nat.zero_add] at hsum
    rw [hsum, List.nodup_range.count]
    simp only [List.mem_range]

/-- The older guard is alive, and the younger one is alive or was destroyed; or
both were destroyed, the younger one first. -/
def Ledger.Nested (older younger : Nat) (ledger : Ledger) : Prop :=
  (older ∈ ledger.automatic ∧ (younger ∈ ledger.automatic ∨ younger ∈ ledger.gone)) ∨
    Precedes ledger.gone younger older

namespace Ledger

variable {ledger made next : Ledger} {older younger : Nat}

theorem Nested.keeps (hnested : ledger.Nested older younger) (hlt : older < younger)
    (hsound : ledger.Sound) (hnext : ledger.Next next) : next.Nested older younger := by
  cases hnext with
  | stays => exact hnested
  | declares hborn =>
      unfold Nested gone at *
      rw [hborn.placed.2.2]
      exact hnested.imp_left fun ⟨holder, hyounger⟩ =>
        ⟨List.mem_cons_of_mem _ holder, hyounger.imp_left (List.mem_cons_of_mem _)⟩
  | allocates hborn =>
      unfold Nested gone at *
      rwa [hborn.placed.1, hborn.placed.2.2]
  | destroys guard rest hautomatic =>
      have horder := hsound.order
      unfold Nested gone at *
      simp only [destroy, List.map_append, List.map_cons, List.map_nil]
      rw [hautomatic] at hnested horder
      rcases hnested with ⟨holder, hyounger⟩ | hprecedes
      · rcases List.mem_cons.mp holder with rfl | holder
        · -- The younger one cannot be alive, or it would be in front.
          have hdead : younger ∉ older :: rest := by
            rintro (_ | ⟨_, hrest⟩)
            · exact absurd hlt (Nat.lt_irrefl _)
            · exact absurd (List.rel_of_pairwise_cons horder hrest) (Nat.lt_asymm hlt)
          exact Or.inr (.of_mem_of_mem (hyounger.resolve_left hdead) List.mem_cons_self)
        · refine Or.inl ⟨holder, ?_⟩
          rcases hyounger with hyounger | hgone
          · rcases List.mem_cons.mp hyounger with rfl | hyounger
            · exact Or.inr (List.mem_append_right _ List.mem_cons_self)
            · exact Or.inl hyounger
          · exact Or.inr (List.mem_append_left _ hgone)
      · exact Or.inr (hprecedes.append_right _)
  | releases guard hdynamic =>
      unfold Nested gone at *
      simp only [destroy, List.map_append, List.map_cons, List.map_nil]
      exact hnested.imp (And.imp_right (Or.imp_right (List.mem_append_left _)))
        fun hprecedes => hprecedes.append_right _

theorem Nested.precedes (hnested : ledger.Nested older younger) (hsound : ledger.Sound)
    (hgone : older ∈ ledger.gone) : Precedes ledger.gone younger older := by
  refine hnested.resolve_left fun ⟨holder, _⟩ => ?_
  have halive : 0 < ledger.alive.count older :=
    List.count_pos_iff.mpr (List.mem_append_left _ holder)
  exact List.count_eq_zero.mp (hsound.guards.of_held halive).2 hgone

end Ledger

/-- Of two guards in blocks of the program, the one constructed later is
destroyed first, its function called first, in whatever blocks they are and
however these are left. -/
theorem last_in_first_out {older younger : Nat} (hstate : machine.Reachable state)
    (holder : older ∈ state.automatic) (hyounger : younger ∈ state.automatic)
    (hlt : older < younger) (actions : List Action) :
    machine.Along (fun later => older ∈ later.destroyed.map Prod.fst →
      Precedes (later.destroyed.map Prod.fst) younger older) state actions := by
  have hsound := reachable_sound hstate
  have hnested : state.ledger.Nested older younger := Or.inl ⟨holder, Or.inl hyounger⟩
  refine Machine.along_of_invariant
    (fun later => later.ledger.Sound ∧ later.ledger.Nested older younger) ?_
    (fun later hlater hgone => hlater.2.precedes hlater.1 hgone) ⟨hsound, hnested⟩
  intro before action after hbefore hstep
  have hnext := step_next hstep
  exact ⟨hnext.sound hbefore.1, hbefore.2.keeps hlt hbefore.1 hnext⟩

/-- A function with two guards that is left by an exception. -/
theorem last_in_first_out_raise :
    machine.Along (fun later => 0 ∈ later.destroyed.map Prod.fst →
        Precedes (later.destroyed.map Prod.fst) 1 0)
      { guards := [some 0, some 1], regions := [.block false [1], .block true [0]], functions := 2 }
      [.raise, .proceed, .leave, .proceed, .proceed, .proceed, .proceed] :=
  last_in_first_out
    (.exec .start [.enter true, .declare true, .enter false, .declare true] rfl)
    (by decide) (by decide) (by decide) _

end Tang.Defer
