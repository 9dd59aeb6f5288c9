import Mathlib.Algebra.BigOperators.Group.Finset.Basic
import Tang.Foundation.Custody
import Tang.TaskObjects.Basic

/-! # What task objects own and what destructors come to

A task object owns the frame it has the handle of, until `destroy()` is called
on it. A move keeps the account of the owners, and a destructor trades an owner
for a frame that is about to be destroyed. What the destructors under way come to
never grows while nothing is constructed.
-/

namespace Tang.TaskObjects

open Foundation

/-! ## What a call must not destroy -/

/-- The object whose frame the call destroys. -/
def Call.spent? : Call → Option Nat
  | .assign target _ => some target
  | .run index => some index
  | .finish _ => none

/-- What the destructors must not come to while the call is under way: the
objects that are used after `handle.destroy()`, and the frame whose body ends. -/
def Call.forbids : Call → List Unwinding
  | .assign target source => [.dying target, .dying source]
  | .run index => [.dying index]
  | .finish frame => [.destroying frame]

theorem Call.spent_mem_forbids {call : Call} {index : Nat} (hspent : call.spent? = some index) :
    .dying index ∈ call.forbids := by
  cases call <;> simp_all [spent?, forbids]

namespace State

/-- What the one destructor does comes to the other: an object destroys the frame
it has the handle of, and a frame the objects in it. -/
inductive Reaches (state : State) : Unwinding → Unwinding → Prop
  | refl (action : Unwinding) : state.Reaches action action
  | owns {index : Nat} {handle : Handle} {last : Unwinding}
      (hhandle : state.handleOf index = some handle)
      (hreaches : state.Reaches (.destroying handle) last) : state.Reaches (.dying index) last
  | holds {handle : Handle} {index : Nat} {last : Unwinding} (hmem : index ∈ state.contents handle)
      (hreaches : state.Reaches (.dying index) last) : state.Reaches (.destroying handle) last

/-- The destructor comes to nothing that the call forbids. -/
def Spares (state : State) (call : Call) (action : Unwinding) : Prop :=
  ∀ forbidden ∈ call.forbids, ¬ state.Reaches action forbidden

end State

/-! ## The account of the frames -/

namespace Unwinding

@[simp] def object? : Unwinding → Option Nat
  | .dying index => some index
  | .destroying _ => none

@[simp] def handle? : Unwinding → Option Handle
  | .dying _ => none
  | .destroying handle => some handle

end Unwinding

/-- The frames about to be destroyed. -/
def doomed (unwinding : List Unwinding) : List Handle := unwinding.filterMap Unwinding.handle?

/-- The objects about to be destroyed. -/
def dying (unwinding : List Unwinding) : List Nat := unwinding.filterMap Unwinding.object?

@[simp] theorem doomed_append (above below : List Unwinding) :
    doomed (above ++ below) = doomed above ++ doomed below := List.filterMap_append

@[simp] theorem dying_append (above below : List Unwinding) :
    dying (above ++ below) = dying above ++ dying below := List.filterMap_append

@[simp] theorem doomed_map_destroying (handles : List Handle) :
    doomed (handles.map .destroying) = handles := by
  simp [doomed, List.filterMap_map, Function.comp_def]

@[simp] theorem dying_map_destroying (handles : List Handle) :
    dying (handles.map .destroying) = [] := by
  simp [dying]

@[simp] theorem doomed_map_dying (objects : List Nat) : doomed (objects.map .dying) = [] := by
  simp [doomed]

@[simp] theorem dying_map_dying (objects : List Nat) :
    dying (objects.map .dying) = objects := by
  simp [dying, List.filterMap_map, Function.comp_def]

namespace State

variable (state : State)

/-- The handle that an object owns a frame by. The one that `destroy()` was
called on owns its frame no more. -/
def owned (index : Nat) : Option Handle :=
  if state.aliveAt index ∧ state.call.bind Call.spent? ≠ some index then state.handleOf index
  else none

/-- How many task objects own the frame. -/
def owners (handle : Handle) : Nat :=
  custodians (Finset.range state.objects.length) state.owned handle

/-- Every frame is owned once, or about to be destroyed once, or destroyed once. -/
def Balanced : Prop :=
  Accounted (Finset.range state.created)
    (fun handle => state.owners handle + (doomed state.unwinding).count handle)
    fun handle => state.destroyed.count handle

/-! ## What one object owns -/

variable {state} {next : State} {index : Nat} {new : Option Handle} {home : Home}
  {rest : List Unwinding}

theorem owned_of_alive (halive : state.aliveAt index)
    (hspent : state.call.bind Call.spent? ≠ some index) :
    state.owned index = state.handleOf index := if_pos ⟨halive, hspent⟩

theorem owned_of_spent (hspent : state.call.bind Call.spent? = some index) :
    state.owned index = none := if_neg fun howned => howned.2 hspent

theorem owned_of_not_alive (halive : state.aliveAt index = false) : state.owned index = none :=
  if_neg fun howned => by simp [halive] at howned

theorem owners_congr (state next : State) (hobjects : next.objects = state.objects)
    (hspent : next.call.bind Call.spent? = state.call.bind Call.spent?) (frame : Handle) :
    next.owners frame = state.owners frame := by
  have howned : next.owned = state.owned := by
    funext index
    rw [owned, owned, aliveAt, aliveAt, handleOf, handleOf, hobjects, hspent]
  rw [owners, owners, howned, hobjects]

/-- One object changes, and trades what it owns. -/
theorem owners_trade (hlength : next.objects.length = state.objects.length)
    (hlt : index < state.objects.length)
    (hothers : ∀ other, other ≠ index → next.owned other = state.owned other) (frame : Handle) :
    next.owners frame + (state.owned index).toList.count frame =
      state.owners frame + (next.owned index).toList.count frame := by
  unfold owners
  rw [hlength]
  exact custodians_replace (Finset.mem_range.mpr hlt) hothers frame

theorem owned_setHandle {other : Nat} (hne : other ≠ index) :
    (state.setHandle index new).owned other = state.owned other := by
  simp only [owned, aliveAt_setHandle, handleOf_setHandle hne]
  rfl

theorem owners_setHandle (new : Option Handle) (halive : state.aliveAt index)
    (hspent : state.call.bind Call.spent? ≠ some index) (frame : Handle) :
    (state.setHandle index new).owners frame + (state.handleOf index).toList.count frame =
      state.owners frame + new.toList.count frame := by
  have hlt := lt_of_aliveAt halive
  have hlength : (state.setHandle index new).objects.length = state.objects.length :=
    length_setHandle
  have htrade := owners_trade hlength hlt (fun _ => owned_setHandle) frame
  have hnew : (state.setHandle index new).owned index = new := by
    rw [owned_of_alive (aliveAt_setHandle.trans halive) hspent, handleOf_setHandle_self hlt]
  rwa [owned_of_alive halive hspent, hnew] at htrade

/-- The object that `destroy()` was called on owns nothing before and after. -/
theorem owners_setHandle_spent (hspent : state.call.bind Call.spent? = some index)
    (frame : Handle) : (state.setHandle index new).owners frame = state.owners frame := by
  unfold owners
  rw [length_setHandle]
  refine custodians_congr (fun other _ => ?_) frame
  by_cases heq : other = index
  · rw [heq, owned_of_spent hspent]
    exact owned_of_spent hspent
  · exact owned_setHandle heq

theorem owned_die {other : Nat} (hne : other ≠ index) :
    (state.die index rest).owned other = state.owned other := by
  simp only [owned, aliveAt_die hne, handleOf_die]
  rfl

theorem owners_die (rest : List Unwinding) (halive : state.aliveAt index)
    (hspent : state.call.bind Call.spent? ≠ some index) (frame : Handle) :
    (state.die index rest).owners frame + (state.handleOf index).toList.count frame =
      state.owners frame := by
  have hlength : (state.die index rest).objects.length = state.objects.length := length_die
  have htrade := owners_trade hlength (lt_of_aliveAt halive) (fun _ => owned_die) frame
  rwa [owned_of_alive halive hspent, owned_of_not_alive aliveAt_die_self] at htrade

theorem owners_construct (hcall : state.call = none) (frame : Handle) :
    (state.construct home new).owners frame = state.owners frame + new.toList.count frame := by
  have hspent : ∀ other, (state.construct home new).call.bind Call.spent? ≠ some other := by
    simp [construct, hcall]
  have hsame : ∀ other ∈ Finset.range state.objects.length,
      (state.construct home new).owned other = state.owned other := by
    intro other hmem
    have hne := (Finset.mem_range.mp hmem).ne
    simp only [owned, aliveAt_construct hne, handleOf_construct hne]
    rfl
  unfold owners
  rw [length_construct, ← custodians_congr hsame]
  unfold custodians
  rw [Finset.sum_range_succ, owned_of_alive aliveAt_construct_self (hspent _),
    handleOf_construct_self]

/-- A move takes from the source what it gives to the new object. -/
theorem owners_moveTo (hcall : state.call = none) (halive : state.aliveAt index)
    (frame : Handle) : (state.moveTo index home).owners frame = state.owners frame := by
  have hne := (lt_of_aliveAt halive).ne
  have hlive : (state.construct home (state.handleOf index)).aliveAt index :=
    (aliveAt_construct hne).trans halive
  have htaken := owners_setHandle none hlive (by simp [construct, hcall]) frame
  rw [handleOf_construct hne, owners_construct hcall] at htaken
  simp only [Option.toList_none, List.count_nil] at htaken
  unfold moveTo
  omega

/-- A call that destroys the frame of an object takes the frame from it. -/
theorem owners_engage (state next : State) (hobjects : next.objects = state.objects)
    (hcall : state.call = none) (hspent : next.call.bind Call.spent? = some index)
    (halive : state.aliveAt index) (frame : Handle) :
    next.owners frame + (state.handleOf index).toList.count frame = state.owners frame := by
  have hothers : ∀ other, other ≠ index → next.owned other = state.owned other := by
    intro other hne
    simp [owned, aliveAt, handleOf, hobjects, hspent, hcall, Ne.symm hne]
  have htrade := owners_trade (congrArg List.length hobjects) (lt_of_aliveAt halive) hothers frame
  rwa [owned_of_alive halive (by simp [hcall]), owned_of_spent hspent] at htrade

/-! ## What the destructors reach -/

/-- A step that adds no object to a frame adds nothing to what is reached. -/
theorem Reaches.mono {action last : Unwinding} (hreaches : next.Reaches action last)
    (hhandles : ∀ index, next.handleOf index = state.handleOf index)
    (hcontents : ∀ frame, next.contents frame ⊆ state.contents frame) :
    state.Reaches action last := by
  induction hreaches with
  | refl action => exact .refl action
  | owns hhandle _ ih => exact .owns ((hhandles _).symm.trans hhandle) ih
  | holds hmem _ ih => exact .holds (hcontents _ hmem) ih

theorem Spares.mono {call : Call} {action : Unwinding} (hspares : state.Spares call action)
    (hhandles : ∀ index, next.handleOf index = state.handleOf index)
    (hcontents : ∀ frame, next.contents frame ⊆ state.contents frame) :
    next.Spares call action :=
  fun forbidden hmem hreaches => hspares forbidden hmem (hreaches.mono hhandles hcontents)

section Moves

variable {source : Nat}

theorem handleOf_moveTo {other : Nat} (hsource : other ≠ source)
    (hnew : other ≠ state.objects.length) :
    (state.moveTo source home).handleOf other = state.handleOf other :=
  (handleOf_setHandle hsource).trans (handleOf_construct hnew)

theorem handleOf_moveTo_self (halive : state.aliveAt source) :
    (state.moveTo source home).handleOf source = none := by
  refine handleOf_setHandle_self ?_
  rw [length_construct]
  exact Nat.lt_succ_of_lt (lt_of_aliveAt halive)

theorem homeOf_moveTo_self : (state.moveTo source home).homeOf state.objects.length = some home :=
  homeOf_setHandle.trans homeOf_construct_self

/-- The objects that were there before the move live where they did. -/
theorem lives_moveTo {other : Nat} {place : Home} (hnew : other ≠ state.objects.length)
    (halive : (state.moveTo source home).aliveAt other)
    (hhome : (state.moveTo source home).homeOf other = some place) :
    state.aliveAt other ∧ state.homeOf other = some place := by
  rw [moveTo, aliveAt_setHandle, aliveAt_construct hnew] at halive
  rw [moveTo, homeOf_setHandle, homeOf_construct hnew] at hhome
  exact ⟨halive, hhome⟩

/-- Moving a task into the result of a frame opens no new way to the frame: the
new object is in the frame itself. -/
theorem Reaches.of_moveTo (halive : state.aliveAt source) {frame : Handle} {action : Unwinding}
    (hreaches : (state.moveTo source (.result frame)).Reaches action (.destroying frame)) :
    action = .dying state.objects.length ∨ state.Reaches action (.destroying frame) := by
  generalize hlast : Unwinding.destroying frame = last at hreaches ⊢
  induction hreaches with
  | refl action => exact .inr (.refl action)
  | @owns index handle _ hhandle _ ih =>
      by_cases hnew : index = state.objects.length
      · exact .inl (congrArg _ hnew)
      · have hne : index ≠ source := by
          rintro rfl
          rw [handleOf_moveTo_self halive] at hhandle
          cases hhandle
        rw [handleOf_moveTo hne hnew] at hhandle
        exact .inr (.owns hhandle ((ih hlast).resolve_left (by simp)))
  | @holds handle index _ hmem _ ih =>
      obtain ⟨hlive, place, hhome, hplace⟩ := mem_contents.mp hmem
      by_cases hnew : index = state.objects.length
      · rw [hnew, homeOf_moveTo_self] at hhome
        obtain rfl := Option.some.inj hhome
        obtain rfl := Option.some.inj hplace
        exact .inr (hlast ▸ .refl _)
      · obtain ⟨hlive, hhome⟩ := lives_moveTo hnew hlive hhome
        refine .inr (.holds (mem_contents.mpr ⟨hlive, place, hhome, hplace⟩) ?_)
        exact (ih hlast).resolve_left (by simpa using hnew)

end Moves

theorem contents_die (frame : Handle) :
    (state.die index rest).contents frame ⊆ state.contents frame := by
  intro other hmem
  rw [mem_contents, homeOf_die] at hmem
  obtain ⟨halive, hhome⟩ := hmem
  have hne : other ≠ index := by
    rintro rfl
    rw [aliveAt_die_self] at halive
    cases halive
  exact mem_contents.mpr ⟨(aliveAt_die hne).symm.trans halive, hhome⟩

end State

end Tang.TaskObjects
