import Mathlib.Data.List.Nodup
import Tang.Foundation.Machine

/-! # Task objects and the frames they own

The special members of `task<T>` and `task<void>`, `run()` and `await_resume`,
over task objects that live outside all coroutines or inside their frames: as
local variables of the body, as parameters, and in the result. Destroying a
frame destroys the task objects in it, which destroys the frames they own, while
the call that began it is still under way. `go` and `spawn` are a creation, a
call of `run()` and a move.

Which coroutines are created, where objects live and what is called on them is
the choice of the actions, so the runs cover every program.
-/

namespace Tang.TaskObjects

open Foundation

/-- A coroutine frame, by the order of creation. -/
abbrev Handle := Nat

/-- Where a task object lives. -/
inductive Home
  | outside
  /-- A local variable in the body of a coroutine. -/
  | body (frame : Handle)
  /-- A parameter of a coroutine, copied into its frame. -/
  | parameter (frame : Handle)
  /-- `promise_type::result`. -/
  | result (frame : Handle)
  deriving DecidableEq

/-- The frame that the object is part of. -/
@[simp] def Home.frame? : Home → Option Handle
  | .outside => none
  | .body frame | .parameter frame | .result frame => some frame

/-- `handle` stays what it was when the object is destroyed: the destructor does
not write it. -/
structure Object where
  home : Home
  handle : Option Handle
  alive : Bool
  deriving DecidableEq

/-- What the destructors under way have still to do. -/
inductive Unwinding
  /-- `~task` of the object. -/
  | dying (index : Nat)
  /-- `handle.destroy()`. -/
  | destroying (handle : Handle)
  deriving DecidableEq

/-- The call that waits for the destructors. -/
inductive Call
  /-- `operator=(task&& other)`, in `handle.destroy()`. -/
  | assign (target source : Nat)
  /-- `run()` on a finished coroutine, in `handle.destroy()`. -/
  | run (index : Nat)
  /-- A body that ended, while its local variables are destroyed. -/
  | finish (frame : Handle)
  deriving DecidableEq

/-- `created` coroutines were created; the bodies in `finished` have ended. The
objects are listed by construction. `unwinding` and `call` are the call stack.
History: `destroyed` has every call of `destroy()` by a task object, the last
one first. -/
structure State where
  created : Nat := 0
  finished : List Handle := []
  destroyed : List Handle := []
  objects : List Object := []
  unwinding : List Unwinding := []
  call : Option Call := none
  deriving DecidableEq

inductive Op
  /-- A coroutine is called; `get_return_object` makes the task. -/
  | create (home : Home)
  /-- `task(task&& other)` -/
  | move (source : Nat) (home : Home)
  /-- `operator=(task&& other)` -/
  | assign (target source : Nat)
  | run (index : Nat)
  /-- The program destroys an object. -/
  | drop (index : Nat)
  /-- The body of a coroutine ends, and may return a task by moving it. -/
  | finish (frame : Handle) (returned : Option Nat)
  /-- `await_resume` moves the result into a new object. -/
  | awaitResume (index : Nat) (home : Home)
  deriving DecidableEq

inductive Action
  | op (op : Op)
  /-- The destructors under way go on, and in the end the call they are part of. -/
  | unwind
  deriving DecidableEq

namespace State

variable (state : State)

/-! ## Objects and frames -/

def aliveAt (index : Nat) : Bool := state.objects[index]?.any Object.alive

/-- What the memory of the object holds. -/
def handleOf (index : Nat) : Option Handle := state.objects[index]?.bind Object.handle

def homeOf (index : Nat) : Option Home := state.objects[index]?.map Object.home

/-- The program can name the object. The one in a result is private to the
promise. -/
def accessible (index : Nat) : Bool :=
  state.objects[index]?.any fun object =>
    object.alive && match object.home with
      | .outside | .body _ | .parameter _ => true
      | .result _ => false

/-- The body of the coroutine has not ended. -/
def active (frame : Handle) : Prop :=
  frame < state.created ∧ frame ∉ state.finished ∧ frame ∉ state.destroyed

instance (frame : Handle) : Decidable (state.active frame) := by
  unfold active
  infer_instance

/-- An object can be constructed there. -/
def admits : Home → Prop
  | .outside => True
  | .body frame => state.active frame
  | .parameter frame => frame < state.created ∧ frame ∉ state.destroyed
  | .result _ => False

instance : DecidablePred state.admits
  | .outside => inferInstanceAs (Decidable True)
  | .body frame => inferInstanceAs (Decidable (state.active frame))
  | .parameter _ => inferInstanceAs (Decidable (_ ∧ _))
  | .result _ => inferInstanceAs (Decidable False)

/-- The objects that live there, the oldest first. -/
def residents (home : Home) : List Nat :=
  (List.range state.objects.length).filter fun index =>
    state.aliveAt index && state.homeOf index == some home

/-- The objects that destroying the frame destroys: the local variables, the
promise, the parameters. -/
def contents (frame : Handle) : List Nat :=
  (state.residents (.body frame)).reverse ++ state.residents (.result frame) ++
    (state.residents (.parameter frame)).reverse

def construct (home : Home) (handle : Option Handle) : State :=
  { state with objects := state.objects ++ [⟨home, handle, true⟩] }

def setHandle (index : Nat) (handle : Option Handle) : State :=
  { state with objects := state.objects.modify index fun object => { object with handle } }

/-- `task(task&& other) : handle(other.handle) { other.handle = nullptr; }` -/
def moveTo (source : Nat) (home : Home) : State :=
  (state.construct home (state.handleOf source)).setHandle source none

/-- `~task() { if (handle) handle.destroy(); }` -/
def die (index : Nat) (rest : List Unwinding) : State :=
  { state with
    objects := state.objects.modify index fun object => { object with alive := false }
    unwinding := (state.handleOf index).toList.map .destroying ++ rest }

/-- `handle.destroy()`. It is undefined while the body of the coroutine is at
work; here it destroys the frame all the same. -/
def destroy (handle : Handle) (rest : List Unwinding) : State :=
  { state with
    destroyed := handle :: state.destroyed
    unwinding := (state.contents handle).map .dying ++ rest }

/-- The call begins with `handle.destroy()`, if there is a handle. -/
def engage (call : Call) (handle : Option Handle) : State :=
  { state with unwinding := handle.toList.map .destroying, call := some call }

/-- `return_value` moves the task that is returned into the result. -/
def deliver (frame : Handle) : Option Nat → State
  | some source => state.moveTo source (.result frame)
  | none => state

/-- The body has ended, and its local variables are about to be destroyed. -/
def endBody (frame : Handle) : State :=
  { state with
    unwinding := (state.residents (.body frame)).reverse.map .dying
    call := some (.finish frame) }

/-! ## Operations -/

/-- An operation, up to the point where it calls `handle.destroy()`. -/
def perform : Op → Option State
  | .create home =>
      if state.admits home then
        some { state.construct home (some state.created) with created := state.created + 1 }
      else none
  | .move source home =>
      if state.accessible source ∧ state.admits home then some (state.moveTo source home)
      else none
  | .assign target source =>
      if state.accessible target ∧ state.accessible source then
        -- if (this != &other)
        if target = source then some state
        else some (state.engage (.assign target source) (state.handleOf target))
      else none
  | .run index =>
      if state.accessible index then
        match state.handleOf index with
        | none => some state
        | some handle =>
            if handle ∈ state.finished then
              some (state.engage (.run index) (some handle))
            -- the coroutine is scheduled, and the task keeps the handle
            else some state
      else none
  | .drop index => if state.accessible index then some (state.die index []) else none
  | .finish frame returned =>
      if state.active frame ∧ ∀ source ∈ returned, state.accessible source then
        some ((state.deliver frame returned).endBody frame)
      else none
  | .awaitResume index home =>
      if state.accessible index ∧ state.admits home then
        match state.handleOf index with
        -- throws `logic_error`
        | none => some state
        | some frame =>
            match state.residents (.result frame) with
            | result :: _ => some (state.moveTo result home)
            -- no task was returned, or an exception is rethrown
            | [] => some state
      else none

/-- What a call does after `handle.destroy()`. The memory of the source is read
even if the object in it was destroyed. -/
def complete : Call → State
  | .assign target source =>
      { (state.setHandle target (state.handleOf source)).setHandle source none with call := none }
  | .run index => { state.setHandle index none with call := none }
  | .finish frame => { state with finished := frame :: state.finished, call := none }

def unwind : Option State :=
  match state.unwinding with
  | .dying index :: rest => some (state.die index rest)
  | .destroying handle :: rest => some (state.destroy handle rest)
  | [] => state.call.map state.complete

end State

/-- The program goes on when the destructors have returned. -/
def step (state : State) : Action → Option State
  | .op op => if state.unwinding = [] ∧ state.call = none then state.perform op else none
  | .unwind => state.unwind

def machine : Machine State Action where
  start := {}
  step := step

/-! ## What the updates change -/

namespace State

variable {state : State} {index other : Nat} {handle : Option Handle} {home : Home}
  {rest : List Unwinding}

theorem lt_of_aliveAt (halive : state.aliveAt index) : index < state.objects.length := by
  by_contra hge
  simp [aliveAt, List.getElem?_eq_none (Nat.le_of_not_lt hge)] at halive

theorem aliveAt_of_accessible (haccessible : state.accessible index) : state.aliveAt index := by
  simp only [accessible, aliveAt, Option.any_eq_true, Bool.and_eq_true] at haccessible ⊢
  obtain ⟨object, hobject, halive, _⟩ := haccessible
  exact ⟨object, hobject, halive⟩

@[simp] theorem length_construct :
    (state.construct home handle).objects.length = state.objects.length + 1 := by
  simp [construct]

theorem aliveAt_construct_self :
    (state.construct home handle).aliveAt state.objects.length := by
  simp [construct, aliveAt]

theorem handleOf_construct_self :
    (state.construct home handle).handleOf state.objects.length = handle := by
  simp [construct, handleOf]

theorem homeOf_construct_self :
    (state.construct home handle).homeOf state.objects.length = some home := by
  simp [construct, homeOf]

/-- The other objects are as they were. -/
theorem getElem?_construct (hne : index ≠ state.objects.length) :
    (state.construct home handle).objects[index]? = state.objects[index]? := by
  rcases Nat.lt_or_gt_of_ne hne with hlt | hgt
  · exact List.getElem?_append_left hlt
  · rw [List.getElem?_eq_none (Nat.le_of_lt hgt)]
    exact List.getElem?_eq_none (Nat.le_trans (Nat.le_of_eq length_construct) hgt)

theorem aliveAt_construct (hne : index ≠ state.objects.length) :
    (state.construct home handle).aliveAt index = state.aliveAt index := by
  rw [aliveAt, getElem?_construct hne, aliveAt]

theorem handleOf_construct (hne : index ≠ state.objects.length) :
    (state.construct home handle).handleOf index = state.handleOf index := by
  rw [handleOf, getElem?_construct hne, handleOf]

theorem homeOf_construct (hne : index ≠ state.objects.length) :
    (state.construct home handle).homeOf index = state.homeOf index := by
  rw [homeOf, getElem?_construct hne, homeOf]

@[simp] theorem length_setHandle :
    (state.setHandle index handle).objects.length = state.objects.length := by
  simp [setHandle]

@[simp] theorem aliveAt_setHandle :
    (state.setHandle index handle).aliveAt other = state.aliveAt other := by
  simp only [setHandle, aliveAt, List.getElem?_modify]
  split <;> simp [Option.any_map]

@[simp] theorem homeOf_setHandle :
    (state.setHandle index handle).homeOf other = state.homeOf other := by
  simp only [setHandle, homeOf, List.getElem?_modify]
  split <;> simp [Function.comp_def]

theorem handleOf_setHandle_self (hlt : index < state.objects.length) :
    (state.setHandle index handle).handleOf index = handle := by
  simp [setHandle, handleOf, List.getElem?_eq_getElem hlt]

theorem handleOf_setHandle (hne : other ≠ index) :
    (state.setHandle index handle).handleOf other = state.handleOf other := by
  simp [setHandle, handleOf, Ne.symm hne]

@[simp] theorem length_die :
    (state.die index rest).objects.length = state.objects.length := by
  simp [die]

theorem aliveAt_die_self : (state.die index rest).aliveAt index = false := by
  simp [die, aliveAt, Option.any_map]

theorem aliveAt_die (hne : other ≠ index) :
    (state.die index rest).aliveAt other = state.aliveAt other := by
  simp [die, aliveAt, Ne.symm hne]

@[simp] theorem handleOf_die : (state.die index rest).handleOf other = state.handleOf other := by
  simp only [die, handleOf, List.getElem?_modify]
  cases state.objects[other]? with
  | none => rfl
  | some object => split <;> rfl

@[simp] theorem homeOf_die : (state.die index rest).homeOf other = state.homeOf other := by
  simp only [die, homeOf, List.getElem?_modify]
  split <;> simp [Function.comp_def]

theorem mem_residents : index ∈ state.residents home ↔
    state.aliveAt index ∧ state.homeOf index = some home := by
  simp only [residents, List.mem_filter, List.mem_range, Bool.and_eq_true, beq_iff_eq]
  exact ⟨fun hmem => hmem.2, fun hmem => ⟨lt_of_aliveAt hmem.1, hmem⟩⟩

theorem mem_contents {frame : Handle} : index ∈ state.contents frame ↔
    state.aliveAt index ∧ ∃ home, state.homeOf index = some home ∧ home.frame? = some frame := by
  simp only [contents, List.mem_append, List.mem_reverse, mem_residents]
  constructor
  · rintro ((⟨halive, hhome⟩ | ⟨halive, hhome⟩) | ⟨halive, hhome⟩)
    · exact ⟨halive, _, hhome, rfl⟩
    · exact ⟨halive, _, hhome, rfl⟩
    · exact ⟨halive, _, hhome, rfl⟩
  · rintro ⟨halive, home, hhome, hframe⟩
    cases home with
    | outside => cases hframe
    | body owner => exact .inl (.inl ⟨halive, hhome.trans (by simpa using hframe)⟩)
    | result owner => exact .inl (.inr ⟨halive, hhome.trans (by simpa using hframe)⟩)
    | parameter owner => exact .inr ⟨halive, hhome.trans (by simpa using hframe)⟩

theorem nodup_residents : (state.residents home).Nodup :=
  List.nodup_range.filter _

theorem disjoint_residents {first second : Home} (hne : first ≠ second) :
    List.Disjoint (state.residents first) (state.residents second) := by
  intro index hfirst hsecond
  have hhome := (mem_residents.mp hfirst).2.symm.trans (mem_residents.mp hsecond).2
  exact hne (Option.some.inj hhome)

/-- Destroying a frame destroys each object in it once. -/
theorem nodup_contents (frame : Handle) : (state.contents frame).Nodup := by
  refine ((List.nodup_reverse.mpr nodup_residents).append nodup_residents ?_).append
    (List.nodup_reverse.mpr nodup_residents) ?_
  · exact List.disjoint_reverse_left.mpr (disjoint_residents (by simp))
  · rw [List.disjoint_append_left, List.disjoint_reverse_left]
    simp only [List.disjoint_reverse_right]
    exact ⟨disjoint_residents (by simp), disjoint_residents (by simp)⟩

end State

end Tang.TaskObjects
