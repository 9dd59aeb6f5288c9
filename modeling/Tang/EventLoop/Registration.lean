import Tang.EventLoop.Poller
import Tang.Foundation.History

/-! # The registration map and the kernel

`register_event`, `modify_event` and `delete_event` of one poller, called any
number of times for any sources. Several sources may share a descriptor: a call
keeps the low 32 bits of the handle, and every call looks at the descriptor
alone. The kernel's interest set changes through successful calls only, so no
registered descriptor is closed while it is watched.
-/

namespace Tang.EventLoop.Registration

open Foundation

variable {Source : Type}

/-- The `void*` that `get_handle` returns. -/
abbrev Handle := BitVec 64

/-- `static_cast<int>(reinterpret_cast<intptr_t>(handle))`. -/
def descriptor (handle : Handle) : Int := (handle.setWidth 32).toInt

/-- A call, with what `get_handle` returns to it and whether the kernel refuses
for a reason of its own. No source stands for `nullptr`. -/
inductive Call (Source : Type)
  | register (source : Option Source) (handle : Handle) (events : Mask) (fails : Bool)
  | modify (source : Option Source) (handle : Handle) (events : Mask) (fails : Bool)
  | delete (source : Option Source) (handle : Handle) (fails : Bool)
  deriving DecidableEq

/-- The poller a call leaves behind and what the call returns. -/
def perform (poller : Poller Source) : Call Source → Poller Source × Bool
  | .register source handle events fails =>
      poller.registerEvent source (descriptor handle) events fails
  | .modify source handle events fails =>
      poller.modifyEvent source (descriptor handle) events fails
  | .delete source handle fails => poller.deleteEvent source (descriptor handle) fails

/-- The calls made on a poller whose `epoll_create1` succeeded or not. -/
def machine (Source : Type) (opened : Bool) : Machine (Poller Source) (Call Source) where
  start := .create opened
  step poller call := some (perform poller call).1

/-- The calls made so far, each with what it returned. -/
abbrev Log (Source : Type) := List (Call Source × Bool)

def record (log : Log Source) (poller : Poller Source) (call : Call Source)
    (_ : Poller Source) : Log Source :=
  log ++ [(call, (perform poller call).2)]

abbrev recorded (Source : Type) (opened : Bool) :
    Machine (Poller Source × Log Source) (Call Source) :=
  (machine Source opened).recording [] record

/-- The source of a successful `register_event` for the descriptor. -/
def registered (fd : Int) : Call Source × Bool → Option Source
  | (.register source handle _ _, true) => if descriptor handle = fd then source else none
  | _ => none

/-- The source of the last successful `register_event` for the descriptor. -/
def lastRegistered (log : Log Source) (fd : Int) : Option Source :=
  (log.filterMap (registered fd)).getLast?

/-- The keys of `fd_to_source_` are the descriptors in the interest set, each
mapped to the source that was registered for it last. -/
structure Mirrors (watched : Poller Source × Log Source) : Prop where
  keys : ∀ fd, (watched.1.sources fd).isSome = (watched.1.interest fd).isSome
  latest : ∀ fd source, watched.1.sources fd = some source →
    lastRegistered watched.2 fd = some source

/-- A call that returns false leaves the map and the interest set alone. -/
def RefusedUnchanged (watched : Poller Source × Log Source) (call : Call Source)
    (after : Poller Source × Log Source) : Prop :=
  (perform watched.1 call).2 = false →
    after.1.sources = watched.1.sources ∧ after.1.interest = watched.1.interest

@[simp] theorem lastRegistered_append (log : Log Source) (entry : Call Source × Bool) (fd : Int) :
    lastRegistered (log ++ [entry]) fd = (registered fd entry).or (lastRegistered log fd) := by
  cases hentry : registered fd entry <;> simp [lastRegistered, hentry]

@[simp] theorem registered_refused (fd : Int) (call : Call Source) :
    registered fd (call, false) = none := by
  cases call <;> rfl

namespace Mirrors

variable {poller : Poller Source} {log : Log Source}

theorem refused (hmirrors : Mirrors (poller, log)) (call : Call Source) :
    Mirrors (poller, log ++ [(call, false)]) where
  keys := hmirrors.keys
  latest := by simpa using hmirrors.latest

theorem register (hmirrors : Mirrors (poller, log)) {source : Option Source}
    (hsource : source.isSome) (handle : Handle) (events : Mask) (fails : Bool) :
    Mirrors ({ poller with
        interest := Function.update poller.interest (descriptor handle)
          (some (toEpollEvents events)),
        sources := Function.update poller.sources (descriptor handle) source },
      log ++ [(.register source handle events fails, true)]) := by
  constructor
  case keys =>
    intro fd
    by_cases hfd : fd = descriptor handle
    · subst hfd
      simpa using hsource
    · simpa [hfd] using hmirrors.keys fd
  case latest =>
    intro fd found hfound
    by_cases hfd : fd = descriptor handle
    -- a source registered before under the descriptor is forgotten
    · subst hfd
      have hmapped : source = some found := by simpa using hfound
      simp [registered, hmapped]
    · have hkept : poller.sources fd = some found := by simpa [hfd] using hfound
      simpa [registered, Ne.symm hfd] using hmirrors.latest fd found hkept

theorem modify (hmirrors : Mirrors (poller, log)) (source : Option Source) {handle : Handle}
    (hknown : (poller.sources (descriptor handle)).isSome) (events : Mask) (fails : Bool) :
    Mirrors ({ poller with
        interest := Function.update poller.interest (descriptor handle)
          (some (toEpollEvents events)) },
      log ++ [(.modify source handle events fails, true)]) := by
  constructor
  case keys =>
    intro fd
    by_cases hfd : fd = descriptor handle
    · subst hfd
      simpa using hknown
    · simpa [hfd] using hmirrors.keys fd
  case latest => simpa [registered] using hmirrors.latest

theorem delete (hmirrors : Mirrors (poller, log)) (source : Option Source) (handle : Handle)
    (fails : Bool) :
    Mirrors ({ poller with
        interest := Function.update poller.interest (descriptor handle) none,
        sources := Function.update poller.sources (descriptor handle) none },
      log ++ [(.delete source handle fails, true)]) := by
  constructor
  case keys =>
    intro fd
    by_cases hfd : fd = descriptor handle
    · simp [hfd]
    · simpa [hfd] using hmirrors.keys fd
  case latest =>
    intro fd found hfound
    by_cases hfd : fd = descriptor handle
    · simp [hfd] at hfound
    · have hkept : poller.sources fd = some found := by simpa [hfd] using hfound
      simpa [registered] using hmirrors.latest fd found hkept

theorem perform (hmirrors : Mirrors (poller, log)) (call : Call Source) :
    Mirrors ((Registration.perform poller call).1, record log poller call
      (Registration.perform poller call).1) := by
  cases call with
  | register source handle events fails =>
      simp only [record, Registration.perform]
      rcases poller.registerEvent_cases source (descriptor handle) events fails with
        hrefused | ⟨hsource, hdone⟩
      · rw [hrefused]
        exact hmirrors.refused _
      · rw [hdone]
        exact hmirrors.register hsource handle events fails
  | modify source handle events fails =>
      simp only [record, Registration.perform]
      rcases poller.modifyEvent_cases source (descriptor handle) events fails with
        hrefused | ⟨hknown, hdone⟩
      · rw [hrefused]
        exact hmirrors.refused _
      · rw [hdone]
        exact hmirrors.modify source hknown events fails
  | delete source handle fails =>
      simp only [record, Registration.perform]
      rcases poller.deleteEvent_cases source (descriptor handle) fails with hrefused | hdone
      · rw [hrefused]
        exact hmirrors.refused _
      · rw [hdone]
        exact hmirrors.delete source handle fails

end Mirrors

/-- A call that returns false returns the poller it was made on. -/
theorem perform_refused (poller : Poller Source) (call : Call Source)
    (hrefused : (perform poller call).2 = false) : (perform poller call).1 = poller := by
  cases call with
  | register source handle events fails =>
      rcases poller.registerEvent_cases source (descriptor handle) events fails with
        hcase | ⟨_, hcase⟩
      · simp [perform, hcase]
      · simp [perform, hcase] at hrefused
  | modify source handle events fails =>
      rcases poller.modifyEvent_cases source (descriptor handle) events fails with
        hcase | ⟨_, hcase⟩
      · simp [perform, hcase]
      · simp [perform, hcase] at hrefused
  | delete source handle fails =>
      rcases poller.deleteEvent_cases source (descriptor handle) fails with hcase | hcase
      · simp [perform, hcase]
      · simp [perform, hcase] at hrefused

/-- Whatever calls are made and whichever of them the kernel refuses, the
registration map mirrors the interest set after each of them, and a call that
returns false changes neither. -/
theorem mirrors_along (opened : Bool) (calls : List (Call Source)) :
    (recorded Source opened).Along Mirrors (.create opened, []) calls ∧
      (recorded Source opened).Throughout RefusedUnchanged (.create opened, []) calls := by
  constructor
  · apply Machine.along_of_invariant Mirrors
    · rintro ⟨poller, log⟩ call after hmirrors hstep
      cases hstep
      exact hmirrors.perform call
    · exact fun _ hmirrors => hmirrors
    · exact ⟨fun _ => rfl, fun _ _ hsource => by cases hsource⟩
  · apply Machine.throughout_of_step
    rintro ⟨poller, log⟩ call after hstep hrefused
    cases hstep
    simp [perform_refused poller call hrefused]

end Tang.EventLoop.Registration
