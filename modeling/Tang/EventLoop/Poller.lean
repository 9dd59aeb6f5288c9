import Mathlib.Logic.Function.Basic
import Tang.EventLoop.Timers

/-! # The epoll poller

`fd_to_source_` beside the kernel's interest set. `epoll_ctl` fails where the
kernel has to refuse, and wherever the run lets it fail. What `get_handle()` of
a source returns is read anew by every call, so it is an argument here.
-/

namespace Tang.EventLoop

/-- A `uint32_t` of event flags. -/
abbrev Mask := BitVec 32

namespace EventType

def read : Mask := 1
def write : Mask := 2
def error : Mask := 4

end EventType

namespace Epoll

def epollIn : Mask := 0x1
def epollOut : Mask := 0x4
def epollErr : Mask := 0x8
def epollEt : Mask := 0x80000000

end Epoll

open EventType Epoll

def toEpollEvents (events : Mask) : Mask :=
  (if events &&& read ≠ 0 then epollIn else 0) |||
    (if events &&& write ≠ 0 then epollOut else 0) |||
      (if events &&& error ≠ 0 then epollErr else 0) ||| epollEt

def fromEpollEvents (events : Mask) : Mask :=
  (if events &&& epollIn ≠ 0 then read else 0) |||
    (if events &&& epollOut ≠ 0 then write else 0) |||
      (if events &&& epollErr ≠ 0 then error else 0)

/-- `event`: a source and what happened to it. -/
structure Event (Source : Type) where
  source : Source
  events : Mask
  deriving DecidableEq

/-- The file descriptors the kernel watches, and for what. -/
abbrev Interest := Int → Option Mask

namespace Interest

/-- `epoll_ctl` with `EPOLL_CTL_ADD`: refused for a descriptor that is watched. -/
def add (interest : Interest) (fd : Int) (mask : Mask) (fails : Bool) : Option Interest :=
  if fails ∨ (interest fd).isSome then none else some (Function.update interest fd (some mask))

/-- `epoll_ctl` with `EPOLL_CTL_MOD`. -/
def modify (interest : Interest) (fd : Int) (mask : Mask) (fails : Bool) : Option Interest :=
  if fails ∨ (interest fd).isNone then none else some (Function.update interest fd (some mask))

/-- `epoll_ctl` with `EPOLL_CTL_DEL`. -/
def delete (interest : Interest) (fd : Int) (fails : Bool) : Option Interest :=
  if fails ∨ (interest fd).isNone then none else some (Function.update interest fd none)

end Interest

/-- `epoll_event_poller`: whether `epoll_create1` succeeded, `fd_to_source_`, and
the interest set of its epoll instance. -/
structure Poller (Source : Type) where
  opened : Bool
  sources : Int → Option Source
  interest : Interest

namespace Poller

variable {Source : Type}

def create (opened : Bool) : Poller Source := ⟨opened, fun _ => none, fun _ => none⟩

/-- The tests every call starts with: a source, an epoll instance, a handle. -/
def admits (poller : Poller Source) (source : Option Source) (fd : Int) : Bool :=
  source.isSome && poller.opened && fd != -1

def registerEvent (poller : Poller Source) (source : Option Source) (fd : Int) (events : Mask)
    (fails : Bool) : Poller Source × Bool :=
  if poller.admits source fd then
    match poller.interest.add fd (toEpollEvents events) fails with
    | some interest =>
        ({ poller with
            interest := interest, sources := Function.update poller.sources fd source }, true)
    | none => (poller, false)
  else (poller, false)

def modifyEvent (poller : Poller Source) (source : Option Source) (fd : Int) (events : Mask)
    (fails : Bool) : Poller Source × Bool :=
  if poller.admits source fd ∧ (poller.sources fd).isSome then
    match poller.interest.modify fd (toEpollEvents events) fails with
    | some interest => ({ poller with interest := interest }, true)
    | none => (poller, false)
  else (poller, false)

def deleteEvent (poller : Poller Source) (source : Option Source) (fd : Int) (fails : Bool) :
    Poller Source × Bool :=
  if poller.admits source fd ∧ (poller.sources fd).isSome then
    match poller.interest.delete fd fails with
    | some interest =>
        ({ poller with
            interest := interest, sources := Function.update poller.sources fd none }, true)
    | none => (poller, false)
  else (poller, false)

/-- The timeout `wait` passes to `epoll_wait`: -1, or the `int` a count of
milliseconds is cut to. -/
def waitTime (timeout : Int) : Int :=
  if timeout = maxTimeout then -1 else timeout.bmod (2 ^ 32)

def maxEvents : Nat := 1024

/-- The batch `wait` makes of what `epoll_wait` reported. -/
def collect (poller : Poller Source) (entries : List (Int × Mask)) : List (Event Source) :=
  entries.filterMap fun entry =>
    (poller.sources entry.1).map fun source => ⟨source, fromEpollEvents entry.2⟩

section Calls

variable (poller : Poller Source) (source : Option Source) (fd : Int) (events : Mask)
  (fails : Bool)

/-- A call either fails and changes nothing, or does what it is for. -/
theorem registerEvent_cases :
    poller.registerEvent source fd events fails = (poller, false) ∨
      source.isSome ∧ poller.registerEvent source fd events fails =
        ({ poller with
            interest := Function.update poller.interest fd (some (toEpollEvents events)),
            sources := Function.update poller.sources fd source }, true) := by
  unfold registerEvent Interest.add
  split
  next hadmits =>
    simp only [admits, Bool.and_eq_true] at hadmits
    split
    next interest hinterest =>
      split at hinterest
      · cases hinterest
      · cases hinterest
        exact Or.inr ⟨hadmits.1.1, rfl⟩
    next => exact Or.inl rfl
  next => exact Or.inl rfl

theorem modifyEvent_cases :
    poller.modifyEvent source fd events fails = (poller, false) ∨
      (poller.sources fd).isSome ∧ poller.modifyEvent source fd events fails =
        ({ poller with
            interest := Function.update poller.interest fd (some (toEpollEvents events)) },
          true) := by
  unfold modifyEvent Interest.modify
  split
  next hknown =>
    split
    next interest hinterest =>
      split at hinterest
      · cases hinterest
      · cases hinterest
        exact Or.inr ⟨hknown.2, rfl⟩
    next => exact Or.inl rfl
  next => exact Or.inl rfl

theorem deleteEvent_cases :
    poller.deleteEvent source fd fails = (poller, false) ∨
      poller.deleteEvent source fd fails =
        ({ poller with
            interest := Function.update poller.interest fd none,
            sources := Function.update poller.sources fd none }, true) := by
  unfold deleteEvent Interest.delete
  split
  next =>
    split
    next interest hinterest =>
      split at hinterest
      · cases hinterest
      · cases hinterest
        exact Or.inr rfl
    next => exact Or.inl rfl
  next => exact Or.inl rfl

end Calls

/-- Every event of a batch is of a source that is registered. -/
theorem mem_collect {poller : Poller Source} {entries : List (Int × Mask)} {event : Event Source}
    (hevent : event ∈ poller.collect entries) :
    ∃ entry ∈ entries, poller.sources entry.1 = some event.source := by
  obtain ⟨entry, hentry, hmap⟩ := List.mem_filterMap.mp hevent
  obtain ⟨source, hsource, rfl⟩ := Option.map_eq_some_iff.mp hmap
  exact ⟨entry, hentry, hsource⟩

end Poller

end Tang.EventLoop
