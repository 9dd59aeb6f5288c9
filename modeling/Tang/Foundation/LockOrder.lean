import Mathlib.Data.Finset.Max
import Mathlib.Data.Fintype.Defs
import Mathlib.Logic.Relation
import Mathlib.Logic.Function.Basic
import Tang.Foundation.History

/-! # Lock order

Parties run code of their own, which calls operations; an operation acquires and
releases locks and may run code of the party in between, which calls operations
again. When every lock is ranked, and code that runs under locks calls only
operations whose locks rank higher, no party requests a lock it holds, the locks
are nested without a cycle, and no parties wait for each other.
-/

namespace Foundation

/-- A part of what a party still has to do. -/
inductive Job (Lock : Type)
  | acquire (lock : Lock)
  | release (lock : Lock)
  /-- Code of the party, which may call operations. -/
  | code
  deriving DecidableEq

namespace Job

variable {Lock : Type}

/-- The locks that a list of jobs acquires. -/
def acquires : List (Job Lock) → List Lock
  | [] => []
  | .acquire lock :: rest => lock :: acquires rest
  | .release _ :: rest | .code :: rest => acquires rest

theorem acquires_append (front back : List (Job Lock)) :
    acquires (front ++ back) = acquires front ++ acquires back := by
  induction front with
  | nil => rfl
  | cons job rest ih =>
      cases job with
      | acquire lock => simp [acquires, ih]
      | release | code => simpa [acquires] using ih

variable {Rank : Type} [LinearOrder Rank] (rank : Lock → Rank)

/-- Jobs that lead from the one list of held locks to the other, acquire only above
the locks held by then, and release the lock that was acquired last. -/
inductive Climbs : List Lock → List (Job Lock) → List Lock → Prop
  | nil (held : List Lock) : Climbs held [] held
  | acquire {held final : List Lock} {rest : List (Job Lock)} (lock : Lock)
      (habove : ∀ outer ∈ held, rank outer < rank lock) (hrest : Climbs (lock :: held) rest final) :
      Climbs held (.acquire lock :: rest) final
  | release {held final : List Lock} {rest : List (Job Lock)} (lock : Lock)
      (hrest : Climbs held rest final) : Climbs (lock :: held) (.release lock :: rest) final
  | code {held final : List Lock} {rest : List (Job Lock)} (hrest : Climbs held rest final) :
      Climbs held (.code :: rest) final

namespace Climbs

variable {rank} {held middle final outer : List Lock} {front back : List (Job Lock)}

theorem append (hfront : Climbs rank held front middle) (hback : Climbs rank middle back final) :
    Climbs rank held (front ++ back) final := by
  induction hfront with
  | nil => exact hback
  | acquire lock habove _ ih => exact .acquire lock habove (ih hback)
  | release lock _ ih => exact .release lock (ih hback)
  | code _ ih => exact .code (ih hback)

/-- The jobs can also be done under locks that rank lower. -/
theorem under (hfront : Climbs rank held front final)
    (habove : ∀ low ∈ outer, ∀ lock ∈ acquires front, rank low < rank lock) :
    Climbs rank (held ++ outer) front (final ++ outer) := by
  induction hfront with
  | nil => exact .nil _
  | acquire lock hheld _ ih =>
      refine .acquire lock (fun low hlow => ?_) (ih fun low hlow other hother =>
        habove low hlow other (List.mem_cons_of_mem _ hother))
      rcases List.mem_append.mp hlow with hmem | hmem
      · exact hheld low hmem
      · exact habove low hmem lock List.mem_cons_self
  | release lock _ ih => exact .release lock (ih habove)
  | code _ ih => exact .code (ih habove)

theorem flatMap {α : Type} {body : α → List (Job Lock)} (items : List α)
    (hbody : ∀ item ∈ items, Climbs rank held (body item) held) :
    Climbs rank held (items.flatMap body) held := by
  induction items with
  | nil => exact .nil held
  | cons item rest ih =>
      exact (hbody item List.mem_cons_self).append
        (ih fun other hother => hbody other (List.mem_cons_of_mem _ hother))

theorem of_acquire {lock : Lock} (hclimbs : Climbs rank held (.acquire lock :: front) final) :
    (∀ low ∈ held, rank low < rank lock) ∧ Climbs rank (lock :: held) front final := by
  cases hclimbs with
  | acquire _ habove hrest => exact ⟨habove, hrest⟩

theorem of_release [DecidableEq Lock] {lock : Lock}
    (hclimbs : Climbs rank held (.release lock :: front) final) :
    Climbs rank (held.erase lock) front final := by
  cases hclimbs with
  | release _ hrest => rwa [List.erase_cons_head]

theorem of_code (hclimbs : Climbs rank held (.code :: front) final) :
    Climbs rank held front final := by
  cases hclimbs with
  | code hrest => exact hrest

/-- A critical section around jobs that acquire only above its lock. -/
theorem critical {lock : Lock} (hfront : Climbs rank [] front [])
    (habove : ∀ high ∈ acquires front, rank lock < rank high) :
    Climbs rank [] (.acquire lock :: front ++ [.release lock]) [] := by
  have hinside : Climbs rank [lock] front [lock] :=
    hfront.under fun low hlow high hhigh => by
      rw [List.mem_singleton.mp hlow]
      exact habove high hhigh
  exact .acquire lock nofun (hinside.append (.release lock (.nil [])))

end Climbs

end Job

/-! ## Parties under locks -/

namespace LockOrder

/-- The locks each party holds, the last one first, and what it still has to do. -/
structure State (Party Lock : Type) where
  held : Party → List Lock
  todo : Party → List (Job Lock)

/-- A step of a party: its next job, the end of its code, or a call from its code. -/
inductive Move (Operation : Type)
  | go
  | finish
  | call (operation : Operation)
  deriving DecidableEq

variable {Party Lock Operation Rank : Type} [DecidableEq Party] [DecidableEq Lock]

def State.set (state : State Party Lock) (party : Party) (held : List Lock)
    (todo : List (Job Lock)) : State Party Lock :=
  { held := Function.update state.held party held, todo := Function.update state.todo party todo }

section Machine

variable [Fintype Party] (jobs : Operation → List (Job Lock))

def step (state : State Party Lock) : Party × Move Operation → Option (State Party Lock)
  | (party, .go) =>
      match state.todo party with
      | .acquire lock :: rest =>
          if ∀ other, lock ∉ state.held other then
            some (state.set party (lock :: state.held party) rest)
          else none
      | .release lock :: rest => some (state.set party ((state.held party).erase lock) rest)
      | _ => none
  | (party, .finish) =>
      match state.todo party with
      | .code :: rest => some (state.set party (state.held party) rest)
      | _ => none
  | (party, .call operation) =>
      match state.todo party with
      | .code :: rest => some (state.set party (state.held party)
          (jobs operation ++ .code :: rest))
      | _ => none

end Machine

/-- The next job of the party acquires the lock. -/
def Requests (state : State Party Lock) (party : Party) (lock : Lock) : Prop :=
  ∃ rest, state.todo party = .acquire lock :: rest

/-- The pairs of a held and a requested lock in the steps so far. -/
def record (nested : List (Lock × Lock)) (state : State Party Lock)
    (action : Party × Move Operation) (_ : State Party Lock) : List (Lock × Lock) :=
  match action.2, state.todo action.1 with
  | .go, .acquire lock :: _ => nested ++ (state.held action.1).map fun low => (low, lock)
  | _, _ => nested

/-- The second lock is or was requested while the first one was held. -/
def Nested (watched : State Party Lock × List (Lock × Lock)) (low lock : Lock) : Prop :=
  (low, lock) ∈ watched.2 ∨ ∃ party, Requests watched.1 party lock ∧ low ∈ watched.1.held party

/-- Some parties wait for locks that are held among them. -/
def Deadlocked (state : State Party Lock) : Prop :=
  ∃ parties : Finset Party, parties.Nonempty ∧ ∀ party ∈ parties,
    ∃ lock, Requests state party lock ∧ ∃ other ∈ parties, lock ∈ state.held other

/-- No party requests a lock it holds, the nesting of the locks has no cycle, and no
parties wait for each other. -/
structure Disciplined (watched : State Party Lock × List (Lock × Lock)) : Prop where
  once : ∀ party lock, Requests watched.1 party lock → lock ∉ watched.1.held party
  acyclic : ∀ lock, ¬ Relation.TransGen (Nested watched) lock lock
  live : ¬ Deadlocked watched.1

variable [LinearOrder Rank] (rank : Lock → Rank)

/-- Code that runs under locks calls only operations whose locks rank higher. -/
def Ascending (jobs : Operation → List (Job Lock))
    (watched : State Party Lock × List (Lock × Lock)) (action : Party × Move Operation) : Prop :=
  match action.2 with
  | .call operation => ∀ low ∈ watched.1.held action.1,
      ∀ lock ∈ Job.acquires (jobs operation), rank low < rank lock
  | .go | .finish => True

omit [DecidableEq Party] [DecidableEq Lock] in
instance (jobs : Operation → List (Job Lock))
    (watched : State Party Lock × List (Lock × Lock)) (action : Party × Move Operation) :
    Decidable (Ascending rank jobs watched action) := by
  unfold Ascending
  split <;> infer_instance

/-- What the steps of such parties keep. -/
structure Ranked (watched : State Party Lock × List (Lock × Lock)) : Prop where
  climbs : ∀ party, Job.Climbs rank (watched.1.held party) (watched.1.todo party) []
  nested : ∀ pair ∈ watched.2, rank pair.1 < rank pair.2

variable {rank} {watched : State Party Lock × List (Lock × Lock)}

section Ranks

omit [DecidableEq Party] [DecidableEq Lock]

theorem Ranked.todo (hranked : Ranked rank watched) {party : Party} {todo : List (Job Lock)}
    (htodo : watched.1.todo party = todo) :
    Job.Climbs rank (watched.1.held party) todo [] := by
  rw [← htodo]
  exact hranked.climbs party

theorem Ranked.requests (hranked : Ranked rank watched) {party : Party} {lock : Lock}
    (hrequests : Requests watched.1 party lock) :
    ∀ low ∈ watched.1.held party, rank low < rank lock := by
  obtain ⟨rest, htodo⟩ := hrequests
  exact (hranked.todo htodo).of_acquire.1

theorem Ranked.rank_lt (hranked : Ranked rank watched) {low lock : Lock}
    (hnested : Nested watched low lock) : rank low < rank lock := by
  rcases hnested with hbefore | ⟨party, hrequests, hheld⟩
  · exact hranked.nested _ hbefore
  · exact hranked.requests hrequests low hheld

theorem Ranked.disciplined (hranked : Ranked rank watched) : Disciplined watched where
  once party lock hrequests hheld :=
    lt_irrefl _ (hranked.requests hrequests lock hheld)
  acyclic lock hcycle := by
    have hlt : ∀ low high, Relation.TransGen (Nested watched) low high → rank low < rank high := by
      intro low high hpath
      induction hpath with
      | single hnested => exact hranked.rank_lt hnested
      | tail _ hnested ih => exact ih.trans (hranked.rank_lt hnested)
    exact lt_irrefl _ (hlt lock lock hcycle)
  live := by
    rintro ⟨parties, hnonempty, hwaits⟩
    obtain ⟨first, hfirst⟩ := hnonempty
    obtain ⟨lock, _⟩ := hwaits first hfirst
    have : Nonempty Lock := ⟨lock⟩
    have : Nonempty Party := ⟨first⟩
    choose! wanted hrequests holder hholder hheld using hwaits
    -- the party that waits for the highest lock
    obtain ⟨top, htop, hmax⟩ :=
      parties.exists_max_image (fun party => rank (wanted party)) ⟨first, hfirst⟩
    have hlt := hranked.requests (hrequests _ (hholder top htop)) _ (hheld top htop)
    exact absurd (hmax _ (hholder top htop)) (not_le_of_gt hlt)

end Ranks

section Runs

variable {jobs : Operation → List (Job Lock)} {state next : State Party Lock}
  {nested : List (Lock × Lock)} {action : Party × Move Operation}

/-- The steps of a party. -/
inductive Steps (jobs : Operation → List (Job Lock)) (state : State Party Lock) :
    Party × Move Operation → State Party Lock → Prop
  | acquires (party : Party) (lock : Lock) (rest : List (Job Lock))
      (htodo : state.todo party = .acquire lock :: rest) :
      Steps jobs state (party, .go) (state.set party (lock :: state.held party) rest)
  | releases (party : Party) (lock : Lock) (rest : List (Job Lock))
      (htodo : state.todo party = .release lock :: rest) :
      Steps jobs state (party, .go) (state.set party ((state.held party).erase lock) rest)
  | finishes (party : Party) (rest : List (Job Lock))
      (htodo : state.todo party = .code :: rest) :
      Steps jobs state (party, .finish) (state.set party (state.held party) rest)
  | calls (party : Party) (operation : Operation) (rest : List (Job Lock))
      (htodo : state.todo party = .code :: rest) :
      Steps jobs state (party, .call operation)
        (state.set party (state.held party) (jobs operation ++ .code :: rest))

theorem steps_of_step [Fintype Party] (hstep : step jobs state action = some next) :
    Steps jobs state action next := by
  unfold step at hstep
  split at hstep
  next party =>
    split at hstep
    next lock rest htodo =>
      split at hstep
      next =>
        cases hstep
        exact .acquires party lock rest htodo
      next => cases hstep
    next lock rest htodo =>
      cases hstep
      exact .releases party lock rest htodo
    next => cases hstep
  next party =>
    split at hstep
    next rest htodo =>
      cases hstep
      exact .finishes party rest htodo
    next => cases hstep
  next party operation =>
    split at hstep
    next rest htodo =>
      cases hstep
      exact .calls party operation rest htodo
    next => cases hstep

omit [DecidableEq Lock] in
/-- The jobs of the other parties are left alone. -/
theorem climbs_set (hclimbs : ∀ party, Job.Climbs rank (state.held party) (state.todo party) [])
    {party : Party} {held : List Lock} {todo : List (Job Lock)}
    (hparty : Job.Climbs rank held todo []) (other : Party) :
    Job.Climbs rank ((state.set party held todo).held other)
      ((state.set party held todo).todo other) [] := by
  by_cases hother : other = party
  · subst hother
    simpa [State.set] using hparty
  · simpa [State.set, hother] using hclimbs other

theorem climbs_of_steps (hranked : Ranked rank (state, nested))
    (hascending : Ascending rank jobs (state, nested) action)
    (hjobs : ∀ operation, Job.Climbs rank [] (jobs operation) [])
    (hsteps : Steps jobs state action next) (other : Party) :
    Job.Climbs rank (next.held other) (next.todo other) [] := by
  cases hsteps with
  | acquires party lock rest htodo =>
      exact climbs_set hranked.climbs (hranked.todo htodo).of_acquire.2 other
  | releases party lock rest htodo =>
      exact climbs_set hranked.climbs (hranked.todo htodo).of_release other
  | finishes party rest htodo =>
      exact climbs_set hranked.climbs (hranked.todo htodo).of_code other
  | calls party operation rest htodo =>
      -- the operation runs above the locks the code holds
      have hbody := (hjobs operation).under hascending
      exact climbs_set hranked.climbs (hbody.append (hranked.todo htodo)) other

omit [DecidableEq Party] [DecidableEq Lock] in
theorem nested_of_record (next : State Party Lock) (hranked : Ranked rank (state, nested)) :
    ∀ pair ∈ record nested state action next, rank pair.1 < rank pair.2 := by
  intro pair hpair
  unfold record at hpair
  split at hpair
  next lock rest _ htodo =>
    rcases List.mem_append.mp hpair with hbefore | hnow
    · exact hranked.nested pair hbefore
    · obtain ⟨low, hlow, rfl⟩ := List.mem_map.mp hnow
      have hrequests : Requests state action.1 lock := ⟨rest, htodo⟩
      exact hranked.requests hrequests low hlow
  next => exact hranked.nested pair hpair

variable [Fintype Party] (jobs)

/-- Parties that start in their own code, with the record of the nesting. -/
def machine (Party : Type) [DecidableEq Party] [Fintype Party] :
    Machine (State Party Lock × List (Lock × Lock)) (Party × Move Operation) :=
  Machine.recording
    { start := { held := fun _ => [], todo := fun _ => [.code] }, step := step jobs } [] record

variable {jobs}

theorem disciplined_of_ascending
    (hjobs : ∀ operation, Job.Climbs rank [] (jobs operation) [])
    {actions : List (Party × Move Operation)}
    (hmeets : (machine jobs Party).Meets (Ascending rank jobs) (machine jobs Party).start
      actions) :
    (machine jobs Party).Along Disciplined (machine jobs Party).start actions := by
  have hstart : Ranked rank (machine jobs Party).start :=
    { climbs := fun _ => .code (.nil [])
      nested := nofun }
  refine Machine.along_of_meets (Ranked rank) ?_ (fun _ => Ranked.disciplined) hstart hmeets
  intro watched action after hranked hascending hstep
  obtain ⟨hnext, hrecord⟩ := Machine.recording_step hstep
  obtain ⟨next, later⟩ := after
  obtain rfl : later = record watched.2 watched.1 action next := hrecord
  exact
    { climbs := climbs_of_steps hranked hascending hjobs (steps_of_step hnext)
      nested := nested_of_record next hranked }

end Runs

end LockOrder

end Foundation
