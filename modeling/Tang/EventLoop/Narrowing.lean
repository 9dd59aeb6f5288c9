import Tang.EventLoop.Expiry
import Tang.EventLoop.Poller

/-! # Timeouts cut to 32 bits

`handle_timers` returns a 64-bit count of milliseconds. `epoll_wait` takes an
`int` and waits forever for a negative one; `GetQueuedCompletionStatus` takes a
`DWORD` and waits forever for the largest. The first half of every block of
`2 ^ 32` milliseconds survives on both platforms.
-/

namespace Tang.EventLoop

namespace Iocp

/-- `INFINITE`. -/
def infinite : Int := 0xFFFFFFFF

/-- The timeout `wait` passes to `GetQueuedCompletionStatus`: `INFINITE`, or the
`DWORD` a count of milliseconds is cut to. -/
def waitTime (timeout : Int) : Int :=
  if timeout = maxTimeout then infinite else timeout % 2 ^ 32

end Iocp

namespace Narrowing

open Foundation Expiry

/-- Some pass of `handle_timers` returns the timeout. -/
def Returned (timeout : Int) : Prop :=
  ∃ state pass, Timers.machine.Reachable state ∧ state.pass = some pass ∧ pass.it = none ∧
    pass.nextTimeout = timeout

/-- What is passed on is a wait that ends, and not after the timeout. -/
structure Survives (timeout : Int) : Prop where
  epoll : 0 ≤ Poller.waitTime timeout ∧ Poller.waitTime timeout ≤ timeout
  iocp : Iocp.waitTime timeout ≠ Iocp.infinite ∧ Iocp.waitTime timeout ≤ timeout

variable {timeout : Int}

theorem epoll_iff (htimeout : 0 ≤ timeout) (hmax : timeout ≠ maxTimeout) :
    0 ≤ Poller.waitTime timeout ∧ Poller.waitTime timeout ≤ timeout ↔
      timeout % 2 ^ 32 < 2 ^ 31 := by
  rw [Poller.waitTime, if_neg hmax, Int.bmod_def]
  split <;> omega

theorem iocp_iff (htimeout : 0 ≤ timeout) (hmax : timeout ≠ maxTimeout) :
    Iocp.waitTime timeout ≠ Iocp.infinite ∧ Iocp.waitTime timeout ≤ timeout ↔
      timeout % 2 ^ 32 ≠ 2 ^ 32 - 1 := by
  rw [Iocp.waitTime, if_neg hmax, Iocp.infinite]
  omega

/-- A pass over one timer that is not due returns what is left of it. -/
theorem examine_armed {expire now : Int} (hlate : now < expire) :
    Timers.machine.step (armed expire now) .examine =
      some { armed expire now with
        pass := some ⟨now, timeoutUntil now expire, none, 0, false⟩ } := by
  have hstep : Timers.machine.step (armed expire now) .examine =
      some { armed expire now with
        pass := some (Pass.examine ⟨now, maxTimeout, some 0, 0, false⟩
          (armed expire now).table ⟨1, expire, 0⟩) } := rfl
  have hless := timeoutUntil_lt now expire
  rw [hstep]
  simp only [Pass.examine, if_neg (Int.not_le.mpr hlate), if_pos hless]
  rfl

/-- Any timeout the clock can hold is left by a pass, a nanosecond after a timer
was added. -/
theorem returned_of_lt (htimeout : 0 ≤ timeout) (hfits : (timeout + 1) * 1000000 < 2 ^ 63) :
    Returned timeout := by
  have hexpire : expireTime 0 (timeout + 1) = (timeout + 1) * 1000000 := by
    rw [expireTime_eq, Int.zero_add]
    exact wrap64_of_fits (by omega) hfits
  have hremaining : timeoutUntil 1 (expireTime 0 (timeout + 1)) = timeout := by
    rw [hexpire, timeoutUntil, wrap64_of_fits (by omega) (by omega),
      Int.tdiv_eq_ediv_of_nonneg (by omega)]
    omega
  -- a pass one nanosecond after `add_timer` finds a millisecond begun
  have hpositive : 1 < (timeout + 1) * 1000000 := by omega
  have hlate : 1 < expireTime 0 (timeout + 1) := hexpire ▸ hpositive
  have hexamined := (armed_reachable ⟨0, timeout + 1⟩ 1).step .examine (examine_armed hlate)
  exact ⟨_, _, hexamined, rfl, rfl, hremaining⟩

/-- A timeout survives the narrowing of both pollers exactly if it lies in the
first half of a block of `2 ^ 32` milliseconds. -/
theorem survives_iff (htimeout : 0 ≤ timeout) (hmax : timeout ≠ maxTimeout) :
    Survives timeout ↔ timeout % 2 ^ 32 < 2 ^ 31 := by
  constructor
  · intro hsurvives
    exact (epoll_iff htimeout hmax).mp hsurvives.epoll
  · intro hlow
    exact ⟨(epoll_iff htimeout hmax).mpr hlow, (iocp_iff htimeout hmax).mpr (by omega)⟩

/-- Fifty days, a block and a few hours. -/
theorem survives_iff_days : Survives 4320000000 ↔ (4320000000 : Int) % 2 ^ 32 < 2 ^ 31 :=
  survives_iff (by decide) (by decide)

/-- A timer of a little under 25 days makes `epoll_wait` wait forever, one of a
little under 50 days `GetQueuedCompletionStatus`. -/
theorem not_survives_weeks :
    Returned (2 ^ 31) ∧ Poller.waitTime (2 ^ 31) = -2 ^ 31 ∧
      Returned (2 ^ 32 - 1) ∧ Iocp.waitTime (2 ^ 32 - 1) = Iocp.infinite ∧
      ¬ ∀ timeout, Returned timeout → 0 ≤ timeout → timeout ≠ maxTimeout → Survives timeout := by
  have hreturned : Returned (2 ^ 31) := returned_of_lt (by decide) (by decide)
  refine ⟨hreturned, by decide, returned_of_lt (by decide) (by decide), by decide, ?_⟩
  intro hall
  have hwait := (hall _ hreturned (by decide) (by decide)).epoll.1
  exact absurd hwait (by decide)

end Narrowing

end Tang.EventLoop
