import Mathlib.Logic.Basic

/-!
# A condition variable and the one thread that waits on it

A thread that waits on a condition variable gives its lock back and falls
asleep in one step.  `notify_one` wakes it if it is asleep, and does nothing
otherwise: a notification is not kept for later.  It may also wake up for no
reason.  A thread that was woken up goes on when it has got the lock again.

Main facts:
* `Waiter.notifyOne_ne_blocked`: nobody is asleep after a notification;
* `Waiter.notifyOne_eq_away`: a notification does not reach a thread that does
  not wait;
* `Waiter.wakeUp_eq_some`: whoever wakes up was asleep.
-/

namespace CondVar

/-- What the thread is doing, as far as the condition variable knows. -/
inductive Waiter where
  /-- It does not wait. -/
  | away
  /-- It is asleep. -/
  | blocked
  /-- It was woken up and wants the lock back. -/
  | woken
deriving DecidableEq

namespace Waiter

/-- `notify_one`. -/
def notifyOne : Waiter → Waiter
  | away => away
  | blocked => woken
  | woken => woken

@[simp] theorem notifyOne_ne_blocked (w : Waiter) :
    w.notifyOne ≠ blocked := by
  cases w with
  | away => simp [notifyOne]
  | blocked => simp [notifyOne]
  | woken => simp [notifyOne]

@[simp] theorem notifyOne_eq_away {w : Waiter} :
    w.notifyOne = away ↔ w = away := by
  cases w with
  | away => simp [notifyOne]
  | blocked => simp [notifyOne]
  | woken => simp [notifyOne]

/-- Wake up for no reason, which only a thread that sleeps can do. -/
def wakeUp : Waiter → Option Waiter
  | away => none
  | blocked => some woken
  | woken => none

theorem wakeUp_eq_some {w w' : Waiter} :
    w.wakeUp = some w' ↔ w = blocked ∧ w' = woken := by
  cases w with
  | away => simp [wakeUp]
  | blocked => simp [wakeUp, eq_comm]
  | woken => simp [wakeUp]

end Waiter

end CondVar
