import Cadence.Clock
import Cadence.Fault

/-!
A lock that is two words of shared memory, and the call that acquires it. The first word is 0 while
the lock is free, 1 while it is taken and 2 while somebody may sleep on it; the second counts the
sleepers, for show only. Zeroed memory is a free lock.

A contended call swaps 2 in without knowing whether the lock is free: if it was, the call has it, and
the 2 costs at most a wake-up that nobody needed.
-/

namespace Cadence

structure LockWord where
  state : UInt32 := 0
  waiters : UInt32 := 0
  deriving DecidableEq, Inhabited

namespace LockWord

def isLocked (w : LockWord) : Bool := w.state != 0

def describe (w : LockWord) : String :=
  s!"RawProcessMutex \x7b state: {w.state}, waiters: {w.waiters} \x7d"

/-- The lock as part of what it guards. -/
def describeGuarded (w : LockWord) : String :=
  s!"ProcessMutex \x7b raw: {w.describe}, .. \x7d"

end LockWord

/-- How long a call waits for the lock. -/
inductive Patience where
  | once
  | forever
  | within (timeout : Nat)
  deriving DecidableEq

/-- How a sleep on a word ends. -/
inductive Rousing where
  /-- By a wake, or because the word had changed before the sleep began. -/
  | woken
  | spurious
  | timedOut
  /-- By a passing trouble of the kernel. -/
  | failed (why : Errno)
  deriving DecidableEq

/-- What a call comes back with. -/
inductive Verdict where
  | acquired
  | refused
  | timedOut
  | failed (why : Errno)
  deriving DecidableEq

namespace Verdict

def toExcept : Verdict → Except Fault Unit
  | acquired => .ok ()
  | refused | timedOut => .error .timeout
  | failed why => .error (.systemFailure "futex_wait" why)

end Verdict

/-- The next step of a call that acquires the lock. -/
inductive Stage where
  /-- Take the lock if it is free. -/
  | knock
  /-- Find out when the wait is over. -/
  | reckon
  /-- Swap in 2. -/
  | swap
  /-- Compare the clock with the deadline. -/
  | look
  /-- Count in as a sleeper. -/
  | enroll
  /-- Go to sleep if the word is still 2. -/
  | doze
  | asleep
  /-- Count out again. -/
  | leave (cause : Rousing)
  deriving DecidableEq

structure Attempt where
  patience : Patience
  /-- The clock when the call was made. -/
  called : Nat
  deadline : Option Nat := none
  stage : Stage := .knock
  deriving DecidableEq

namespace Attempt

def moveTo (a : Attempt) (stage : Stage) : Attempt := { a with stage }

/-- After the swap found the lock taken. -/
def afterSwap (a : Attempt) : Stage := if a.deadline.isSome then .look else .enroll

/-- One atomic step, given what the clock reads. A sleeper has none of its own. -/
def step (w : LockWord) (now : Nat) (a : Attempt) : LockWord × (Attempt ⊕ Verdict) :=
  match a.stage, a.patience with
  | .knock, patience =>
    if w.state = 0 then ({ w with state := 1 }, .inr .acquired)
    else match patience with
      | .once => (w, .inr .refused)
      | .forever => (w, .inl (a.moveTo .swap))
      | .within _ => (w, .inl (a.moveTo .reckon))
  | .reckon, .within timeout =>
    (w, .inl { a with deadline := Clock.deadline? now timeout, stage := .swap })
  | .reckon, _ => (w, .inl (a.moveTo .swap))
  | .swap, _ =>
    ({ w with state := 2 },
      if w.state = 0 then .inr .acquired else .inl (a.moveTo a.afterSwap))
  | .look, _ =>
    match a.deadline with
    | some deadline =>
      (w, if deadline ≤ now then .inr .timedOut else .inl (a.moveTo .enroll))
    | none => (w, .inl (a.moveTo .enroll))
  | .enroll, _ => ({ w with waiters := w.waiters + 1 }, .inl (a.moveTo .doze))
  | .doze, _ => (w, .inl (a.moveTo (if w.state = 2 then .asleep else .leave .woken)))
  | .asleep, _ => (w, .inl a)
  | .leave cause, patience =>
    ({ w with waiters := w.waiters - 1 },
      match cause, patience with
      | .failed why, .within _ => .inr (.failed why)
      | _, _ => .inl (a.moveTo .swap))

end Attempt

end Cadence
