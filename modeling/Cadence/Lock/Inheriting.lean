import Cadence.Fault

/-!
A lock of the threads of one program, kept by the system library, which knows the owner and checks
for errors: the owner cannot lock again, and only the owner can unlock. A guard stands for a lock
that was granted; it is an object of its own, which may be handed to another thread and dropped
there.
-/

namespace Cadence

abbrev ThreadId := Nat

structure InheritingLock where
  owner : Option ThreadId := none
  /-- The thread that each living guard is with. -/
  guards : List ThreadId := []
  deriving DecidableEq

namespace InheritingLock

inductive Granted where
  | yes
  | refused (why : Fault)
  | blocks

def isLocked (l : InheritingLock) : Bool := l.owner.isSome

def lock (l : InheritingLock) (caller : ThreadId) : InheritingLock × Granted :=
  match l.owner with
  | none => ({ owner := some caller, guards := caller :: l.guards }, .yes)
  | some owner =>
    if owner = caller then (l, .refused (.ofErrno "pthread_mutex_lock" .wouldDeadlock))
    else (l, .blocks)

def tryLock (l : InheritingLock) (caller : ThreadId) : InheritingLock × Bool :=
  match l.owner with
  | none => ({ owner := some caller, guards := caller :: l.guards }, true)
  | some _ => (l, false)

/-- Hands a guard on to another thread. -/
def hand (l : InheritingLock) (giver taker : ThreadId) : InheritingLock :=
  if giver ∈ l.guards then { l with guards := taker :: l.guards.erase giver } else l

/-- Drops a guard that is with the caller, and tells whether there was one. The library refuses to
unlock for anyone but the owner, and a drop does not hear of it. -/
def drop (l : InheritingLock) (caller : ThreadId) : InheritingLock × Bool :=
  if caller ∈ l.guards then
    let owner := if l.owner = some caller then none else l.owner
    ({ owner, guards := l.guards.erase caller }, true)
  else (l, false)

def describe (l : InheritingLock) : String :=
  s!"PiMutex \x7b locked: {l.isLocked}, .. \x7d"

def describeGuard (l : InheritingLock) : String :=
  s!"PiMutexGuard \x7b mutex: {l.describe} \x7d"

end InheritingLock

end Cadence
