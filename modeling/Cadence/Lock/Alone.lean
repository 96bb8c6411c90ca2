import Cadence.Lock.Shared

/-!
A lock used by one party at a time: whole calls as functions on its two words.
-/

namespace Cadence.LockWord

/-- A call with nobody else moving. Without a verdict, the call would sleep forever. -/
def acquire (w : LockWord) (patience : Patience) : LockWord × Option Verdict :=
  let (c, verdict) := (SharedLock.start 1 w).acquire SharedLock.first patience
  (c.word, verdict)

def tryAcquire (w : LockWord) : LockWord × Bool :=
  let (w, verdict) := w.acquire .once
  (w, verdict = some .acquired)

def free (w : LockWord) : LockWord := ((SharedLock.start 1 w).free SharedLock.first).word

end Cadence.LockWord

namespace Cadence

/-- Adds to a value under its lock: the sum, or what the call came back with instead. -/
def addGuarded (r : LockWord × UInt64) (patience : Patience) (amount : UInt64) :
    (LockWord × UInt64) × Option (Except Verdict UInt64) :=
  match r.1.acquire patience with
  | (w, some .acquired) => ((w.free, r.2 + amount), some (.ok (r.2 + amount)))
  | (w, some other) => ((w, r.2), some (.error other))
  | (w, none) => ((w, r.2), none)

end Cadence
