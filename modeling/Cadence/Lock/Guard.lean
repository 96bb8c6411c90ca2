import Cadence.Lock.Shared

/-!
A party with a place for one guard, the token of holding the lock. Dropping a guard frees the word,
whatever has happened to it since; a guard that is let slip leaves the lock taken for good.
-/

namespace Cadence

/-- The party with the place is the first; the others only contend with it. -/
structure GuardPlace (helpers : Nat) where
  contest : SharedLock (helpers + 1)
  held : Bool := false

namespace GuardPlace

variable {helpers : Nat}

def start (helpers : Nat) (value : UInt64) : GuardPlace helpers :=
  { contest := .start (helpers + 1) {} value }

def word (g : GuardPlace helpers) : LockWord := g.contest.word

/-- Frees the word and keeps the guard, if there is one. -/
def freeWord (g : GuardPlace helpers) : GuardPlace helpers :=
  { g with contest := g.contest.free SharedLock.first }

/-- Drops the guard if there is one, and tells whether there was. -/
def drop (g : GuardPlace helpers) : GuardPlace helpers × Bool :=
  if g.held then ({ g.freeWord with held := false }, true) else (g, false)

/-- Lets the guard slip without freeing the word. -/
def forget (g : GuardPlace helpers) : GuardPlace helpers := { g with held := false }

/-- A new guard takes the place of an old one, which is dropped after it. -/
def acquire (g : GuardPlace helpers) (patience : Patience) :
    GuardPlace helpers × Option Verdict :=
  let (contest, verdict) := g.contest.acquire SharedLock.first patience
  let g := { g with contest }
  if verdict = some .acquired then ({ g.drop.1 with held := true }, verdict) else (g, verdict)

def add (g : GuardPlace helpers) (amount : UInt64) : GuardPlace helpers :=
  { g with contest := { g.contest with value := g.contest.value + amount } }

/-- The other parties queue up behind the guard. Once all of them sleep, the guard is dropped, and
each adds one in turn. Also gives the word as it was at the moment of most sleepers. -/
def contend (g : GuardPlace helpers) (count : Nat) (patience : Patience) :
    GuardPlace helpers × LockWord :=
  let others := ((List.finRange (helpers + 1)).drop 1).take count
  let queued := others.foldl (fun c i => ((c.fire (.call i patience)).getD c).settle i) g.contest
  let (g, _) := { g with contest := queued }.drop
  let contest := others.foldl (fun c i => ((c.settle i).add i 1).release i) g.contest
  ({ g with contest }, queued.word)

end GuardPlace

end Cadence
