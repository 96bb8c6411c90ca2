import Cadence.Lock.Shared

/-!
A signal that goes with a lock: a generation, which every notification moves on, and a count of
waiters. A waiter notes the generation while it holds the lock and sleeps only as long as that
generation lasts; a notifier that sees no waiters saves itself the wake.
-/

namespace Cadence

structure SignalWord where
  generation : UInt32 := 0
  waiters : UInt32 := 0
  deriving DecidableEq, Inhabited

namespace SignalWord

def describe (s : SignalWord) : String :=
  s!"ProcessCondvar \x7b generation: {s.generation}, waiters: {s.waiters} \x7d"

def notify (s : SignalWord) : SignalWord := { s with generation := s.generation + 1 }

end SignalWord

structure Wait where
  /-- Says whether to go on waiting, and may change the value. Without it, one sleep is the whole
  wait. -/
  condition : Option (UInt64 → Bool × UInt64) := none
  timeout : Option Nat := none

namespace Wait

/-- Waits until the value is no longer below a bound. -/
def whileBelow (bound : UInt64) (timeout : Option Nat := none) : Wait :=
  { condition := some fun v => (decide (v < bound), v), timeout }

/-- Waits until the value is the wanted one. -/
def untilIs (wanted : UInt64) (timeout : Option Nat := none) : Wait :=
  { condition := some fun v => (v != wanted, v), timeout }

/-- Adds one at every check, and waits until the sum is no longer below a bound. -/
def whileRaisedBelow (bound : UInt64) (timeout : Option Nat := none) : Wait :=
  { condition := some fun v => (decide (v + 1 < bound), v + 1), timeout }

end Wait

/-- What a wait comes back with, the lock being held again. -/
structure Report where
  timedOut : Bool
  checks : Nat
  deriving DecidableEq

namespace Report

def describe (r : Report) : String := s!"WaitTimeout \x7b timed_out: {r.timedOut} \x7d"

end Report

end Cadence
