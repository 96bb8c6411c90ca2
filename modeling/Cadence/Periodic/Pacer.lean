import Cadence.Fault
import Cadence.Periodic.Instant

/-!
Pacing against absolute deadlines, one interval apart. The time that a cycle takes does not shift the
deadline after it. A cycle that ends past its deadline starts the next one at once, and the deadlines
go on from there: missed periods are left out and never made up for.
-/

namespace Cadence

/-- How a sleep up to a deadline ends. -/
inductive Nap where
  | over
  /-- A signal came; the sleep is taken up again with the same deadline. -/
  | interrupted
  | failed (why : Errno)
  deriving DecidableEq

structure Pacer where
  next : Instant
  interval : Int64
  deriving DecidableEq

namespace Pacer

/-- A period in nanoseconds, if the clock can count it. -/
def intervalOf (nanos : Nat) : Except Fault Int64 :=
  if nanos ≤ Int64.maxValue.toInt then .ok (.ofNat nanos)
  else .error (.invalidArgument "period too long")

def readClock (reading : Except Errno Instant) : Except Fault Instant :=
  reading.mapError (.ofErrno "clock_gettime")

def start (nanos : Nat) (reading : Except Errno Instant) : Except Fault Pacer := do
  let now ← readClock reading
  return { next := now, interval := ← intervalOf nanos }

/-- Moves on by one interval and tells whether that deadline has passed already. -/
def advance (p : Pacer) (reading : Except Errno Instant) : Except Fault (Pacer × Bool) := do
  let some next := p.next.add? p.interval
    | throw (.invalidArgument "deadline exceeds the clock range")
  let now ← readClock reading
  if 0 < now.sub next then return ({ p with next := now }, true)
  return ({ p with next }, false)

/-- Sleeps through interruptions; without an end in sight it still sleeps. -/
def sleep : List Nap → Option (Except Fault Unit)
  | [] => none
  | .over :: _ => some (.ok ())
  | .interrupted :: rest => sleep rest
  | .failed why :: _ => some (.error (.ofErrno "clock_nanosleep" why))

/-- A whole wait for the next cycle, which tells whether the last one was late. -/
def waitNext (p : Pacer) (reading : Except Errno Instant) (naps : List Nap) :
    Option (Except Fault (Pacer × Bool)) :=
  match p.advance reading with
  | .error e => some (.error e)
  | .ok (p, true) => some (.ok (p, true))
  | .ok (p, false) => (sleep naps).map (·.map fun _ => (p, false))

end Pacer

end Cadence
