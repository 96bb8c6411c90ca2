import Cadence.Signal.Shared

/-!
Two ways of passing a value around: handing one value to a number of waiters, and taking turns at
counting. The first party is the giver, the others the takers.
-/

namespace Cadence.SharedSignal

variable {n : Nat}

def giver : Fin (n + 1) := SharedLock.first

def takers (count : Nat) : List (Fin (n + 1)) := ((List.finRange (n + 1)).drop 1).take count

/-- Waits in the given way unless the value is already the wanted one. -/
def seek (g : SharedSignal n) (i : Fin n) (w : Wait) (wanted : UInt64) : SharedSignal n :=
  let g := g.acquire i
  if g.contest.value = wanted then g else g.beginWait i w

/-- What a taker that is back finds, once it has let go of the lock again. -/
def collect (g : SharedSignal n) (i : Fin n) : SharedSignal n × UInt64 :=
  let g := g.settle i
  (g.release i, g.contest.value)

structure Handed where
  before : SignalWord
  got : List UInt64

/-- The takers wait for a value; then the giver writes it and notifies all of them, or one after the
other until none is left. -/
def handOver (g : SharedSignal (n + 1)) (count : Nat) (w : Wait) (wanted : UInt64)
    (oneByOne : Bool) : SharedSignal (n + 1) × Handed :=
  let others := takers count
  let g := others.foldl (fun g i => g.seek i w wanted) g
  let before := g.signal
  let g := ((g.acquire giver).write giver wanted).release giver
  let g := if oneByOne then g else g.notify giver true
  let (g, got) := others.foldl (fun (g, got) i =>
    let g := if oneByOne then g.notify giver false else g
    let (g, v) := g.collect i
    (g, got ++ [v])) (g, [])
  (g, { before, got })

/-- One turn: waits for the count to come to it, adds one and notifies everybody. -/
def turn (g : SharedSignal n) (i : Fin n) (reached : UInt64) : SharedSignal n :=
  let g := (g.acquire i).beginWait i (.untilIs reached)
  ((g.write i (g.contest.value + 1)).notify i true).release i

/-- All parties take turns until so many turns are taken. -/
def takeTurns (g : SharedSignal (n + 1)) (turns : Nat) : SharedSignal (n + 1) :=
  (List.range turns).foldl (fun g k => g.turn (⟨k % (n + 1), Nat.mod_lt k n.succ_pos⟩) (.ofNat k)) g

end Cadence.SharedSignal

namespace Cadence

/-- A shared signal whose parties are run one at a time. -/
abbrev Gathering (n : Nat) := SharedSignal n

abbrev Gathering.start (n : Nat) (value : UInt64 := 0) : Gathering n := SharedSignal.start n value

end Cadence
