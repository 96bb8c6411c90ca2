import Cadence.Fault

/-!
Waiting for a word of memory to change. A kernel that can do it puts the caller to sleep and wakes
it; elsewhere the caller polls, notices changes by itself, and a wake has nobody to reach.
-/

namespace Cadence

inductive Waiting where
  | sleeping
  | polling
  deriving DecidableEq

namespace Waiting

/-- A wait with nobody else moving: a different word ends it at once, a timeout later. Without
either it never ends. -/
def waitAlone (word expected : UInt32) (timed : Bool) : Option (Except Fault Unit) :=
  if word ≠ expected then some (.ok ())
  else if timed then some (.error .timeout)
  else none

/-- How many of the sleepers a wake reaches. A single wake names at most `2^31 - 1` of them. -/
def wake (kind : Waiting) (sleepers : Nat) (count : UInt32) : Nat :=
  match kind with
  | .sleeping => min sleepers (min count.toNat 2147483647)
  | .polling => 0

/-- What the waiters for a change see once the word is stored. -/
def release (waiters : Nat) (value : UInt32) : List UInt32 := List.replicate waiters value

/-- Only a kernel that sleeps has threads with numbers of their own. -/
def numbersThreads (kind : Waiting) : Bool := kind == .sleeping

end Waiting

end Cadence
