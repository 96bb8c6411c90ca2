import Cadence.Limits

/-!
Rounding up to a multiple of a power of two, in 64-bit words. `roundUp` checks each of its steps
and says which one left the word; for a power of two that is the sum, and only when the rounded
value comes within one alignment of the end of the range.
-/

namespace Cadence

/-- A step of word arithmetic that leaves `0..2^64-1`. -/
inductive WordFault where
  | sum
  | difference
  deriving DecidableEq

namespace WordFault

def message : WordFault → String
  | sum => "attempt to add with overflow"
  | difference => "attempt to subtract with overflow"

end WordFault

def checkedSum (a b : UInt64) : Option UInt64 :=
  if a.toNat + b.toNat < UInt64.size then some (a + b) else none

def checkedDifference (a b : UInt64) : Option UInt64 :=
  if b ≤ a then some (a - b) else none

/-- Clears the bits below `mask + 1`. -/
def clearBelow (value mask : UInt64) : UInt64 := value &&& ~~~mask

/-- A word with a single bit set. -/
def isSingleBit (w : UInt64) : Bool := w != 0 && (w &&& (w - 1)) == 0

/-- The value, plus the alignment, less one, with the bits below the alignment cleared. -/
def roundUp (value align : UInt64) : Except WordFault UInt64 := do
  let reach ← (checkedSum value align).elim (.error .sum) .ok
  let last ← (checkedDifference reach 1).elim (.error .difference) .ok
  let mask ← (checkedDifference align 1).elim (.error .difference) .ok
  return clearBelow last mask

def wholeLines (size : UInt64) : Except WordFault UInt64 :=
  roundUp size (.ofNat Limits.cacheLine)

end Cadence
