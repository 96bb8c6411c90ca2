import Cadence.Fault
import Cadence.Record.Shape
import Cadence.Rounding

/-!
Where the records of a segment go. Every program that shares a segment makes the same plan, so only
offsets are agreed on and never addresses. A refused request leaves the plan as it was.
-/

namespace Cadence

structure Plan where
  used : UInt64 := 0
  deriving DecidableEq

namespace Plan

def empty : Plan := {}

def isEmpty (p : Plan) : Bool := p.used == 0

def tooLong : Fault := .invalidArgument "segment layout overflow"

/-- Reserves `size` bytes at the next multiple of `align`, and gives their offset. -/
def reserve (p : Plan) (size align : UInt64) : Except Fault (UInt64 × Plan) := do
  if !isSingleBit align then
    throw (.invalidArgument "alignment must be a power of two")
  let last ← (checkedSum p.used (align - 1)).elim (.error tooLong) .ok
  let start := clearBelow last (align - 1)
  let stop ← (checkedSum start size).elim (.error tooLong) .ok
  return (start, ⟨stop⟩)

/-- Reserves a record, which starts on a cache line of its own. -/
def add (p : Plan) (shape : Record.Shape) : Except Fault (UInt64 × Plan) :=
  p.reserve (.ofNat shape.size) (.ofNat (max shape.align Limits.cacheLine))

/-- The bytes a segment needs for all of it, in whole cache lines. -/
def finish (p : Plan) : Except WordFault UInt64 := wholeLines p.used

end Plan

end Cadence
