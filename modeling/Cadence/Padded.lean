import Cadence.Record.Shape

/-!
A counter on cache lines of its own, so that writing to it disturbs no neighbour. It counts in words
and wraps.
-/

namespace Cadence

structure Padded where
  value : UInt64 := 0
  deriving DecidableEq, Inhabited

namespace Padded

/-- What a value of a given shape takes when it is kept apart. -/
def shapeAround (inner : Record.Shape) : Record.Shape := .padded inner

def shape : Record.Shape := shapeAround (.word 8)

def add (p : Padded) (amount : UInt64) : Padded := ⟨p.value + amount⟩

def describe (p : Padded) : String := s!"CachePadded \x7b value: {p.value} \x7d"

end Padded

end Cadence
