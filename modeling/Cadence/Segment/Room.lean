/-!
Where a program has room for mappings. Its own code stands two thirds of the way up its addresses, so
that two runs of them are free; a mapping takes what it needs from the upper run, or from the lower
one if it does not fit there. No mapping is larger than the lower run.
-/

namespace Cadence

/-- Bytes of the free runs, from the top. -/
abbrev Room := List Nat

namespace Room

def pageBytes : Nat := 4096

def wholePages (len : Nat) : Nat := (len + pageBytes - 1) / pageBytes * pageBytes

def tebibyte : Nat := 1099511627776

/-- Before anything is mapped. What code and stack take themselves is left out. -/
def fresh : Room := [42 * tebibyte, 85 * tebibyte]

/-- The room that a mapping leaves, if it finds any. -/
def take : Room → Nat → Option Room
  | [], _ => none
  | free :: rest, len =>
    if wholePages len ≤ free then some ((free - wholePages len) :: rest)
    else (take rest len).map (free :: ·)

/-- The room beside mappings that are there. -/
def beside (lens : List Nat) : Room := lens.foldl (fun r len => (r.take len).getD r) fresh

end Room

end Cadence
