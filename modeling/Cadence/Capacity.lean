/-!
Capacities that are powers of two. A 64-bit position that only ever counts up finds its slot as a
remainder, and because the capacity divides `2^64` the slots stay in turn when the position wraps.
-/

namespace Cadence

structure Capacity where
  log : Nat
  log_lt : log < 64 := by decide
  deriving DecidableEq

namespace Capacity

def size (c : Capacity) : Nat := 1 <<< c.log

theorem size_pos (c : Capacity) : 0 < c.size := by
  rw [size, Nat.one_shiftLeft]
  exact Nat.two_pow_pos _

theorem size_lt (c : Capacity) : c.size < UInt64.size := by
  rw [size, Nat.one_shiftLeft]
  exact Nat.pow_lt_pow_right (by decide) c.log_lt

def word (c : Capacity) : UInt64 := .ofNat c.size

def ofNat? (n : Nat) : Option Capacity :=
  if h : n.log2 < 64 then
    if 1 <<< n.log2 = n then some ⟨n.log2, h⟩ else none
  else none

/-- The slot that a position falls on. -/
def slot (c : Capacity) (position : UInt64) : Fin c.size :=
  ⟨position.toNat % c.size, Nat.mod_lt _ c.size_pos⟩

theorem size_of_ofNat? {n : Nat} {c : Capacity} (h : ofNat? n = some c) : c.size = n := by
  unfold ofNat? at h
  split at h
  · split at h
    · cases h; assumption
    · cases h
  · cases h

end Capacity

end Cadence
