/-!
Time as the library sees it: nanoseconds on a clock that never goes back. The clock has an end, and a
deadline beyond it is no deadline at all.
-/

namespace Cadence.Clock

/-- The first reading that the clock can no longer show: its seconds are a signed 64-bit word. -/
def limit : Nat := 9223372036854775808 * 1000000000

/-- The reading at which a timeout that starts now is over, if the clock gets there. -/
def deadline? (now timeout : Nat) : Option Nat :=
  if now + timeout < limit then some (now + timeout) else none

def ofMicros (us : Nat) : Nat := us * 1000

/-- The longest timeout that can be asked for. -/
def longest : Nat := 18446744073709551616 * 1000000000 - 1

end Cadence.Clock
