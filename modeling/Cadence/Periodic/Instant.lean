/-!
Points in time as the clock shows them: whole seconds, which are a signed 64-bit word, and the
nanoseconds past them. Sums and differences are exact; a sum whose seconds do not fit has no instant.
The values on the way to a result have names, so that their size can be spoken of.
-/

namespace Cadence

structure Instant where
  seconds : Int64
  nanos : Nat
  nanos_lt : nanos < 1000000000 := by decide
  deriving DecidableEq

namespace Instant

def nanosPerSecond : Int := 1000000000

/-- Nanoseconds since the zero of the clock. -/
def toNanos (t : Instant) : Int := t.seconds.toInt * nanosPerSecond + t.nanos

/-- Nanoseconds past the old second, not yet carried. -/
def nanosAfter (t : Instant) (amount : Int64) : Int := t.nanos + amount.toInt

def secondsAfter (t : Instant) (amount : Int64) : Int :=
  t.seconds.toInt + t.nanosAfter amount / nanosPerSecond

def add? (t : Instant) (amount : Int64) : Option Instant :=
  let seconds := t.secondsAfter amount
  if Int64.minValue.toInt ≤ seconds ∧ seconds ≤ Int64.maxValue.toInt then
    some {
      seconds := .ofInt seconds
      nanos := (t.nanosAfter amount % nanosPerSecond).toNat
      nanos_lt := by unfold nanosPerSecond; omega }
  else none

def secondsApart (a b : Instant) : Int := a.seconds.toInt - b.seconds.toInt

def nanosApart (a b : Instant) : Int := a.nanos - b.nanos

/-- How long after `b` the instant `a` is. -/
def sub (a b : Instant) : Int := a.secondsApart b * nanosPerSecond + a.nanosApart b

def ofNanos (n : Nat) : Instant :=
  { seconds := .ofNat (n / 1000000000), nanos := n % 1000000000, nanos_lt := by omega }

theorem toNanos_div (t : Instant) : t.toNanos / nanosPerSecond = t.seconds.toInt := by
  have hlt := t.nanos_lt
  unfold toNanos nanosPerSecond
  omega

theorem toNanos_mod (t : Instant) : t.toNanos % nanosPerSecond = t.nanos := by
  have hlt := t.nanos_lt
  unfold toNanos nanosPerSecond
  omega

/-- A time has one instant that shows it. -/
theorem toNanos_inj {a b : Instant} : a.toNanos = b.toNanos ↔ a = b := by
  refine ⟨fun hsame => ?_, congrArg toNanos⟩
  have hseconds := a.toNanos_div
  have hnanos := a.toNanos_mod
  rw [hsame, toNanos_div] at hseconds
  rw [hsame, toNanos_mod] at hnanos
  cases a
  cases b
  cases Int64.toInt_inj.1 hseconds
  cases Int.ofNat_inj.1 hnanos
  rfl

/-- The whole seconds of the exact sum. -/
theorem secondsAfter_eq (t : Instant) (amount : Int64) :
    t.secondsAfter amount = (t.toNanos + amount.toInt) / nanosPerSecond := by
  unfold secondsAfter nanosAfter toNanos nanosPerSecond
  omega

/-- What the exact sum has past its whole seconds. -/
theorem nanosAfter_mod (t : Instant) (amount : Int64) :
    t.nanosAfter amount % nanosPerSecond = (t.toNanos + amount.toInt) % nanosPerSecond := by
  unfold nanosAfter toNanos nanosPerSecond
  omega

theorem toNanos_of_add? {t t' : Instant} {amount : Int64} (h : t.add? amount = some t') :
    t'.toNanos = t.toNanos + amount.toInt := by
  have hsum := t.secondsAfter_eq amount
  unfold add? at h
  dsimp only at h
  split at h
  · rename_i fits
    cases h
    unfold toNanos
    dsimp only
    rw [Int64.toInt_ofInt_of_le fits.1 (Int.lt_add_one_of_le fits.2)]
    unfold secondsAfter nanosAfter nanosPerSecond
    omega
  · cases h

/-- Only the ends of the clock keep a sum from being an instant. -/
theorem exists_add?_iff {t : Instant} {amount : Int64} : (∃ t', t.add? amount = some t') ↔
    Int64.minValue.toInt ≤ (t.toNanos + amount.toInt) / nanosPerSecond ∧
      (t.toNanos + amount.toInt) / nanosPerSecond ≤ Int64.maxValue.toInt := by
  rw [← secondsAfter_eq]
  refine ⟨fun ⟨t', h⟩ => ?_, fun fits => ⟨_, if_pos fits⟩⟩
  exact (Option.ite_none_right_eq_some.1 h).1

theorem add?_eq_some_iff {t t' : Instant} {amount : Int64} :
    t.add? amount = some t' ↔ t'.toNanos = t.toNanos + amount.toInt := by
  refine ⟨toNanos_of_add?, fun hsum => ?_⟩
  have fits : Int64.minValue.toInt ≤ (t.toNanos + amount.toInt) / nanosPerSecond ∧
      (t.toNanos + amount.toInt) / nanosPerSecond ≤ Int64.maxValue.toInt := by
    rw [← hsum, toNanos_div]
    exact ⟨t'.seconds.minValue_le_toInt, t'.seconds.toInt_le⟩
  obtain ⟨found, hfound⟩ := exists_add?_iff.2 fits
  rw [hfound, ← toNanos_inj.1 ((toNanos_of_add? hfound).trans hsum.symm)]

/-- A later time that the clock can show. -/
theorem exists_add? {t : Instant} {amount : Int64} (hpos : 0 ≤ amount.toInt)
    (hfits : t.toNanos + amount.toInt < 9223372036854775808 * nanosPerSecond) :
    ∃ t', t.add? amount = some t' := by
  have hmin := t.seconds.minValue_le_toInt
  have hmax : Int64.maxValue.toInt = 9223372036854775807 := rfl
  have hseconds := t.toNanos_div
  refine exists_add?_iff.2 ?_
  unfold nanosPerSecond at hfits hseconds ⊢
  omega

theorem sub_eq (a b : Instant) : a.sub b = a.toNanos - b.toNanos := by
  unfold sub secondsApart nanosApart toNanos
  rw [Int.sub_mul]
  omega

end Instant

end Cadence
