import Cadence.Periodic.Instant

/-!
Instants and the spans between them. What an instant and a number of nanoseconds come to is the
instant at the exact sum, wherever the clock has one, and the span between two instants leads from
one to the other. None of the numbers on the way needs more than 128 bits.
-/

namespace Cadence

/-- The number, if a signed word of 128 bits holds it. -/
def wide? (n : Int) : Option Int := if (BitVec.ofInt 128 n).toInt = n then some n else none

theorem wide?_eq_some {n : Int} (hlow : -170141183460469231731687303715884105728 ≤ n)
    (hhigh : n < 170141183460469231731687303715884105728) : wide? n = some n := by
  refine if_pos ?_
  rw [BitVec.toInt_ofInt]
  exact Int.bmod_eq_of_le hlow hhigh

theorem wide?_bind {n : Int} (hlow : -170141183460469231731687303715884105728 ≤ n)
    (hhigh : n < 170141183460469231731687303715884105728) {α : Type} (f : Int → Option α) :
    wide? n >>= f = f n := by
  rw [wide?_eq_some hlow hhigh]
  rfl

namespace Instant

def Before (a b : Instant) : Prop :=
  a.seconds < b.seconds ∨ a.seconds = b.seconds ∧ a.nanos < b.nanos

/-- The seconds and the nanoseconds of a sum, with each number on the way in a wide word. -/
def wideSum? (t : Instant) (amount : Int64) : Option (Int × Int) := do
  let past ← wide? (t.nanos + amount.toInt)
  let carried ← wide? (past / nanosPerSecond)
  let seconds ← wide? (t.seconds.toInt + carried)
  let nanos ← wide? (past % nanosPerSecond)
  return (seconds, nanos)

/-- The span from `b` to `a`, with each number on the way in a wide word. -/
def wideSpan? (a b : Instant) : Option Int := do
  let seconds ← wide? (a.seconds.toInt - b.seconds.toInt)
  let whole ← wide? (seconds * nanosPerSecond)
  let nanos ← wide? (a.nanos - b.nanos)
  wide? (whole + nanos)

variable {t t' a b : Instant} {amount m n : Int64}

theorem toNanos_lt_iff : a.toNanos < b.toNanos ↔ a.Before b := by
  have ha := a.nanos_lt
  have hb := b.nanos_lt
  unfold Before toNanos nanosPerSecond
  rw [Int64.lt_iff_toInt_lt, ← Int64.toInt_inj]
  omega

theorem sub_pos_iff : 0 < a.sub b ↔ b.Before a := by
  rw [sub_eq, Int.sub_pos, toNanos_lt_iff]

theorem sub_neg_iff : a.sub b < 0 ↔ a.Before b := by
  rw [sub_eq, ← toNanos_lt_iff]
  omega

theorem sub_eq_zero_iff : a.sub b = 0 ↔ a = b := by
  rw [sub_eq, Int.sub_eq_zero, toNanos_inj]

theorem sub_of_add? (h : t.add? amount = some t') : t'.sub t = amount.toInt := by
  rw [sub_eq, toNanos_of_add? h]
  omega

/-- Two amounts one after the other come to their sum, also where the clock ends. -/
theorem add?_add? (hlow : Int64.minValue.toInt ≤ m.toInt + n.toInt)
    (hhigh : m.toInt + n.toInt ≤ Int64.maxValue.toInt) (h : t.add? m = some t') :
    t'.add? n = t.add? (m + n) := by
  have hsum : (m + n).toInt = m.toInt + n.toInt := by
    rw [Int64.toInt_add]
    exact Int.bmod_eq_of_le hlow (Int.lt_add_one_of_le hhigh)
  ext u
  rw [add?_eq_some_iff, add?_eq_some_iff, hsum, toNanos_of_add? h, Int.add_assoc]

theorem wideSum?_eq (t : Instant) (amount : Int64) : t.wideSum? amount =
    some ((t.toNanos + amount.toInt) / nanosPerSecond,
      (t.toNanos + amount.toInt) % nanosPerSecond) := by
  have hlow := amount.le_toInt
  have hhigh := amount.toInt_lt
  have hfirst := t.seconds.le_toInt
  have hlast := t.seconds.toInt_lt
  have hlt := t.nanos_lt
  rw [← secondsAfter_eq, ← nanosAfter_mod]
  unfold wideSum? secondsAfter nanosAfter nanosPerSecond
  -- a carry has at most 35 bits, so 65 are enough for the seconds
  rw [wide?_bind (by omega) (by omega), wide?_bind (by omega) (by omega),
    wide?_bind (by omega) (by omega), wide?_bind (by omega) (by omega)]
  rfl

theorem wideSpan?_eq (a b : Instant) : a.wideSpan? b = some (a.sub b) := by
  have ha := a.nanos_lt
  have hb := b.nanos_lt
  have hlow := a.seconds.le_toInt
  have hhigh := a.seconds.toInt_lt
  have hlow' := b.seconds.le_toInt
  have hhigh' := b.seconds.toInt_lt
  unfold wideSpan? sub secondsApart nanosApart nanosPerSecond
  -- the widest is the product: 65 bits of seconds, times a number of 30
  rw [wide?_bind (by omega) (by omega), wide?_bind (by omega) (by omega),
    wide?_bind (by omega) (by omega)]
  exact wide?_eq_some (by omega) (by omega)

/-- How an instant is reckoned with. Times and spans are numbers of nanoseconds. -/
structure Exact (t : Instant) : Prop where
  /-- Only the ends of the clock keep a sum from being an instant. -/
  found_iff : ∀ amount : Int64, (∃ t', t.add? amount = some t') ↔
    Int64.minValue.toInt ≤ (t.toNanos + amount.toInt) / nanosPerSecond ∧
      (t.toNanos + amount.toInt) / nanosPerSecond ≤ Int64.maxValue.toInt
  sum_iff : ∀ amount t', t.add? amount = some t' ↔ t'.toNanos = t.toNanos + amount.toInt
  /-- What goes past a second is carried, and what falls short of it is borrowed. -/
  carried : ∀ amount t', t.add? amount = some t' →
    t'.seconds.toInt = (t.toNanos + amount.toInt) / nanosPerSecond ∧
      (t'.nanos : Int) = (t.toNanos + amount.toInt) % nanosPerSecond ∧ t'.nanos < 1000000000
  since : ∀ amount t', t.add? amount = some t' → t'.sub t = amount.toInt
  /-- One amount after another comes to their sum, also where the clock ends. -/
  together : ∀ m n : Int64, Int64.minValue.toInt ≤ m.toInt + n.toInt →
    m.toInt + n.toInt ≤ Int64.maxValue.toInt → ∀ t', t.add? m = some t' →
      t'.add? n = t.add? (m + n)
  span : ∀ u : Instant, t.sub u = t.toNanos - u.toNanos
  ordered : ∀ u : Instant, (t.sub u < 0 ↔ t.Before u) ∧ (t.sub u = 0 ↔ t = u) ∧
    (0 < t.sub u ↔ u.Before t)
  wideSum : ∀ amount : Int64, t.wideSum? amount =
    some ((t.toNanos + amount.toInt) / nanosPerSecond,
      (t.toNanos + amount.toInt) % nanosPerSecond)
  wideSpan : ∀ u : Instant, t.wideSpan? u = some (t.sub u)

theorem reckoned_exactly (t : Instant) : t.Exact where
  found_iff _ := exists_add?_iff
  sum_iff _ _ := add?_eq_some_iff
  carried amount t' h := by
    rw [← toNanos_of_add? h, toNanos_div, toNanos_mod]
    exact ⟨rfl, rfl, t'.nanos_lt⟩
  since _ _ h := sub_of_add? h
  together _ _ hlow hhigh _ h := add?_add? hlow hhigh h
  span := t.sub_eq
  ordered _ := ⟨sub_neg_iff, sub_eq_zero_iff, sub_pos_iff⟩
  wideSum := t.wideSum?_eq
  wideSpan := t.wideSpan?_eq

def latest : Instant where
  seconds := .maxValue
  nanos := 999999999

/-- From the end of the clock, a second and a nanosecond back and two nanoseconds on. -/
theorem reckoned_exactly_atTheEnd :
    (¬∃ t, latest.add? 1 = some t) ∧
    ∃ t u, latest.add? (-1000000001) = some t ∧ t.add? 2 = some u ∧
      latest.add? (-1000000001 + 2) = some u ∧ t.nanos = 999999998 ∧ u.nanos = 0 ∧
      t.sub latest = -1000000001 ∧ t.Before latest ∧ latest.Exact := by
  have hexact := reckoned_exactly latest
  obtain ⟨t, ht⟩ := (hexact.found_iff (-1000000001)).2 (by decide)
  obtain ⟨u, hu⟩ := (hexact.found_iff (-1000000001 + 2)).2 (by decide)
  have htogether := hexact.together (-1000000001) 2 (by decide) (by decide) t ht
  have hback := hexact.since _ t ht
  have hnanos := (hexact.carried _ t ht).2.1
  have hnanos' := (hexact.carried _ u hu).2.1
  refine ⟨fun hfound => ?_, t, u, ht, htogether.trans hu, hu, Int.ofNat_inj.1 hnanos,
    Int.ofNat_inj.1 hnanos', hback, ?_, hexact⟩
  · exact absurd ((hexact.found_iff 1).1 hfound) (by decide)
  · rw [← sub_neg_iff, hback]
    decide

end Instant

end Cadence
