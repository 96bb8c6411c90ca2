import Cadence.Toml.Number
import Cadence.Toml.Reader

/-!
Dates and times. Fields have fixed widths and have to name a day of the calendar and a time of the
day, leap seconds included; seconds may be left out, and only a full date with a time takes an
offset.
-/

namespace Cadence.Toml

namespace Moment

/-- A number of exactly `width` digits within bounds. -/
def field (width low high : Nat) : Reader Nat := do
  let n := valueOf 10 (← Reader.takeExactly width Char.isDigit)
  if low ≤ n ∧ n ≤ high then return n else Reader.refuse

def isLeap (year : Nat) : Bool := year % 4 == 0 && (year % 100 != 0 || year % 400 == 0)

def daysIn (year month : Nat) : Nat :=
  if month = 2 then (if isLeap year then 29 else 28)
  else if month ∈ [4, 6, 9, 11] then 30
  else 31

def date : Reader Unit := do
  let year ← field 4 0 9999
  Reader.expect ['-']
  let month ← field 2 1 12
  Reader.expect ['-']
  discard (field 2 1 (daysIn year month))

def time : Reader Unit := do
  discard (field 2 0 23)
  Reader.expect [':']
  discard (field 2 0 59)
  if ← Reader.accept [':'] then
    discard (field 2 0 60)
    if ← Reader.accept ['.'] then
      discard (Reader.takeWhile1 Char.isDigit)

def offset : Reader Unit := do
  if ← Reader.accept ['Z'] then return
  if ← Reader.accept ['z'] then return
  if !(← Reader.accept ['+']) then Reader.expect ['-']
  discard (field 2 0 23)
  Reader.expect [':']
  discard (field 2 0 59)

/-- What stands between a date and a time. -/
def separator : Reader Bool := do
  if ← Reader.accept ['T'] then return true
  if ← Reader.accept ['t'] then return true
  Reader.accept [' ']

def full : Reader Unit := do
  date
  if ← separator then
    time
    if !(← Reader.atEnd) then offset

end Moment

def isMoment (cs : List Char) : Bool :=
  (Moment.full.whole? cs).isSome || (Moment.time.whole? cs).isSome

end Cadence.Toml
