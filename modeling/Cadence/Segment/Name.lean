import Cadence.Fault

/-!
Names of shared objects: one slash and up to 254 bytes that hold neither slash nor NUL. The slash may
be left out when a name is given, and is always there once it is accepted.
-/

namespace Cadence

abbrev SegmentName := BoundedText Limits.nameBytes

namespace SegmentName

/-- The given name without its leading slash. -/
def bare (given : String) : List Char :=
  match given.toList with
  | '/' :: cs => cs
  | cs => cs

def normalize (given : String) : Except Fault SegmentName :=
  let cs := bare given
  if cs.isEmpty then .error (.invalidArgument "shared memory name is empty")
  else if (Text.encode cs).length + 1 > Limits.nameBytes then
    .error (.invalidArgument "shared memory name too long")
  else if cs.any fun c => c = '/' ∨ c = '\x00' then
    .error (.invalidArgument "shared memory name contains '/' or NUL")
  else .ok (((BoundedText.empty.push '/').1.append (.ofList cs)).1)

theorem bytes_slash : ((BoundedText.empty : SegmentName).push '/').1.bytes = Text.encode ['/'] := by
  change (BoundedText.append _ _).1.bytes = _
  rw [BoundedText.bytes_append (by decide), BoundedText.bytes_empty, List.nil_append,
    BoundedText.remaining, BoundedText.len_empty, Text.fitting_eq_self (by decide)]
  rfl

/-- An accepted name is the slash and all of the bare name, which fits. -/
theorem bytes_of_normalize {given : String} {name : SegmentName} (h : normalize given = .ok name) :
    name.bytes = Text.encode ('/' :: bare given) := by
  rw [normalize] at h
  split at h
  · cases h
  split at h
  · cases h
  split at h
  · cases h
  rename_i _ hlong _
  cases h
  have hroom : ((BoundedText.empty : SegmentName).push '/').1.remaining = Limits.nameBytes - 1 := by
    rw [BoundedText.remaining, ← BoundedText.length_bytes, bytes_slash]
    rfl
  rw [BoundedText.bytes_append (by decide), bytes_slash, hroom, String.toList_ofList,
    Text.fitting_eq_self (by omega)]
  rfl

theorem text_of_normalize {given : String} {name : SegmentName} (h : normalize given = .ok name) :
    name.text = .ofList ('/' :: bare given) := BoundedText.text_of_bytes (bytes_of_normalize h)

end SegmentName

end Cadence
