import Cadence.Segment.Handle
import Cadence.Segment.Room

/-!
A run of operations on shared segments: the space that all programs share, and the handles of one of
them, each under a number of its own. A number that is given again lets go of its former handle. All
handles share the addresses of their program.
-/

namespace Cadence

structure SegmentSession where
  space : SharedSpace := {}
  handles : List (Nat × SegmentHandle) := []

namespace SegmentSession

open SharedSpace (Mode)

def handle? (s : SegmentSession) (number : Nat) : Option SegmentHandle := s.handles.lookup number

/-- Drops the handle of a number, and tells whether there was one. -/
def drop (s : SegmentSession) (number : Nat) : SegmentSession × Bool :=
  match s.handle? number with
  | none => (s, false)
  | some h =>
    ({ space := h.drop s.space, handles := s.handles.filter (·.1 != number) }, true)

def keep (s : SegmentSession) (number : Nat) (h : SegmentHandle) : SegmentSession :=
  let s := (s.drop number).1
  { s with handles := (number, h) :: s.handles }

/-- Whether a mapping of so many bytes finds room beside those of the handles. -/
def hasRoom (s : SegmentSession) (len : Nat) : Bool :=
  ((Room.beside (s.handles.reverse.map (·.2.len))).take len).isSome

def create (s : SegmentSession) (number : Nat) (given : String) (size : Nat)
    (mishaps : Mishaps := {}) : SegmentSession × Except Fault SegmentHandle :=
  let mishaps := if s.hasRoom size then mishaps else { mishaps with mapFails := some .noMemory }
  match SegmentHandle.create s.space given size mishaps with
  | (space, .ok h) => ({ s with space }.keep number h, .ok h)
  | (space, .error e) => ({ s with space }, .error e)

def attach (s : SegmentSession) (number : Nat) (given : String) (mode : Mode)
    (mishaps : Mishaps := {}) : SegmentSession × Except Fault SegmentHandle :=
  match SegmentHandle.attach s.space given mode mishaps with
  | .ok h =>
    if s.hasRoom h.len then (s.keep number h, .ok h)
    else (s, .error (.ofErrno "mmap" .noMemory))
  | .error e => (s, .error e)

def remove (s : SegmentSession) (given : String) : SegmentSession × Except Fault Unit :=
  let (space, answer) := SegmentHandle.remove s.space given
  ({ s with space }, answer)

/-- Another program puts an object under a name that is still free. -/
def plant (s : SegmentSession) (given : String) (object : Shared) : SegmentSession :=
  match SegmentName.normalize given with
  | .ok name =>
    if s.space.isTaken name.text then s
    else { s with space := (s.space.add name.text object).1 }
  | .error _ => s

def write (s : SegmentSession) (h : SegmentHandle) (offset : Nat) (bytes : List UInt8) :
    SegmentSession × Except Fault Unit :=
  match h.writeAt s.space offset bytes with
  | .ok space => ({ s with space }, .ok ())
  | .error e => (s, .error e)

def withRecord {ρ α : Type} (s : SegmentSession) (h : SegmentHandle) (format : Record.Format ρ)
    (offset : Nat) (use : ρ → ρ × α) : SegmentSession × Except Fault α :=
  match h.withRecord s.space format offset use with
  | .ok (space, answer) => ({ s with space }, .ok answer)
  | .error e => (s, .error e)

end SegmentSession

end Cadence
