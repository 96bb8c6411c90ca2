import Cadence.Record.Format
import Cadence.Segment.Name
import Cadence.Segment.Space

/-!
Handles on shared segments. Whoever creates a segment registers its name and takes the name back when
the handle is dropped; whoever opens one only maps it. Bytes are copied in and out through any
handle, and records are used in place through those that may write.
-/

namespace Cadence

open SharedSpace (Mode)

/-- What may go wrong on the way to a mapping, step by step, and where the mapping ends up. -/
structure Mishaps where
  openFails : Option Errno := none
  sizeFails : Option Errno := none
  mapFails : Option Errno := none
  /-- The address of the mapping; 0 is no address. -/
  base : UInt64 := 4096

structure SegmentHandle where
  name : SegmentName
  object : ObjectId
  len : Nat
  mode : Mode
  isCreator : Bool
  base : UInt64

/-- A mapping has to start at a cache line. -/
def checkBase (address : UInt64) : Except Fault Unit :=
  if address.toNat % Limits.segmentAlignment = 0 then .ok ()
  else .error (.invalidArgument "mapping not aligned to a cache line")

namespace SegmentHandle

/-- Codes about names become faults that carry the name. -/
def nameFault (call : String) (name : SegmentName) (e : Errno) : Fault :=
  if e = .nameTaken then .alreadyExistsAs name.text
  else if e = .noEntry then .notFoundAs name.text
  else if e = .nameTooLong then .invalidArgument "shared memory name too long"
  else .ofErrno call e

def noAddress : Fault := .systemFailure "mmap" .badAddress

/-- Dropping a handle takes its name back if it is the creator's, whatever the name leads to by
now. -/
def drop (h : SegmentHandle) (s : SharedSpace) : SharedSpace :=
  if h.isCreator then s.unlinked h.name.text else s

def create (s : SharedSpace) (given : String) (size : Nat) (mishaps : Mishaps := {}) :
    SharedSpace × Except Fault SegmentHandle :=
  match SegmentName.normalize given with
  | .error e => (s, .error e)
  | .ok name =>
    if size = 0 ∨ size > Limits.segmentBytes then
      (s, .error (.invalidArgument "segment size out of range"))
    else
      match mishaps.openFails.elim (s.create name.text) .error with
      | .error e => (s, .error (nameFault "shm_open" name e))
      | .ok (s, object) =>
        let s := s.resize object (if mishaps.sizeFails.isSome then 0 else size)
        match mishaps.sizeFails, mishaps.mapFails with
        | some e, _ => (s.unlinked name.text, .error (.ofErrno "ftruncate" e))
        | none, some e => (s.unlinked name.text, .error (.ofErrno "mmap" e))
        | none, none =>
          if mishaps.base = 0 then (s, .error noAddress)
          else
            let h : SegmentHandle :=
              { name, object, len := size, mode := .readWrite, isCreator := true,
                base := mishaps.base }
            match checkBase h.base with
            | .ok () => (s, .ok h)
            | .error e => (h.drop s, .error e)

def attach (s : SharedSpace) (given : String) (mode : Mode) (mishaps : Mishaps := {}) :
    Except Fault SegmentHandle := do
  let name ← SegmentName.normalize given
  let reached ← (mishaps.openFails.elim (s.reach name.text mode) .error).mapError
    (nameFault "shm_open" name)
  if let some e := mishaps.sizeFails then
    throw (.ofErrno "fstat" e)
  match reached with
  | .directory => throw (.ofErrno "mmap" .noDevice)
  | .segment object len =>
    if len = 0 then
      throw (.invalidArgument "shared memory object has zero size")
    if let some e := mishaps.mapFails then
      throw (.ofErrno "mmap" e)
    if mishaps.base = 0 then
      throw noAddress
    checkBase mishaps.base
    return { name, object, len, mode, isCreator := false, base := mishaps.base }

def isPresent (s : SharedSpace) (given : String) : Bool :=
  match SegmentName.normalize given with
  | .error _ => false
  | .ok name =>
    match s.reach name.text .readOnly with
    | .ok _ => true
    | .error e => e != .noEntry

/-- Takes a name away, whoever created it. -/
def remove (s : SharedSpace) (given : String) : SharedSpace × Except Fault Unit :=
  match SegmentName.normalize given with
  | .error e => (s, .error e)
  | .ok name =>
    match s.unlink name.text with
    | .ok s => (s, .ok ())
    | .error e => (s, .error (nameFault "shm_unlink" name e))

def isEmpty (h : SegmentHandle) : Bool := h.len == 0

def checkRange (h : SegmentHandle) (offset count : Nat) : Except Fault Unit :=
  if offset + count ≤ h.len then .ok ()
  else .error (.invalidArgument "range exceeds segment size")

def checkWritable (h : SegmentHandle) (operation : String) : Except Fault Unit :=
  if h.mode = .readWrite then .ok () else .error (.permissionDenied operation)

def readAt (h : SegmentHandle) (s : SharedSpace) (offset count : Nat) :
    Except Fault (List UInt8) := do
  h.checkRange offset count
  return (s.memory h.object).read offset count

def writeAt (h : SegmentHandle) (s : SharedSpace) (offset : Nat) (bytes : List UInt8) :
    Except Fault SharedSpace := do
  h.checkWritable "write to read-only segment"
  h.checkRange offset bytes.length
  return s.store h.object ((s.memory h.object).write offset bytes)

/-- Whether a record of some shape may be used in place at an offset. -/
def checkPlace (h : SegmentHandle) (shape : Record.Shape) (offset : Nat) : Except Fault Unit := do
  h.checkWritable "place on read-only segment"
  h.checkRange offset shape.size
  if (h.base.toNat + offset) % shape.align ≠ 0 then
    throw (.invalidArgument "offset misaligned for record type")

/-- Uses the record at an offset in place. -/
def withRecord {ρ α : Type} (h : SegmentHandle) (s : SharedSpace) (format : Record.Format ρ)
    (offset : Nat) (use : ρ → ρ × α) : Except Fault (SharedSpace × α) := do
  h.checkPlace format.shape offset
  let memory := s.memory h.object
  let (record, answer) := use (format.read memory offset)
  return (s.store h.object (format.write record memory offset), answer)

def modeName : Mode → String
  | .readOnly => "ReadOnly"
  | .readWrite => "ReadWrite"

def describe (h : SegmentHandle) : String :=
  s!"SharedMemorySegment \x7b name: {Text.quoted h.name.text}, len: {h.len}, " ++
    s!"access: {modeName h.mode}, creator: {h.isCreator} \x7d"

end SegmentHandle

end Cadence
