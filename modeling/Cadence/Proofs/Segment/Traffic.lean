import Cadence.Proofs.Run
import Cadence.Proofs.Segment.Calls
import Cadence.Segment.Session

/-!
Any number of handles around one space of names. A move is one call, by whichever program. A number
stands for one handle from the call that makes it to the drop, so whoever makes a handle takes a
number that is free. Reading changes nothing and is no move.
-/

namespace Cadence

inductive Foreign where
  | file (size : UInt64) (memory : Memory)
  | symlink
  | directory

namespace Foreign

def shared : Foreign → Shared
  | file size memory => .segment size.toNat memory
  | symlink => .symlink
  | directory => .directory

end Foreign

namespace SegmentSession

open SharedSpace (Mode)

inductive Move where
  | create (number : Nat) (given : String) (size : Nat) (mishaps : Mishaps)
  | attach (number : Nat) (given : String) (mode : Mode) (mishaps : Mishaps)
  | remove (given : String)
  | drop (number : Nat)
  | write (number offset : Nat) (bytes : List UInt8)
  | plant (given : String) (object : Foreign)

/-- Whether the numbers of a move stand for what they should. -/
def permits (s : SegmentSession) : Move → Bool
  | .create number _ _ _ | .attach number _ _ _ => (s.handle? number).isNone
  | .drop number | .write number _ _ => (s.handle? number).isSome
  | .remove _ | .plant _ _ => true

def serve (s : SegmentSession) : Move → SegmentSession × Except Fault Unit
  | .create number given size mishaps =>
    let (s, answer) := s.create number given size mishaps
    (s, answer.map fun _ => ())
  | .attach number given mode mishaps =>
    let (s, answer) := s.attach number given mode mishaps
    (s, answer.map fun _ => ())
  | .remove given => s.remove given
  | .drop number => ((s.drop number).1, .ok ())
  | .write number offset bytes =>
    match s.handle? number with
    | some h => s.write h offset bytes
    | none => (s, .ok ())
  | .plant given object => (s.plant given object.shared, .ok ())

/-- What goes wrong on the way to a mapping, with the room for it. -/
def amid (s : SegmentSession) (size : Nat) (mishaps : Mishaps) : Mishaps :=
  if s.hasRoom size then mishaps else { mishaps with mapFails := some .noMemory }

def fire (s : SegmentSession) (move : Move) : Option SegmentSession :=
  if s.permits move then some (s.serve move).1 else none

def run (s : SegmentSession) (moves : List Move) : Option SegmentSession := moves.foldlM fire s

inductive Turn (s : SegmentSession) : Move → SegmentSession → Except Fault Unit → Prop where
  | refuse (move : Move) (e : Fault) : Turn s move s (.error e)
  | retract (number : Nat) (given : String) (size len : Nat) (mishaps : Mishaps) (e : Fault) :
      Turn s (.create number given size mishaps)
        { s with space := { s.space with objects := s.space.objects.push (.segment len .zero) } }
        (.error e)
  | orphan (number : Nat) (given : String) (size : Nat) (mishaps : Mishaps) (name : SegmentName)
      (known : SegmentName.normalize given = .ok name)
      (free : s.space.isTaken name.text = false) (le : size ≤ Limits.segmentBytes)
      (room : s.hasRoom size = true) (nowhere : mishaps.Nowhere) :
      Turn s (.create number given size mishaps)
        { s with space := (s.space.add name.text (.segment size .zero)).1 }
        (.error SegmentHandle.noAddress)
  | create (number : Nat) (given : String) (size : Nat) (mishaps : Mishaps) (name : SegmentName)
      (base : UInt64) (unused : s.handle? number = none)
      (known : SegmentName.normalize given = .ok name)
      (free : s.space.isTaken name.text = false) (pos : 0 < size)
      (le : size ≤ Limits.segmentBytes) (aligned : base.toNat % Limits.segmentAlignment = 0) :
      Turn s (.create number given size mishaps)
        { space := (s.space.add name.text (.segment size .zero)).1
          handles := (number, .ofMaker s.space name size base) :: s.handles } (.ok ())
  | attach (number : Nat) (given : String) (mode : Mode) (mishaps : Mishaps) (h : SegmentHandle)
      (unused : s.handle? number = none)
      (attached : SegmentHandle.Attached s.space given mode h) :
      Turn s (.attach number given mode mishaps) { s with handles := (number, h) :: s.handles }
        (.ok ())
  | remove (given : String) (name : SegmentName) (known : SegmentName.normalize given = .ok name)
      (id : ObjectId) (found : s.space.find? name.text = some id)
      (other : s.space.object? id ≠ some .directory) :
      Turn s (.remove given) { s with space := s.space.without name.text } (.ok ())
  | drop (number : Nat) (h : SegmentHandle) (here : s.handle? number = some h) :
      Turn s (.drop number)
        { space := h.drop s.space, handles := s.handles.filter (·.1 != number) } (.ok ())
  | write (number offset : Nat) (bytes : List UInt8) (h : SegmentHandle)
      (here : s.handle? number = some h) (writable : h.mode = .readWrite)
      (fits : offset + bytes.length ≤ h.len) :
      Turn s (.write number offset bytes)
        { s with space := s.space.store h.object ((s.space.memory h.object).write offset bytes) }
        (.ok ())
  | plant (given : String) (object : Foreign) (name : SegmentName)
      (known : SegmentName.normalize given = .ok name)
      (free : s.space.isTaken name.text = false) :
      Turn s (.plant given object) { s with space := (s.space.add name.text object.shared).1 }
        (.ok ())
  /-- The name cannot be had, and the other program is not heard. -/
  | forgo (given : String) (object : Foreign)
      (taken : ∀ name, SegmentName.normalize given = .ok name → s.space.isTaken name.text = true) :
      Turn s (.plant given object) s (.ok ())

variable {s s' : SegmentSession} {move : Move}

theorem fire_eq_some :
    s.fire move = some s' ↔ s.permits move = true ∧ (s.serve move).1 = s' := by
  rw [fire]
  split
  · rename_i permitted
    rw [Option.some.injEq, and_iff_right permitted]
  · rename_i forbidden
    exact iff_of_false nofun fun h => forbidden h.1

theorem keep_of_unused {space : SharedSpace} {number : Nat} {h : SegmentHandle}
    (unused : s.handle? number = none) :
    { s with space }.keep number h = { space, handles := (number, h) :: s.handles } := by
  have unused : { s with space }.handle? number = none := unused
  rw [keep, SegmentSession.drop, unused]

theorem nowhere_amid {size : Nat} {mishaps : Mishaps} :
    (s.amid size mishaps).Nowhere ↔ s.hasRoom size = true ∧ mishaps.Nowhere := by
  rw [amid]
  split
  · exact (and_iff_right ‹_›).symm
  · exact iff_of_false (fun h => nomatch h.maps) fun h => ‹¬ _› h.1

theorem turn_of_create {number : Nat} {given : String} {size : Nat} {mishaps : Mishaps}
    (unused : s.handle? number = none) :
    s.Turn (.create number given size mishaps) (s.create number given size mishaps).1
      ((s.create number given size mishaps).2.map fun _ => ()) := by
  rw [SegmentSession.create, ← amid]
  have making := SegmentHandle.making_of_create s.space given size (s.amid size mishaps)
  generalize SegmentHandle.create s.space given size (s.amid size mishaps) = made at making
  obtain ⟨space, answer⟩ := made
  dsimp only at making
  cases making with
  | refuse e => exact .refuse _ e
  | retract len e => exact .retract number given size len mishaps e
  | orphan name known free le nowhere =>
    obtain ⟨room, nowhere⟩ := nowhere_amid.1 nowhere
    exact .orphan number given size mishaps name known free le room nowhere
  | make name known free pos le aligned =>
    dsimp only
    rw [keep_of_unused unused]
    exact .create number given size mishaps name _ unused known free pos le aligned

theorem turn_of_attach {number : Nat} {given : String} {mode : Mode} {mishaps : Mishaps}
    (unused : s.handle? number = none) :
    s.Turn (.attach number given mode mishaps) (s.attach number given mode mishaps).1
      ((s.attach number given mode mishaps).2.map fun _ => ()) := by
  rw [SegmentSession.attach]
  split
  · rename_i h hattach
    split
    · rw [show s.keep number h = _ from keep_of_unused unused]
      exact .attach number given mode mishaps h unused (SegmentHandle.attached_of_attach hattach)
    · exact .refuse _ _
  · exact .refuse _ _

theorem turn_of_remove {given : String} :
    s.Turn (.remove given) (s.remove given).1 (s.remove given).2 := by
  cases known : SegmentName.normalize given with
  | error e =>
    rw [SegmentSession.remove, SegmentHandle.remove_of_malformed known]
    exact .refuse _ e
  | ok name =>
    cases hunlink : s.space.unlink name.text with
    | error e =>
      rw [SegmentSession.remove, SegmentHandle.remove_of_error known hunlink]
      exact .refuse _ _
    | ok space =>
      rw [SegmentSession.remove, SegmentHandle.remove_of_ok known hunlink]
      obtain ⟨id, -, found, other, rfl⟩ := SharedSpace.unlink_eq_ok hunlink
      exact .remove given name known id found other

theorem turn_of_drop {number : Nat} {h : SegmentHandle} (here : s.handle? number = some h) :
    s.Turn (.drop number) (s.drop number).1 (.ok ()) := by
  rw [SegmentSession.drop, here]
  exact .drop number h here

theorem turn_of_write {number offset : Nat} {bytes : List UInt8} {h : SegmentHandle}
    (here : s.handle? number = some h) :
    s.Turn (.write number offset bytes) (s.write h offset bytes).1 (s.write h offset bytes).2 := by
  rw [SegmentSession.write]
  split
  · rename_i hwrite
    obtain ⟨writable, fits, rfl⟩ := SegmentHandle.writeAt_eq_ok.1 hwrite
    exact .write number offset bytes h here writable fits
  · exact .refuse _ _

theorem turn_of_plant {given : String} {object : Foreign} :
    s.Turn (.plant given object) (s.plant given object.shared) (.ok ()) := by
  rw [SegmentSession.plant]
  split
  · rename_i name known
    split
    · rename_i taken
      refine .forgo given object fun name' known' => ?_
      cases known.symm.trans known'
      exact taken
    · rename_i free
      exact .plant given object name known (Bool.eq_false_iff.2 free)
  · rename_i known
    refine .forgo given object fun name' known' => ?_
    cases known.symm.trans known'

theorem turn_of_fire (hfire : s.fire move = some s') : s.Turn move s' (s.serve move).2 := by
  obtain ⟨permitted, rfl⟩ := fire_eq_some.1 hfire
  cases move with
  | create number given size mishaps =>
    exact turn_of_create (Option.isNone_iff_eq_none.1 permitted)
  | attach number given mode mishaps =>
    exact turn_of_attach (Option.isNone_iff_eq_none.1 permitted)
  | remove given => exact turn_of_remove
  | drop number =>
    obtain ⟨h, here⟩ := Option.isSome_iff_exists.1 permitted
    exact turn_of_drop here
  | write number offset bytes =>
    obtain ⟨h, here⟩ := Option.isSome_iff_exists.1 permitted
    rw [serve, here]
    exact turn_of_write here
  | plant given object => exact turn_of_plant

end SegmentSession

end Cadence
