import Cadence.Capacity
import Cadence.Cells
import Cadence.Fault
import Cadence.Procedure

/-!
A queue of byte frames that are written and read in place. Room and tickets are handed out as in the
ticket queue, but a frame carries no sequence: one flag says whether it waits to be read. Whatever a
writer's or reader's own code does, the frame moves on when that code is left, also by a panic, and
keeps its bytes for the next lap.
-/

namespace Cadence

namespace FramePool

/-- Sizes that a pool can have. -/
structure Geometry where
  frameLen : Nat
  capacity : Capacity
  frameLen_pos : 0 < frameLen
  total_le : frameLen * capacity.size ≤ Limits.allocationBytes

def Geometry.check (frameLen frames : Nat) : Except Fault Geometry :=
  if hpos : 0 < frameLen then
    match Capacity.ofNat? frames with
    | none => .error (.invalidArgument "frame count must be a power of two")
    | some capacity =>
      if htotal : frameLen * capacity.size ≤ Limits.allocationBytes then
        .ok ⟨frameLen, capacity, hpos, htotal⟩
      else .error (.invalidArgument "frame buffer too large")
  else .error (.invalidArgument "frame length must be non-zero")

end FramePool

abbrev Frame (len : Nat) := Vector UInt8 len

structure FramePool (len : Nat) (c : Capacity) where
  count : UInt64
  head : UInt64
  tail : UInt64
  /-- Frames that wait to be read. -/
  ready : Vector Bool c.size
  frames : Vector (Frame len) c.size

namespace FramePool

variable {len : Nat} {c : Capacity} {ε : Type}

def empty : FramePool len c :=
  ⟨0, 0, 0, Vector.replicate _ false, Vector.replicate _ (Vector.replicate _ 0)⟩

/-- How the caller's own code was left. -/
inductive Ending (ε : Type) where
  | returned (answer : ε)
  | panicked (text : String)

/-- The caller's code for filling a frame. -/
abbrev Writer (len : Nat) (ε : Type) := Frame len → Frame len × Ending ε

/-- The caller's code for reading a frame. -/
abbrev Reader (len : Nat) (ε : Type) := Frame len → Ending ε

inductive Written (len : Nat) (ε : Type) where
  | done (ending : Ending ε)
  /-- The code is handed back uncalled. -/
  | rejected (writer : Rejected .full (Writer len ε))
  /-- The ticket's frame still waited to be read. -/
  | clash

/-- A write between two of its steps. -/
inductive Write (len : Nat) (ε : Type) where
  | start (writer : Writer len ε)
  | refused (writer : Writer len ε)
  | reserved (writer : Writer len ε)
  | ticketed (writer : Writer len ε) (ticket : UInt64)
  /-- Owns the frame and runs the caller's code. -/
  | inside (writer : Writer len ε) (ticket : UInt64)
  /-- Has left the caller's code, with the frame not yet published. -/
  | leaving (ticket : UInt64) (ending : Ending ε)

namespace Write

def step (p : FramePool len c) :
    Write len ε → FramePool len c × Next (Write len ε) (Written len ε)
  | start writer =>
    ({ p with count := p.count + 1 },
      .more (if p.count.toNat ≥ c.size then refused writer else reserved writer))
  | refused writer => ({ p with count := p.count - 1 }, .back (.rejected ⟨writer⟩))
  | reserved writer => ({ p with head := p.head + 1 }, .more (ticketed writer p.head))
  | ticketed writer ticket =>
    (p, if p.ready.get (c.slot ticket) then .back .clash else .more (inside writer ticket))
  | inside writer ticket =>
    let (frame, ending) := writer (p.frames.get (c.slot ticket))
    ({ p with frames := replaceAt p.frames (c.slot ticket) frame }, .more (leaving ticket ending))
  | leaving ticket ending =>
    ({ p with ready := replaceAt p.ready (c.slot ticket) true }, .back (.done ending))

def rank : Write len ε → Nat
  | start _ => 5
  | reserved _ => 4
  | ticketed _ _ => 3
  | inside _ _ => 2
  | leaving _ _ => 1
  | refused _ => 1

def call : Procedure (FramePool len c) (Write len ε) (Written len ε) where
  step := step
  rank := rank
  rank_lt s p s' p' h := by
    cases p <;> simp only [step] at h <;> (try split at h) <;> cases h <;> simp [rank]

end Write

/-- A read between two of its steps. -/
inductive Read (len : Nat) (ε : Type) where
  | start (reader : Reader len ε)
  | positioned (reader : Reader len ε) (ticket : UInt64)
  /-- Has seen the frame ready and runs the caller's code. -/
  | inside (reader : Reader len ε) (ticket : UInt64)
  | leaving (ticket : UInt64) (ending : Ending ε)
  /-- Has cleared the flag. -/
  | cleared (ticket : UInt64) (ending : Ending ε)
  /-- Has moved on to the next ticket, with the room still taken. -/
  | advanced (ending : Ending ε)

namespace Read

def step (p : FramePool len c) :
    Read len ε → FramePool len c × Next (Read len ε) (Except Fault (Ending ε))
  | start reader => (p, .more (positioned reader p.tail))
  | positioned reader ticket =>
    (p, if p.ready.get (c.slot ticket) then .more (inside reader ticket) else .back (.error .empty))
  | inside reader ticket => (p, .more (leaving ticket (reader (p.frames.get (c.slot ticket)))))
  | leaving ticket ending =>
    ({ p with ready := replaceAt p.ready (c.slot ticket) false }, .more (cleared ticket ending))
  | cleared ticket ending => ({ p with tail := ticket + 1 }, .more (advanced ending))
  | advanced ending => ({ p with count := p.count - 1 }, .back (.ok ending))

def rank : Read len ε → Nat
  | start _ => 6
  | positioned _ _ => 5
  | inside _ _ => 4
  | leaving _ _ => 3
  | cleared _ _ => 2
  | advanced _ => 1

def call : Procedure (FramePool len c) (Read len ε) (Except Fault (Ending ε)) where
  step := step
  rank := rank
  rank_lt s p s' p' h := by
    cases p <;> simp only [step] at h <;> (try split at h) <;> cases h <;> simp [rank]

end Read

def write (p : FramePool len c) (writer : Writer len ε) : FramePool len c × Written len ε :=
  Write.call.run p (.start writer)

def read (p : FramePool len c) (reader : Reader len ε) :
    FramePool len c × Except Fault (Ending ε) :=
  Read.call.run p (.start reader)

/-- Frames that are being filled or wait to be read. -/
def held (p : FramePool len c) : Nat := min p.count.toNat c.size

def isEmpty (p : FramePool len c) : Bool := p.held == 0

/-- A writer that lays bytes over the frame from `start` on, and then returns what the frame holds
or panics. -/
def layOver (start : Nat) (bytes : List UInt8) (failure : Option String) :
    Writer len (Frame len) := fun frame =>
  let frame := overwrite frame start bytes
  (frame, match failure with
    | some text => .panicked text
    | none => .returned frame)

/-- A reader that copies the frame, or panics. -/
def copyOut (failure : Option String) : Reader len (Frame len) := fun frame =>
  match failure with
  | some text => .panicked text
  | none => .returned frame

def describe (p : FramePool len c) : String :=
  s!"FrameBuffer \x7b frame_len: {len}, len: {p.held}, capacity: {c.size} \x7d"

end FramePool

end Cadence
