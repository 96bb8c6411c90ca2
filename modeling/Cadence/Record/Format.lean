import Cadence.Lock.Word
import Cadence.Memory.Block
import Cadence.Record.Shape
import Cadence.Ring
import Cadence.Signal.Word
import Cadence.TicketQueue

/-!
How the records that may be used in place lie in memory. A format reads a record from its offset and
writes one back; bytes between the fields stay as they are. Reading zeroed memory gives the record's
fresh value.
-/

namespace Cadence.Record

structure Format (ρ : Type) where
  shape : Shape
  read : Memory → Nat → ρ
  write : ρ → Memory → Nat → Memory

namespace Format

variable {ρ σ τ : Type}

/-- An atomic integer of so many bytes. -/
def word (bytes : Nat) : Format (BitVec (8 * bytes)) where
  shape := .word bytes
  read m offset := .ofNat _ (m.readWord bytes offset)
  write v m offset := m.writeWord bytes offset v.toNat

def word32 : Format UInt32 where
  shape := .word 4
  read m offset := .ofNat (m.readWord 4 offset)
  write v m offset := m.writeWord 4 offset v.toNat

def word64 : Format UInt64 where
  shape := .word 8
  read m offset := .ofNat (m.readWord 8 offset)
  write v m offset := m.writeWord 8 offset v.toNat

/-- Writes one of the items that lie one behind the other. -/
def writeItem {count : Nat} (item : Format ρ) (v : Vector ρ count) (offset : Nat) (m : Memory)
    (i : Fin count) : Memory :=
  item.write v[i] m (offset + i * item.shape.size)

def array (item : Format ρ) (count : Nat) : Format (Vector ρ count) where
  shape := .array item.shape count
  read m offset := .ofFn fun i => item.read m (offset + i * item.shape.size)
  write v m offset := (List.finRange count).foldl (item.writeItem v offset) m

def padded (item : Format ρ) : Format ρ := { item with shape := .padded item.shape }

/-- One record in front of another, which starts `gap` bytes later. -/
def pair (shape : Shape) (first : Format σ) (second : Format τ) (gap : Nat) : Format (σ × τ) where
  shape := shape
  read m offset := (first.read m offset, second.read m (offset + gap))
  write v m offset := second.write v.2 (first.write v.1 m offset) (offset + gap)

/-- The same bytes, read as something else. -/
def as (parts : Format σ) (split : ρ → σ) (join : σ → ρ) : Format ρ where
  shape := parts.shape
  read m offset := join (parts.read m offset)
  write v m offset := parts.write (split v) m offset

def lock : Format LockWord :=
  (pair .lock word32 word32 4).as (fun w => (w.state, w.waiters)) fun w => ⟨w.1, w.2⟩

def signal : Format SignalWord :=
  (pair .signal word32 word32 4).as (fun s => (s.generation, s.waiters)) fun s => ⟨s.1, s.2⟩

/-- A lock in front of a word that it guards. -/
def guardedWord : Format (LockWord × UInt64) := pair (.guarded (.word 8)) lock word64 8

/-- Two words on cache lines of their own. -/
def twoCursors : Format (UInt64 × UInt64) :=
  pair (.array (.padded (.word 8)) 2) (padded word64) (padded word64) 64

def ring {α : Type} (item : Format α) (c : Capacity) : Format (Ring α c) :=
  (pair (.ring item.shape c.size) twoCursors (array item c.size)
    (Extent.aligned 128 item.shape.align)).as
    (fun r => ((r.write, r.read), r.slots)) fun r => ⟨r.1.1, r.1.2, r.2⟩

def slot {α : Type} (item : Format α) : Format (Slot α) :=
  (pair (.slot item.shape) word64 item (Extent.aligned 8 item.shape.align)).as
    (fun s => (s.stamp, s.item)) fun s => ⟨s.1, s.2⟩

/-- Three words on cache lines of their own. -/
def threeCursors : Format ((UInt64 × UInt64) × UInt64) :=
  pair (.array (.padded (.word 8)) 3) twoCursors (padded word64) 128

def queue {α : Type} (item : Format α) (c : Capacity) : Format (TicketQueue α c) :=
  (pair (.queue item.shape c.size) threeCursors (array (slot item) c.size)
    (Extent.aligned 192 (Shape.slot item.shape).align)).as
    (fun q => (((q.head, q.count), q.tail), q.slots)) fun q => ⟨q.1.1.1, q.1.1.2, q.1.2, q.2⟩

def queue64 (c : Capacity) : Format (TicketQueue UInt64 c) := queue word64 c

end Format

end Cadence.Record
