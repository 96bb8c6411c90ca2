import Cadence.Capacity
import Cadence.Fault
import Cadence.Procedure

/-!
A bounded queue from any number of producers to one consumer. A producer first reserves room by
counting itself in, then draws a ticket; the ticket's slot is its own until it publishes the slot's
next sequence. The consumer follows the tickets in order and gives each slot, and after it the
room, back. No step ever retries.

A slot's stamp is its sequence less its index, so that all-zero memory is an empty queue.
-/

namespace Cadence

structure Slot (α : Type) where
  stamp : UInt64
  item : α

instance {α : Type} [Inhabited α] : Inhabited (Slot α) := ⟨⟨0, default⟩⟩

structure TicketQueue (α : Type) (c : Capacity) where
  head : UInt64
  count : UInt64
  tail : UInt64
  slots : Vector (Slot α) c.size

namespace TicketQueue

variable {α : Type} {c : Capacity}

def empty [Inhabited α] : TicketQueue α c := ⟨0, 0, 0, Vector.replicate _ default⟩

def sequence (q : TicketQueue α c) (i : Fin c.size) : UInt64 := (q.slots.get i).stamp + .ofNat i

def setSequence (q : TicketQueue α c) (i : Fin c.size) (sequence : UInt64) : TicketQueue α c :=
  { q with slots := replaceAt q.slots i { q.slots.get i with stamp := sequence - .ofNat i } }

def setItem (q : TicketQueue α c) (i : Fin c.size) (item : α) : TicketQueue α c :=
  { q with slots := replaceAt q.slots i { q.slots.get i with item } }

@[simp] theorem sequence_setSequence_self (q : TicketQueue α c) (i : Fin c.size)
    (sequence : UInt64) : (q.setSequence i sequence).sequence i = sequence := by
  simp [TicketQueue.sequence, setSequence]

theorem sequence_setSequence_of_ne (q : TicketQueue α c) {i j : Fin c.size} (sequence : UInt64)
    (h : j ≠ i) : (q.setSequence i sequence).sequence j = q.sequence j := by
  simp only [TicketQueue.sequence, setSequence, get_replaceAt_of_ne _ _ h]

@[simp] theorem item_setSequence (q : TicketQueue α c) (i j : Fin c.size) (sequence : UInt64) :
    ((q.setSequence i sequence).slots.get j).item = (q.slots.get j).item := by
  by_cases h : j = i
  · subst h
    simp [setSequence]
  · simp only [setSequence, get_replaceAt_of_ne _ _ h]

@[simp] theorem sequence_setItem (q : TicketQueue α c) (i j : Fin c.size) (item : α) :
    (q.setItem i item).sequence j = q.sequence j := by
  by_cases h : j = i
  · subst h
    simp [sequence, setItem]
  · simp only [sequence, setItem, get_replaceAt_of_ne _ _ h]

@[simp] theorem item_setItem_self (q : TicketQueue α c) (i : Fin c.size) (item : α) :
    ((q.setItem i item).slots.get i).item = item := by
  simp [setItem]

theorem item_setItem_of_ne (q : TicketQueue α c) {i j : Fin c.size} (item : α) (h : j ≠ i) :
    ((q.setItem i item).slots.get j).item = (q.slots.get j).item := by
  simp only [setItem, get_replaceAt_of_ne _ _ h]

inductive Enqueued (α : Type) where
  | accepted
  | rejected (item : Rejected .full α)
  /-- The ticket's slot was not free, which means that somebody broke the order. -/
  | clash (found ticket : UInt64)

/-- An enqueue between two of its steps. -/
inductive Enqueue (α : Type) where
  | start (item : α)
  /-- Counted in beyond the capacity, and has to count itself out again. -/
  | refused (item : α)
  | reserved (item : α)
  | ticketed (item : α) (ticket : UInt64)
  /-- Found its slot free. -/
  | cleared (item : α) (ticket : UInt64)
  | filled (ticket : UInt64)

namespace Enqueue

def step (q : TicketQueue α c) : Enqueue α → TicketQueue α c × Next (Enqueue α) (Enqueued α)
  | start item =>
    ({ q with count := q.count + 1 },
      .more (if q.count.toNat ≥ c.size then refused item else reserved item))
  | refused item => ({ q with count := q.count - 1 }, .back (.rejected ⟨item⟩))
  | reserved item => ({ q with head := q.head + 1 }, .more (ticketed item q.head))
  | ticketed item ticket =>
    let found := q.sequence (c.slot ticket)
    (q, if found = ticket then .more (cleared item ticket) else .back (.clash found ticket))
  | cleared item ticket => (q.setItem (c.slot ticket) item, .more (filled ticket))
  | filled ticket => (q.setSequence (c.slot ticket) (ticket + 1), .back .accepted)

def rank : Enqueue α → Nat
  | start _ => 5
  | reserved _ => 4
  | ticketed _ _ => 3
  | cleared _ _ => 2
  | filled _ => 1
  | refused _ => 1

def call : Procedure (TicketQueue α c) (Enqueue α) (Enqueued α) where
  step := step
  rank := rank
  rank_lt s p s' p' h := by
    cases p <;> simp only [step] at h <;> (try split at h) <;> cases h <;> simp [rank]

end Enqueue

/-- A dequeue between two of its steps. -/
inductive Dequeue (α : Type) where
  | start
  | positioned (ticket : UInt64)
  /-- Has seen the slot published. -/
  | admitted (ticket : UInt64)
  | copied (ticket : UInt64) (item : α)
  /-- Has given the slot to the next lap. -/
  | released (ticket : UInt64) (item : α)
  /-- Has moved on to the next ticket, with the room still taken. -/
  | advanced (item : α)

namespace Dequeue

def step (q : TicketQueue α c) : Dequeue α → TicketQueue α c × Next (Dequeue α) (Except Fault α)
  | start => (q, .more (positioned q.tail))
  | positioned ticket =>
    if q.sequence (c.slot ticket) = ticket + 1 then (q, .more (admitted ticket))
    else (q, .back (.error .empty))
  | admitted ticket => (q, .more (copied ticket (q.slots.get (c.slot ticket)).item))
  | copied ticket item =>
    (q.setSequence (c.slot ticket) (ticket + c.word), .more (released ticket item))
  | released ticket item => ({ q with tail := ticket + 1 }, .more (advanced item))
  | advanced item => ({ q with count := q.count - 1 }, .back (.ok item))

def rank : Dequeue α → Nat
  | start => 6
  | positioned _ => 5
  | admitted _ => 4
  | copied _ _ => 3
  | released _ _ => 2
  | advanced _ => 1

def call : Procedure (TicketQueue α c) (Dequeue α) (Except Fault α) where
  step := step
  rank := rank
  rank_lt s p s' p' h := by
    cases p <;> simp only [step] at h <;> (try split at h) <;> cases h <;> simp [rank]

end Dequeue

def enqueue (q : TicketQueue α c) (item : α) : TicketQueue α c × Enqueued α :=
  Enqueue.call.run q (.start item)

def dequeue (q : TicketQueue α c) : TicketQueue α c × Except Fault α := Dequeue.call.run q .start

/-- Rooms taken, those of unpublished tickets included. -/
def len (q : TicketQueue α c) : Nat := min q.count.toNat c.size

def isEmpty (q : TicketQueue α c) : Bool := q.len == 0

/-- Everything published, oldest first. -/
def drain (q : TicketQueue α c) : List α :=
  (List.range c.size).foldl (fun (q, out) _ =>
    match q.dequeue with
    | (q, .ok item) => (q, out ++ [item])
    | (q, .error _) => (q, out)) (q, []) |>.2

def describe (q : TicketQueue α c) : String :=
  s!"BoundedMpscQueue \x7b len: {q.len}, capacity: {c.size} \x7d"

end TicketQueue

end Cadence
