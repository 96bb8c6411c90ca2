import Cadence.Capacity
import Cadence.Fault
import Cadence.Procedure

/-!
A ring between one producer and one consumer. Each owns one cursor and only reads the other's, so a
push and a pop may interleave step by step; the slots from `read` up to `write` belong to the
consumer and the others to the producer. Cursors count up forever and wrap.
-/

namespace Cadence

structure Ring (α : Type) (c : Capacity) where
  write : UInt64
  read : UInt64
  slots : Vector α c.size

namespace Ring

variable {α : Type} {c : Capacity}

/-- All cells blank, as in fresh memory. -/
def empty [Inhabited α] : Ring α c := ⟨0, 0, Vector.replicate _ default⟩

/-- A push between two of its steps. -/
inductive Push (α : Type) where
  | start (item : α)
  /-- Knows its own cursor. -/
  | positioned (item : α) (write : UInt64)
  /-- Has seen room. -/
  | admitted (item : α) (write : UInt64)
  /-- Has filled the slot, which nobody else sees yet. -/
  | filled (write : UInt64)

namespace Push

def step (r : Ring α c) : Push α → Ring α c × Next (Push α) (Except (Rejected .overflow α) Unit)
  | start item => (r, .more (positioned item r.write))
  | positioned item write =>
    if (write - r.read).toNat ≥ c.size then (r, .back (.error ⟨item⟩))
    else (r, .more (admitted item write))
  | admitted item write =>
    ({ r with slots := replaceAt r.slots (c.slot write) item }, .more (filled write))
  | filled write => ({ r with write := write + 1 }, .back (.ok ()))

def rank : Push α → Nat
  | start _ => 4
  | positioned _ _ => 3
  | admitted _ _ => 2
  | filled _ => 1

def call : Procedure (Ring α c) (Push α) (Except (Rejected .overflow α) Unit) where
  step := step
  rank := rank
  rank_lt s p s' p' h := by
    cases p <;> simp only [step] at h <;> (try split at h) <;> cases h <;> simp [rank]

end Push

/-- A pop between two of its steps. -/
inductive Pop (α : Type) where
  | start
  | positioned (read : UInt64)
  /-- Has seen an item. -/
  | admitted (read : UInt64)
  /-- Has copied the item, whose slot is still taken. -/
  | copied (read : UInt64) (item : α)

namespace Pop

def step (r : Ring α c) : Pop α → Ring α c × Next (Pop α) (Except Fault α)
  | start => (r, .more (positioned r.read))
  | positioned read =>
    if r.write = read then (r, .back (.error .empty)) else (r, .more (admitted read))
  | admitted read => (r, .more (copied read (r.slots.get (c.slot read))))
  | copied read item => ({ r with read := read + 1 }, .back (.ok item))

def rank : Pop α → Nat
  | start => 4
  | positioned _ => 3
  | admitted _ => 2
  | copied _ _ => 1

def call : Procedure (Ring α c) (Pop α) (Except Fault α) where
  step := step
  rank := rank
  rank_lt s p s' p' h := by
    cases p <;> simp only [step] at h <;> (try split at h) <;> cases h <;> simp [rank]

end Pop

/-- A count between its two loads: the read cursor first, then the write cursor. -/
inductive Count where
  | start
  | positioned (read : UInt64)

namespace Count

def step (r : Ring α c) : Count → Ring α c × Next Count Nat
  | start => (r, .more (positioned r.read))
  | positioned read => (r, .back (min (r.write - read).toNat c.size))

def rank : Count → Nat
  | start => 2
  | positioned _ => 1

def call : Procedure (Ring α c) Count Nat where
  step := step
  rank := rank
  rank_lt s p s' p' h := by
    cases p <;> simp only [step] at h <;> cases h <;> simp [rank]

end Count

def push (r : Ring α c) (item : α) : Ring α c × Except (Rejected .overflow α) Unit :=
  Push.call.run r (.start item)

def pop (r : Ring α c) : Ring α c × Except Fault α := Pop.call.run r .start

def len (r : Ring α c) : Nat := (Count.call.run r .start).2

def isEmpty (r : Ring α c) : Bool := r.len == 0

def isFull (r : Ring α c) : Bool := r.len == c.size

/-- Everything still stored, oldest first. -/
def drain (r : Ring α c) : List α :=
  (List.range c.size).foldl (fun (r, out) _ =>
    match r.pop with
    | (r, .ok item) => (r, out ++ [item])
    | (r, .error _) => (r, out)) (r, []) |>.2

def describe (r : Ring α c) : String :=
  s!"RingBuffer \x7b len: {r.len}, capacity: {c.size} \x7d"

end Ring

end Cadence
