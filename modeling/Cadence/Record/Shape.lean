import Cadence.Limits

/-!
Shapes of flat records: fixed size, no references, and valid when every byte is zero, so that they
can live in memory that several programs map. A shape determines how many bytes a record takes and
what its offset must be a multiple of.
-/

namespace Cadence.Record

structure Extent where
  size : Nat
  align : Nat
  deriving DecidableEq, Repr

namespace Extent

/-- The least multiple of `align` that is not below `offset`. -/
def aligned (offset align : Nat) : Nat := (offset + align - 1) / align * align

theorem le_aligned {offset align : Nat} (h : 0 < align) : offset ≤ aligned offset align := by
  have hdiv := Nat.div_add_mod (offset + align - 1) align
  have hmod := Nat.mod_lt (offset + align - 1) h
  rw [aligned, Nat.mul_comm]
  omega

def empty : Extent := ⟨0, 1⟩

/-- One more field behind the others, at the next offset that suits it. -/
def withField (e field : Extent) : Extent :=
  ⟨aligned e.size field.align + field.size, max e.align field.align⟩

/-- Fields in order of declaration, the whole rounded up to its alignment. -/
def ofFields (fields : List Extent) : Extent :=
  let whole := fields.foldl withField empty
  { whole with size := aligned whole.size whole.align }

def array (item : Extent) (count : Nat) : Extent := ⟨item.size * count, item.align⟩

/-- Moved to cache lines of its own. -/
def padded (e : Extent) : Extent :=
  let align := max e.align Limits.cacheLine
  ⟨aligned e.size align, align⟩

def word (bytes : Nat) : Extent := ⟨bytes, bytes⟩

end Extent

inductive Shape where
  /-- An integer or float of that many bytes, atomic or not. -/
  | word (bytes : Nat)
  | array (item : Shape) (count : Nat)
  | padded (item : Shape)
  /-- A length word and the bytes of a bounded text. -/
  | text (cap : Nat)
  /-- A lock word and a count of waiters. -/
  | lock
  /-- A lock in front of what it guards. -/
  | guarded (payload : Shape)
  | signal
  | ring (item : Shape) (slots : Nat)
  | slot (item : Shape)
  | queue (item : Shape) (slots : Nat)
  deriving DecidableEq, Repr

namespace Shape

def extent : Shape → Extent
  | word bytes => .word bytes
  | array item count => item.extent.array count
  | padded item => item.extent.padded
  | text cap => .ofFields [.word 8, (Extent.word 1).array cap]
  | lock => .ofFields [.word 4, .word 4]
  | guarded payload => .ofFields [.word 4, .word 4, payload.extent]
  | signal => .ofFields [.word 4, .word 4]
  | ring item slots =>
    let cursor := (Extent.word 8).padded
    .ofFields [cursor, cursor, item.extent.array slots]
  | slot item => .ofFields [.word 8, item.extent]
  | queue item slots =>
    let counter := (Extent.word 8).padded
    .ofFields [counter, counter, counter, (Extent.ofFields [.word 8, item.extent]).array slots]

def size (s : Shape) : Nat := s.extent.size

def align (s : Shape) : Nat := s.extent.align

end Shape

end Cadence.Record
