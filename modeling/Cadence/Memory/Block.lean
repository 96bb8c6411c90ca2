import Cadence.Memory.Bytes

/-!
Memory as a byte at every offset. A block has no end of its own: who may reach how far is decided by
whoever hands it out. Fresh memory is zero everywhere.
-/

namespace Cadence

abbrev Memory := Nat → UInt8

namespace Memory

def zero : Memory := fun _ => 0

def read (m : Memory) (offset count : Nat) : List UInt8 :=
  (List.range count).map fun i => m (offset + i)

/-- Only the bytes at the given ones' places change. -/
def write (m : Memory) (offset : Nat) (bytes : List UInt8) : Memory :=
  let bytes := bytes.toArray
  fun at_ => if offset ≤ at_ then bytes.getD (at_ - offset) (m at_) else m at_

def readWord (m : Memory) (width offset : Nat) : Nat := Bytes.toNat (m.read offset width)

def writeWord (m : Memory) (width offset n : Nat) : Memory :=
  m.write offset (Bytes.ofNat width n)

section

variable {m m' : Memory} {offset count a : Nat} {bytes : List UInt8}

theorem length_read : (m.read offset count).length = count := by
  rw [read, List.length_map, List.length_range]

theorem read_congr (h : ∀ a, offset ≤ a → a < offset + count → m a = m' a) :
    m.read offset count = m'.read offset count :=
  List.map_congr_left fun _ hi =>
    h _ (Nat.le_add_right ..) (Nat.add_lt_add_left (List.mem_range.1 hi) _)

theorem write_apply : m.write offset bytes a =
    (if offset ≤ a then bytes[a - offset]? else none).getD (m a) := by
  dsimp only [write]
  split
  · rw [Array.getD_eq_getD_getElem?, List.getElem?_toArray]
  · rfl

theorem write_outside (h : a < offset ∨ offset + bytes.length ≤ a) :
    m.write offset bytes a = m a := by
  rw [write_apply]
  split
  · rw [List.getElem?_eq_none (by omega)]
    rfl
  · rfl

theorem write_inside {i : Nat} (h : i < bytes.length) :
    m.write offset bytes (offset + i) = bytes[i] := by
  rw [write_apply, if_pos (Nat.le_add_right ..), Nat.add_sub_cancel_left,
    List.getElem?_eq_getElem h]
  rfl

theorem read_write (h : bytes.length = count) :
    (m.write offset bytes).read offset count = bytes := by
  refine List.ext_getElem (length_read.trans h.symm) fun i _ hi => ?_
  simp only [read, List.getElem_map, List.getElem_range]
  exact write_inside hi

theorem read_zero : zero.read offset count = .replicate count 0 := by
  refine List.ext_getElem (by rw [length_read, List.length_replicate]) fun i _ hi => ?_
  simp only [read, List.getElem_map, List.getElem_replicate]
  rfl

theorem readWord_zero {width : Nat} : zero.readWord width offset = 0 := by
  rw [readWord, read_zero, Bytes.toNat_zeros]

theorem readWord_writeWord {width n : Nat} (h : n < 1 <<< (8 * width)) :
    (m.writeWord width offset n).readWord width offset = n := by
  rw [readWord, writeWord, read_write (Bytes.length_ofNat ..), Bytes.toNat_ofNat h]

theorem readWord_congr {width : Nat}
    (h : ∀ a, offset ≤ a → a < offset + width → m a = m' a) :
    m.readWord width offset = m'.readWord width offset :=
  congrArg Bytes.toNat (read_congr h)

theorem writeWord_outside {width n : Nat} (h : a < offset ∨ offset + width ≤ a) :
    m.writeWord width offset n a = m a :=
  write_outside (by rwa [Bytes.length_ofNat])

end

end Memory

end Cadence
