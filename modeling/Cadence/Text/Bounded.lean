import Cadence.Cells
import Cadence.Text.Utf8

/-!
Texts of at most `cap` bytes that live in a flat block: a length word and `cap` bytes. All-zero
memory is the empty text. Whatever does not fit is cut at a character boundary and never refused.

The block may have been left by someone else, so neither word nor bytes are trusted: the length is
clamped to the capacity, and the text is what the stored bytes spell up to the first fault.
-/

namespace Cadence

structure BoundedText (cap : Nat) where
  word : UInt64
  cells : Vector UInt8 cap
  deriving DecidableEq

namespace BoundedText

variable {cap : Nat}

def empty : BoundedText cap :=
  ⟨0, Vector.replicate cap 0⟩

instance : Inhabited (BoundedText cap) := ⟨empty⟩

/-- Memory as found: any word, and bytes that are filled up with zeros. -/
def ofMemory (word : UInt64) (bytes : List UInt8) : BoundedText cap :=
  ⟨word, blockOf cap 0 bytes⟩

def len (t : BoundedText cap) : Nat := min t.word.toNat cap

def isEmpty (t : BoundedText cap) : Bool := t.len == 0

def isFull (t : BoundedText cap) : Bool := t.len == cap

def remaining (t : BoundedText cap) : Nat := cap - t.len

def bytes (t : BoundedText cap) : List UInt8 := t.cells.toList.take t.len

def chars (t : BoundedText cap) : List Char := Text.decode t.bytes

def text (t : BoundedText cap) : String := .ofList t.chars

/-- Adds as much of the text as fits, and tells how many bytes that was. -/
def append (t : BoundedText cap) (s : String) : BoundedText cap × Nat :=
  let added := Text.encode (Text.fitting t.remaining s.toList)
  (⟨.ofNat (t.len + added.length), overwrite t.cells t.len added⟩, added.length)

/-- Adds one character and tells whether it fitted. -/
def push (t : BoundedText cap) (c : Char) : BoundedText cap × Bool :=
  let (t, added) := t.append c.toString
  (t, added == c.utf8Size)

/-- Replaces the whole text, with the count of bytes kept. -/
def set (_ : BoundedText cap) (s : String) : BoundedText cap × Nat :=
  empty.append s

def ofString (s : String) : BoundedText cap := (empty.append s).1

/-- Adds the pieces one after the other; each is cut on its own, so a later piece may still fill
the gap that an earlier one left. -/
def appendEach (t : BoundedText cap) (pieces : List String) : BoundedText cap :=
  pieces.foldl (fun t piece => (t.append piece).1) t

instance : ToString (BoundedText cap) := ⟨text⟩

/-- Texts compare by what they spell, whatever their capacities. -/
def spellsSame {other : Nat} (s : BoundedText cap) (t : BoundedText other) : Bool :=
  s.text == t.text

instance : Ord (BoundedText cap) := ⟨fun s t => compare s.text t.text⟩

instance : Hashable (BoundedText cap) := ⟨fun t => hash t.text⟩

theorem len_le (t : BoundedText cap) : t.len ≤ cap := Nat.min_le_right ..

@[simp] theorem length_bytes (t : BoundedText cap) : t.bytes.length = t.len := by
  simp [bytes, len_le]

theorem append_count_le (t : BoundedText cap) (s : String) : (t.append s).2 ≤ t.remaining :=
  Text.length_encode_fitting_le ..

@[simp] theorem bytes_empty : (empty : BoundedText cap).bytes = [] := by
  rw [bytes, len, empty, UInt64.toNat_zero, Nat.zero_min, List.take_zero]

@[simp] theorem len_empty : (empty : BoundedText cap).len = 0 := by
  rw [← length_bytes, bytes_empty, List.length_nil]

/-- As long as words can count the block, the bytes that are added stand behind the others. -/
theorem bytes_append (hcap : cap < UInt64.size) (t : BoundedText cap) (s : String) :
    (t.append s).1.bytes = t.bytes ++ Text.encode (Text.fitting t.remaining s.toList) := by
  have hadded : (Text.encode (Text.fitting t.remaining s.toList)).length ≤ cap - t.len :=
    Text.length_encode_fitting_le ..
  have hlen := t.len_le
  have hword : (t.append s).1.len =
      t.len + (Text.encode (Text.fitting t.remaining s.toList)).length := by
    rw [append, len]
    dsimp only
    rw [UInt64.toNat_ofNat_of_lt' (by omega)]
    omega
  rw [bytes, hword]
  exact take_overwrite t.cells (by omega)

theorem text_of_bytes {t : BoundedText cap} {cs : List Char} (h : t.bytes = Text.encode cs) :
    t.text = .ofList cs := by
  rw [text, chars, h, Text.decode_encode]

theorem bytes_ofString (hcap : cap < UInt64.size) (s : String) :
    (ofString s : BoundedText cap).bytes = Text.encode (Text.fitting cap s.toList) := by
  rw [ofString, bytes_append hcap, bytes_empty, List.nil_append, remaining, len_empty, Nat.sub_zero]

end BoundedText

end Cadence
