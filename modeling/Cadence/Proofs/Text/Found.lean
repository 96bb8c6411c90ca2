import Cadence.Proofs.Text.Edits
import Cadence.Proofs.Text.Spelling
import Mathlib.Data.Nat.Find

/-!
Texts in memory that somebody else has left. Neither the length word nor the bytes are trusted, so
what is done with them is also given step by step, each step with the check of its bounds: a stretch
has to lie in its block, a copy needs as many cells as it has items, a number must not fall below
zero or leave the words. Whatever the memory holds, no check fails. Text that is added shows behind
text only: behind broken bytes it is kept, but never read.
-/

namespace Cadence

section

variable {α : Type} {n : Nat}

/-- The cells from `start` up to `stop`, if there are so many. -/
def stretch? (cells : List α) (start stop : Nat) : Option (List α) :=
  if start ≤ stop ∧ stop ≤ cells.length then some ((cells.take stop).drop start) else none

/-- The block with `items` in its cells from `start` up to `stop`, if these are its cells and as
many as the items. -/
def copyOver? (cells : Vector α n) (start stop : Nat) (items : List α) : Option (Vector α n) :=
  if start ≤ stop ∧ stop ≤ n ∧ items.length = stop - start then some (overwrite cells start items)
  else none

theorem stretch?_zero {cells : List α} {k : Nat} (h : k ≤ cells.length) :
    stretch? cells 0 k = some (cells.take k) := by
  rw [stretch?, if_pos ⟨Nat.zero_le k, h⟩, List.drop_zero]

def sum? (a b : Nat) : Option Nat := if a + b < UInt64.size then some (a + b) else none

def difference? (a b : Nat) : Option Nat := if b ≤ a then some (a - b) else none

end

namespace Text

/-- Back from a place to the nearest boundary, byte by byte; before the first byte there is none. -/
def stepBack? (s : String) : Nat → Option Nat
  | 0 => if String.Pos.Raw.isValid s ⟨0⟩ then some 0 else none
  | k + 1 => if String.Pos.Raw.isValid s ⟨k + 1⟩ then some (k + 1) else stepBack? s k

def cut? (s : String) (room : Nat) : Option Nat :=
  if s.utf8ByteSize ≤ room then some s.utf8ByteSize else stepBack? s room

/-- The last place up to which the bytes are a text. -/
def validUpTo (bytes : List UInt8) : Nat :=
  Nat.findGreatest (fun k => (bytes.take k).toByteArray.IsValidUTF8) bytes.length

variable {s : String} {room k : Nat} {bytes : List UInt8}

theorem CutAt.stepBack? (h : CutAt s room k) : stepBack? s room = some k := by
  induction room with
  | zero =>
    obtain rfl : k = 0 := Nat.le_zero.1 h.fits
    exact if_pos (String.Pos.Raw.isValid_eq_true_iff.2 h.boundary)
  | succ room ih =>
    rw [Text.stepBack?]
    split
    · rename_i valid
      have hle := h.last _ (String.Pos.Raw.isValid_eq_true_iff.1 valid) (Nat.le_refl _)
      rw [Nat.le_antisymm h.fits hle]
    · rename_i invalid
      have hne : k ≠ room + 1 := by
        rintro rfl
        exact invalid (String.Pos.Raw.isValid_eq_true_iff.2 h.boundary)
      have hfits := h.fits
      exact ih ⟨h.boundary, by omega, fun j hj hj' => h.last j hj (Nat.le_succ_of_le hj')⟩

theorem prefix_encode_fitting (room : Nat) (cs : List Char) :
    encode (fitting room cs) <+: encode cs := by
  obtain ⟨rest, hrest⟩ := fitting_prefix room cs
  exact ⟨encode rest, by rw [← encode_append, hrest]⟩

theorem cut?_eq (s : String) (room : Nat) :
    cut? s room = some (encode (fitting room s.toList)).length := by
  rw [cut?]
  split
  · rename_i fits
    rw [fitting_eq_self (by rwa [length_encode_toList]), length_encode_toList]
  · exact (cutAt_fitting s room).stepBack?

/-- What the bytes begin with, up to the first fault: no longer stretch of them is a text. -/
structure Spells (bytes : List UInt8) (s : String) : Prop where
  within : s.utf8ByteSize ≤ bytes.length
  start : s.toByteArray = (bytes.take s.utf8ByteSize).toByteArray
  longest : ∀ k ≤ bytes.length, (bytes.take k).toByteArray.IsValidUTF8 → k ≤ s.utf8ByteSize

theorem spells_decode (bytes : List UInt8) : Spells bytes (.ofList (decode bytes)) := by
  have hlead := encode_decode_prefix bytes
  refine ⟨?_, ?_, fun k hk hvalid => ?_⟩
  · rw [← length_encode]
    exact hlead.length_le
  · rw [← length_encode, ← List.prefix_iff_eq_take.1 hlead, toByteArray_encode]
  · have hwhole : encode (decode (bytes.take k)) = bytes.take k := isWhole_iff.2 hvalid
    have hk' : (encode (decode (bytes.take k))).length = k := by
      rw [hwhole, List.length_take, Nat.min_eq_left hk]
    obtain ⟨rest, hrest⟩ := prefix_decode (hwhole ▸ List.take_prefix k bytes)
    rw [← length_encode, ← hrest, encode_append, List.length_append, hk']
    exact Nat.le_add_right _ _

theorem Spells.validUpTo_eq (h : Spells bytes s) : validUpTo bytes = s.utf8ByteSize := by
  have hvalid : (bytes.take s.utf8ByteSize).toByteArray.IsValidUTF8 := h.start ▸ s.isValidUTF8
  refine Nat.le_antisymm ?_ (Nat.le_findGreatest h.within hvalid)
  exact h.longest _ (Nat.findGreatest_le _)
    (Nat.findGreatest_spec (P := fun k => (bytes.take k).toByteArray.IsValidUTF8) h.within hvalid)

end Text

namespace BoundedText

variable {cap : Nat}

def remaining? (t : BoundedText cap) : Option Nat := difference? cap t.len

def bytes? (t : BoundedText cap) : Option (List UInt8) := stretch? t.cells.toList 0 t.len

def text? (t : BoundedText cap) : Option String := do
  let bytes ← t.bytes?
  match String.fromUTF8? bytes.toByteArray with
  | some s => return s
  | none =>
    let valid ← stretch? bytes 0 (Text.validUpTo bytes)
    return (String.fromUTF8? valid.toByteArray).getD ""

def append? (t : BoundedText cap) (s : String) : Option (BoundedText cap × Nat) := do
  let room ← t.remaining?
  let count ← Text.cut? s room
  let stop ← sum? t.len count
  let added ← stretch? (Text.encode s.toList) 0 count
  let cells ← copyOver? t.cells t.len stop added
  return (⟨.ofNat stop, cells⟩, count)

/-- The character is written into four bytes of its own first. -/
def push? (t : BoundedText cap) (c : Char) : Option (BoundedText cap × Bool) := do
  let buffer ← copyOver? (Vector.replicate 4 0) 0 c.utf8Size (String.utf8EncodeChar c)
  let encoded ← stretch? buffer.toList 0 c.utf8Size
  let (t, added) ← t.append? c.toString
  return (t, added == encoded.length)

def edit? (t : BoundedText cap) : Edit → Option (BoundedText cap)
  | .make s | .set s => (empty.append? s).map (·.1)
  | .append s => (t.append? s).map (·.1)
  | .push c => (t.push? c).map (·.1)
  | .clear => some empty
  | .write pieces => pieces.foldlM (fun t piece => (t.append? piece).map (·.1)) t

/-- No check fails on the way, and the steps come to what the operations say. -/
structure Guarded (t : BoundedText cap) : Prop where
  remaining : t.remaining? = some t.remaining
  bytes : t.bytes? = some t.bytes
  text : t.text? = some t.text
  append : ∀ s, t.append? s = some (t.append s)
  push : ∀ c, t.push? c = some (t.push c)
  edit : ∀ e, t.edit? e = some (t.edit e)

theorem remaining?_eq (t : BoundedText cap) : t.remaining? = some t.remaining := if_pos t.len_le

theorem bytes?_eq (t : BoundedText cap) : t.bytes? = some t.bytes :=
  stretch?_zero (by rw [Vector.length_toList]; exact t.len_le)

theorem spells_text (t : BoundedText cap) : Text.Spells t.bytes t.text :=
  Text.spells_decode t.bytes

theorem text?_eq (t : BoundedText cap) : t.text? = some t.text := by
  have hspells := t.spells_text
  have hread : String.fromUTF8? t.text.toByteArray = some t.text := dif_pos t.text.isValidUTF8
  rw [text?, bytes?_eq]
  simp only [Option.bind_eq_bind, Option.bind_some, pure]
  by_cases hvalid : t.bytes.toByteArray.IsValidUTF8
  · rw [← toByteArray_text (Text.isWhole_iff.2 hvalid), hread]
  · have hnone : String.fromUTF8? t.bytes.toByteArray = none := dif_neg hvalid
    rw [hnone, hspells.validUpTo_eq]
    simp only [stretch?_zero hspells.within, Option.bind_some, ← hspells.start, hread,
      Option.getD_some]

theorem append?_eq (hcap : cap < UInt64.size) (t : BoundedText cap) (s : String) :
    t.append? s = some (t.append s) := by
  have hlen := t.len_le
  have hcount : (Text.encode (Text.fitting t.remaining s.toList)).length ≤ cap - t.len :=
    t.append_count_le s
  have hadded := Text.prefix_encode_fitting t.remaining s.toList
  rw [append?, remaining?_eq]
  simp only [Option.bind_eq_bind, Option.bind_some, Text.cut?_eq, stretch?_zero hadded.length_le,
    ← List.prefix_iff_eq_take.1 hadded]
  rw [sum?, if_pos (by omega), Option.bind_some, copyOver?, if_pos (by omega)]
  rfl

theorem push?_eq (hcap : cap < UInt64.size) (t : BoundedText cap) (c : Char) :
    t.push? c = some (t.push c) := by
  have hsize : c.utf8Size ≤ 4 := c.utf8Size_le_four
  rw [push?, copyOver?, if_pos ⟨Nat.zero_le _, hsize, String.length_utf8EncodeChar c⟩,
    append?_eq hcap]
  simp only [Option.bind_eq_bind, Option.bind_some]
  rw [stretch?_zero (by rwa [Vector.length_toList])]
  simp only [Option.bind_some, List.length_take, Vector.length_toList, Nat.min_eq_left hsize]
  rfl

theorem appendEach?_eq (hcap : cap < UInt64.size) (t : BoundedText cap) (pieces : List String) :
    pieces.foldlM (fun t piece => (t.append? piece).map (·.1)) t = some (t.appendEach pieces) := by
  induction pieces generalizing t with
  | nil => rfl
  | cons piece pieces ih =>
    rw [List.foldlM_cons, append?_eq hcap]
    exact ih (t.append piece).1

theorem guarded (hcap : cap < UInt64.size) (t : BoundedText cap) : t.Guarded := by
  refine ⟨t.remaining?_eq, t.bytes?_eq, t.text?_eq, t.append?_eq hcap, t.push?_eq hcap, fun e => ?_⟩
  cases e with
  | make s | set s => rw [edit?, append?_eq hcap]; rfl
  | append s => rw [edit?, append?_eq hcap]; rfl
  | push c => rw [edit?, push?_eq hcap]; rfl
  | clear => rfl
  | write pieces => exact appendEach?_eq hcap t pieces

theorem text_append_of_valid (hcap : cap < UInt64.size) {t : BoundedText cap}
    (h : t.bytes.toByteArray.IsValidUTF8) (s : String) : (t.append s).1.text.toByteArray =
      t.text.toByteArray ++ s.toByteArray.extract 0 (t.append s).2 := by
  have hvalid : (t.append s).1.bytes.toByteArray.IsValidUTF8 := by
    rw [bytes_append hcap, List.toByteArray_append]
    exact h.append (String.ofList _).isValidUTF8
  rw [toByteArray_text (Text.isWhole_iff.2 hvalid), toByteArray_text (Text.isWhole_iff.2 h)]
  exact (appended hcap t s).bytes

theorem text_append_of_broken (hcap : cap < UInt64.size) {t : BoundedText cap}
    (h : ¬ t.bytes.toByteArray.IsValidUTF8) (s : String) : (t.append s).1.text = t.text := by
  unfold text chars
  rw [bytes_append hcap, Text.decode_append_of_not_isWhole (mt Text.isWhole_iff.1 h)]

/-- Whatever word and bytes are found, no operation leaves the block, and none fails. The length is
clamped to the block, the text is what the bytes spell up to the first fault, and an append keeps
all bytes that count and puts behind them what there is room for. It shows behind a text. Behind
broken bytes it never does, so that a character that was cut off is not completed by it. -/
theorem guarded_found (hcap : cap < UInt64.size) (t : BoundedText cap) :
    t.Guarded ∧
    (t.len = min t.word.toNat cap ∧ t.bytes = t.cells.toList.take t.len) ∧
    Text.Spells t.bytes t.text ∧
    ∀ s, t.Appended s (t.append s).1 (t.append s).2 ∧
      (t.bytes.toByteArray.IsValidUTF8 → (t.append s).1.text.toByteArray =
        t.text.toByteArray ++ s.toByteArray.extract 0 (t.append s).2) ∧
      (¬ t.bytes.toByteArray.IsValidUTF8 → (t.append s).1.text = t.text) :=
  ⟨guarded hcap t, ⟨rfl, rfl⟩, t.spells_text, fun s => ⟨appended hcap t s,
    fun h => text_append_of_valid hcap h s, fun h => text_append_of_broken hcap h s⟩⟩

/-- An `a`, and two of the three bytes of a sign. -/
def cutOff : BoundedText 6 := .ofMemory 3 [0x61, 0xE2, 0x82]

/-- The first character that is added ends in the byte that the sign lacks. -/
theorem guarded_found_cutOff : 6 < UInt64.size ∧ ¬ cutOff.bytes.toByteArray.IsValidUTF8 ∧
    (cutOff.append "¬b").1.bytes = [0x61, 0xE2, 0x82, 0xC2, 0xAC, 0x62] ∧
    (cutOff.append "¬b").1.text = "a" := by
  have hbroken : ¬ cutOff.bytes.toByteArray.IsValidUTF8 := by decide +kernel
  have htext : cutOff.text = "a" := by decide +kernel
  refine ⟨by decide, hbroken, by decide +kernel, ?_⟩
  exact (((guarded_found (by decide) cutOff).2.2.2 "¬b").2.2 hbroken).trans htext

end BoundedText

end Cadence
