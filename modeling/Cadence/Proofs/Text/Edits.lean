import Cadence.Proofs.Text.Cutting

/-!
Bounded texts over their whole life. However a text has come about, its block holds the bytes of the
text, then zeros, and its word counts the bytes; so two texts that read the same are the same block.
What an edit keeps of its source is cut at the last boundary that there is room for.
-/

namespace Cadence.BoundedText

variable {cap : Nat} {t u : BoundedText cap}

inductive Edit where
  | make (s : String)
  | append (s : String)
  | push (c : Char)
  | set (s : String)
  | clear
  | write (pieces : List String)

def edit (t : BoundedText cap) : Edit → BoundedText cap
  | .make s => ofString s
  | .append s => (t.append s).1
  | .push c => (t.push c).1
  | .set s => (t.set s).1
  | .clear => empty
  | .write pieces => t.appendEach pieces

def edited (edits : List Edit) : BoundedText cap := edits.foldl edit empty

structure Canonical (t : BoundedText cap) : Prop where
  word : t.word.toNat = t.len
  whole : Text.IsWhole t.bytes
  blank : t.cells.toList.drop t.len = List.replicate (cap - t.len) 0

theorem canonical_empty : (empty : BoundedText cap).Canonical := by
  refine ⟨?_, ?_, ?_⟩
  · rw [len_empty]
    rfl
  · rw [bytes_empty]
    unfold Text.IsWhole
    simp [Text.decode]
  · rw [len_empty]
    simp [empty]

theorem len_append (hcap : cap < UInt64.size) (t : BoundedText cap) (s : String) :
    (t.append s).1.len = t.len + (t.append s).2 := by
  rw [← length_bytes, bytes_append hcap, List.length_append, length_bytes]
  rfl

theorem Canonical.append (h : t.Canonical) (hcap : cap < UInt64.size) (s : String) :
    (t.append s).1.Canonical := by
  have hlen := len_append hcap t s
  have hle := (t.append s).1.len_le
  have hword : (t.append s).1.word = .ofNat (t.len + (t.append s).2) := rfl
  refine ⟨?_, ?_, ?_⟩
  · rw [hword, ← hlen]
    exact UInt64.toNat_ofNat_of_lt' (Nat.lt_of_le_of_lt hle hcap)
  · -- the bytes that were there and the ones that are added are whole characters on their own
    unfold Text.IsWhole
    rw [bytes_append hcap, ← h.whole, ← Text.encode_append, Text.decode_encode]
  · have hblank := congrArg (List.drop (t.append s).2) h.blank
    rw [List.drop_drop, List.drop_replicate] at hblank
    rw [hlen]
    unfold BoundedText.append at hblank ⊢
    rw [drop_overwrite, hblank]
    congr 1
    omega

theorem Canonical.appendEach (h : t.Canonical) (hcap : cap < UInt64.size) (pieces : List String) :
    (t.appendEach pieces).Canonical := by
  induction pieces generalizing t with
  | nil => exact h
  | cons piece pieces ih => exact ih (h.append hcap piece)

theorem Canonical.edit (h : t.Canonical) (hcap : cap < UInt64.size) (e : Edit) :
    (t.edit e).Canonical := by
  cases e with
  | make s | set s => exact canonical_empty.append hcap s
  | append s => exact h.append hcap s
  | push c => exact h.append hcap c.toString
  | clear => exact canonical_empty
  | write pieces => exact h.appendEach hcap pieces

theorem canonical_edited (hcap : cap < UInt64.size) (edits : List Edit) :
    (edited edits : BoundedText cap).Canonical := by
  have hfold : ∀ t : BoundedText cap, t.Canonical → (edits.foldl BoundedText.edit t).Canonical := by
    induction edits with
    | nil => exact fun t h => h
    | cons e edits ih => exact fun t h => ih _ (h.edit hcap e)
  exact hfold empty canonical_empty

theorem toByteArray_text (h : Text.IsWhole t.bytes) :
    t.text.toByteArray = t.bytes.toByteArray := by
  unfold text chars
  rw [← Text.toByteArray_encode, h]

theorem Canonical.toByteArray_text (h : t.Canonical) :
    t.text.toByteArray = t.bytes.toByteArray := BoundedText.toByteArray_text h.whole

theorem Canonical.cells_eq (h : t.Canonical) :
    t.cells.toList = t.bytes ++ List.replicate (cap - t.len) 0 := by
  rw [← h.blank]
  exact (List.take_append_drop _ _).symm

/-- Texts that read the same are the same block. -/
theorem Canonical.eq_of_text (ht : t.Canonical) (hu : u.Canonical) (h : t.text = u.text) :
    t = u := by
  have hbytes : t.bytes = u.bytes := by
    rw [← ht.whole, ← hu.whole]
    exact congrArg Text.encode (String.ofList_injective h)
  have hlen : t.len = u.len := by rw [← length_bytes, hbytes, length_bytes]
  have hword : t.word = u.word := UInt64.toNat_inj.1 (by rw [ht.word, hu.word, hlen])
  have hcells : t.cells = u.cells := by
    apply Vector.toList_inj.1
    rw [ht.cells_eq, hu.cells_eq, hbytes, hlen]
  cases t
  cases u
  simp_all

/-- `t'` is `t` with `count` bytes of `s` behind its own, as many as there is room for. -/
structure Appended (t : BoundedText cap) (s : String) (t' : BoundedText cap) (count : Nat) :
    Prop where
  cut : Text.CutAt s (cap - t.len) count
  bytes : t'.bytes.toByteArray = t.bytes.toByteArray ++ s.toByteArray.extract 0 count

theorem appended (hcap : cap < UInt64.size) (t : BoundedText cap) (s : String) :
    t.Appended s (t.append s).1 (t.append s).2 := by
  refine ⟨Text.cutAt_fitting s t.remaining, ?_⟩
  rw [bytes_append hcap, List.toByteArray_append, Text.encode_fitting]
  rfl

theorem push_snd (t : BoundedText cap) (c : Char) :
    (t.push c).2 = true ↔ c.utf8Size ≤ t.remaining := by
  have hpos := c.utf8Size_pos
  change ((t.append (String.singleton c)).2 == c.utf8Size) = true ↔ _
  unfold BoundedText.append
  rw [String.toList_singleton, Text.fitting]
  split <;> simp_all [Text.fitting]
  omega

theorem push_of_le (hcap : cap < UInt64.size) {c : Char} (h : c.utf8Size ≤ t.remaining) :
    (t.push c).1.bytes = t.bytes ++ String.utf8EncodeChar c := by
  change (t.append (String.singleton c)).1.bytes = _
  rw [bytes_append hcap, String.toList_singleton, Text.fitting, if_pos h, Text.fitting]
  simp

/-- A character that does not fit changes nothing. -/
theorem Canonical.push_of_lt (h : t.Canonical) {c : Char} (hc : t.remaining < c.utf8Size) :
    (t.push c).1 = t := by
  have hnone : Text.fitting t.remaining (String.singleton c).toList = [] := by
    rw [String.toList_singleton, Text.fitting, if_neg (Nat.not_le_of_lt hc)]
  change (t.append (String.singleton c)).1 = t
  simp only [BoundedText.append, hnone, Text.encode_nil, overwrite_nil, List.length_nil,
    Nat.add_zero, ← h.word, UInt64.ofNat_toNat]

theorem edited_concat (edits : List Edit) (e : Edit) :
    (edited (edits ++ [e]) : BoundedText cap) = (edited edits).edit e := by
  simp [edited]

/-- A formatted text is appended piece by piece. -/
theorem edit_write (edits : List Edit) (pieces : List String) :
    (edited (edits ++ pieces.map .append) : BoundedText cap) = (edited edits).edit (.write pieces) := by
  unfold edited
  rw [List.foldl_append]
  exact List.foldl_map

/-- Whatever edits a text has been through, its word counts at most the block, the bytes that it
counts are those of the text, and the others are zero, so that the text determines the block. And
whatever is done to it next keeps of the given text all that there is room for, up to a boundary. -/
theorem edited_run (hcap : cap < UInt64.size) (edits : List Edit) :
    let t : BoundedText cap := edited edits
    (t.word.toNat = t.len ∧ t.len ≤ cap) ∧
    (t.bytes.toByteArray.IsValidUTF8 ∧ t.text.toByteArray = t.bytes.toByteArray) ∧
    (∀ i, t.len ≤ i → ∀ h : i < cap, t.cells[i] = 0) ∧
    (∀ others, t = edited others ↔ t.text = (edited others : BoundedText cap).text) ∧
    (∀ e, edited (edits ++ [e]) = t.edit e) ∧
    (∀ s, t.edit (.append s) = (t.append s).1 ∧
      t.Appended s (t.edit (.append s)) (t.append s).2) ∧
    (∀ pieces, t.edit (.write pieces) = edited (edits ++ pieces.map .append)) ∧
    (∀ c, t.edit (.push c) = (t.push c).1 ∧
      (((t.push c).2 = true ∧ (t.edit (.push c)).bytes = t.bytes ++ String.utf8EncodeChar c) ∨
        ((t.push c).2 = false ∧ cap - t.len < c.utf8Size ∧ t.edit (.push c) = t))) ∧
    (∀ s, t.edit (.set s) = (t.set s).1 ∧
      (empty : BoundedText cap).Appended s (t.edit (.set s)) (t.set s).2) ∧
    (∀ s, t.edit (.make s) = ofString s ∧
      ∃ count, (empty : BoundedText cap).Appended s (t.edit (.make s)) count) ∧
    (t.edit .clear).bytes = [] := by
  intro t
  have ht : t.Canonical := canonical_edited hcap edits
  refine ⟨⟨ht.word, t.len_le⟩, ⟨?_, ht.toByteArray_text⟩, ?_, fun others => ⟨congrArg text, ?_⟩,
    edited_concat edits, fun s => ⟨rfl, appended hcap t s⟩,
    fun pieces => (edit_write edits pieces).symm, fun c => ⟨rfl, ?_⟩,
    fun s => ⟨rfl, appended hcap empty s⟩, fun s => ⟨rfl, _, appended hcap empty s⟩, bytes_empty⟩
  · rw [← ht.toByteArray_text]
    exact t.text.isValidUTF8
  · intro i hi h
    have hcell : t.cells.toList[i]? = some 0 := by
      rw [ht.cells_eq, List.getElem?_append_right (by rwa [length_bytes]), length_bytes,
        List.getElem?_replicate, if_pos (by omega)]
    rw [Vector.getElem?_toList, Vector.getElem?_eq_getElem h] at hcell
    exact Option.some.inj hcell
  · exact ht.eq_of_text (canonical_edited hcap others)
  · cases hpush : (t.push c).2 with
    | true => exact .inl ⟨rfl, push_of_le hcap ((push_snd t c).1 hpush)⟩
    | false =>
      have hlt : t.remaining < c.utf8Size := by
        rw [← Nat.not_le, ← push_snd, hpush]
        exact Bool.false_ne_true
      exact .inr ⟨rfl, hlt, ht.push_of_lt hlt⟩

/-- Two histories with one text: what was replaced or did not fit has left nothing behind. -/
theorem edited_run_cutInside : 4 < UInt64.size ∧
    (edited [.set "euro", .make "aé", .append "€", .push '😀'] : BoundedText 4) =
      edited [.append "aéé"] :=
  ⟨by decide, ((edited_run (by decide) _).2.2.2.1 _).2 (by decide +kernel)⟩

end Cadence.BoundedText
