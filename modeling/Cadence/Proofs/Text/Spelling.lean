import Cadence.Proofs.Text.Cutting

/-!
What bytes of unknown origin spell. Reading takes whole characters until a byte starts none, and so
gives the longest text that the bytes begin with. A character that was cut off stays cut off
whatever text is put behind it: no text begins with a byte from inside a character.
-/

namespace Cadence.Text

variable {bytes : List UInt8} {c : Char} {cs : List Char}

theorem firstChar?_eq_some : firstChar? bytes = some c ↔ String.utf8EncodeChar c <+: bytes := by
  constructor
  · intro h
    obtain ⟨rest, hrest⟩ := ByteArray.exists_of_utf8DecodeChar?_eq_some h
    have hlist := congrArg (·.data.toList) hrest
    simp only [ByteArray.data_append, Array.toList_append, List.toList_data_toByteArray] at hlist
    exact ⟨_, by rw [← List.append_assoc, ← hlist, List.take_append_drop]⟩
  · rintro ⟨rest, rfl⟩
    exact firstChar?_encodeChar c rest

theorem decode_of_firstChar?_eq_none (h : firstChar? bytes = none) : decode bytes = [] := by
  cases bytes with
  | nil => rw [decode]
  | cons b bs => rw [decode, h]

theorem encode_decode_prefix (bytes : List UInt8) : encode (decode bytes) <+: bytes := by
  fun_induction decode bytes with
  | case1 => exact List.nil_prefix
  | case2 b bs _ => exact List.nil_prefix
  | case3 b bs c hfirst ih =>
    obtain ⟨rest, hrest⟩ := firstChar?_eq_some.1 hfirst
    rw [← hrest, ← String.length_utf8EncodeChar, List.drop_left] at ih
    rw [encode_cons, ← hrest, ← String.length_utf8EncodeChar, List.drop_left]
    exact (List.prefix_append_right_inj _).2 ih

theorem prefix_decode (h : encode cs <+: bytes) : cs <+: decode bytes := by
  obtain ⟨rest, rfl⟩ := h
  rw [decode_encode_append]
  exact List.prefix_append _ _

theorem isWhole_iff : IsWhole bytes ↔ bytes.toByteArray.IsValidUTF8 := by
  constructor
  · intro h
    rw [← h]
    exact (String.ofList (decode bytes)).isValidUTF8
  · rintro ⟨cs, hcs⟩
    obtain rfl : bytes = encode cs := List.toByteArray_inj.1 hcs
    rw [IsWhole, decode_encode]

theorem isUTF8FirstByte_of_encode {b : UInt8} {bs : List UInt8} (h : encode cs = b :: bs) :
    b.IsUTF8FirstByte := by
  cases cs with
  | nil => cases h
  | cons d ds =>
    have hpos : 0 < (String.utf8EncodeChar d).length := by
      rw [String.length_utf8EncodeChar]
      exact d.utf8Size_pos
    have hb : (encode (d :: ds))[0]? = some b := by
      rw [h]
      rfl
    rw [encode_cons, List.getElem?_append_left hpos, List.getElem?_eq_getElem hpos] at hb
    rw [← Option.some.inj hb]
    exact UInt8.isUTF8FirstByte_getElem_utf8EncodeChar.2 rfl

/-- Inside a character no byte is one that a character begins with. -/
theorem eq_nil_of_isUTF8FirstByte {before after : List UInt8} {b : UInt8}
    (h : before ++ b :: after = String.utf8EncodeChar c) (hb : b.IsUTF8FirstByte) :
    before = [] := by
  have hget : (String.utf8EncodeChar c)[before.length]? = some b := by
    rw [← h, List.getElem?_append_right (Nat.le_refl _), Nat.sub_self]
    rfl
  obtain ⟨_, hget⟩ := List.getElem?_eq_some_iff.1 hget
  exact List.length_eq_zero_iff.1 (UInt8.isUTF8FirstByte_getElem_utf8EncodeChar.1 (hget ▸ hb))

/-- What begins with no whole character begins with none when a text is put behind it. -/
theorem firstChar?_append_eq_none (hne : bytes ≠ []) (h : firstChar? bytes = none)
    (cs : List Char) : firstChar? (bytes ++ encode cs) = none := by
  rw [Option.eq_none_iff_forall_ne_some]
  intro c hc
  have hlead := firstChar?_eq_some.1 hc
  have hnone : ¬ String.utf8EncodeChar c <+: bytes := by
    rw [← firstChar?_eq_some, h]
    exact (Option.some_ne_none c).symm
  rcases Nat.le_total (String.utf8EncodeChar c).length bytes.length with hle | hle
  · exact hnone (List.prefix_of_prefix_length_le hlead (List.prefix_append _ _) hle)
  · -- the character would reach into the text, whose first byte is not one from inside
    obtain ⟨inside, hinside⟩ := List.prefix_of_prefix_length_le (List.prefix_append _ _) hlead hle
    rw [← hinside, List.prefix_append_right_inj] at hlead
    cases inside with
    | nil =>
      rw [List.append_nil] at hinside
      exact hnone (hinside ▸ List.prefix_refl _)
    | cons b inside =>
      obtain ⟨rest, hrest⟩ := hlead
      exact hne (eq_nil_of_isUTF8FirstByte hinside (isUTF8FirstByte_of_encode hrest.symm))

theorem decode_append_of_not_isWhole (h : ¬ IsWhole bytes) (cs : List Char) :
    decode (bytes ++ encode cs) = decode bytes := by
  fun_induction decode bytes with
  | case1 =>
    refine absurd ?_ h
    unfold IsWhole
    rw [decode, encode_nil]
  | case2 b bs hfirst =>
    exact decode_of_firstChar?_eq_none
      (firstChar?_append_eq_none (List.cons_ne_nil b bs) hfirst cs)
  | case3 b bs c hfirst ih =>
    obtain ⟨rest, hrest⟩ := firstChar?_eq_some.1 hfirst
    rw [← hrest] at h ih ⊢
    rw [← String.length_utf8EncodeChar, List.drop_left] at ih ⊢
    rw [List.append_assoc, decode_of_firstChar? (firstChar?_encodeChar c _),
      ← String.length_utf8EncodeChar, List.drop_left, ih]
    -- the character in front is whole, so the fault is behind it
    intro hrest
    refine h ?_
    rw [IsWhole, decode_of_firstChar? (firstChar?_encodeChar c rest),
      ← String.length_utf8EncodeChar, List.drop_left, encode_cons, hrest]

end Cadence.Text
