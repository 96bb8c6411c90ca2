import Cadence.Text.Bounded

/-!
Where a text is cut. Cutting goes character by character, but it is bytes that have to fit: what is
kept ends at a boundary between characters, and no boundary further on would have been in time.
-/

namespace Cadence.Text

theorem toByteArray_encode (cs : List Char) :
    (encode cs).toByteArray = (String.ofList cs).toByteArray := rfl

theorem length_encode (cs : List Char) : (encode cs).length = (String.ofList cs).utf8ByteSize := by
  unfold String.utf8ByteSize
  rw [← toByteArray_encode, List.size_toByteArray]

theorem length_encode_toList (s : String) : (encode s.toList).length = s.utf8ByteSize := by
  rw [length_encode, String.ofList_toList]

theorem fitting_prefix (room : Nat) (cs : List Char) : fitting room cs <+: cs := by
  induction cs generalizing room with
  | nil => exact List.prefix_refl _
  | cons c cs ih =>
    unfold fitting
    split
    · exact List.prefix_cons_inj c |>.2 (ih _)
    · exact List.nil_prefix

/-- Whatever leading characters fit are among those that are kept. -/
theorem prefix_fitting {room : Nat} {cs p : List Char} (h : p <+: cs)
    (hroom : (encode p).length ≤ room) : p <+: fitting room cs := by
  induction p generalizing room cs with
  | nil => exact List.nil_prefix
  | cons c p ih =>
    obtain ⟨rest, rfl⟩ := h
    simp only [encode_cons, List.length_append, String.length_utf8EncodeChar] at hroom
    simp only [List.cons_append, fitting]
    rw [if_pos (by omega)]
    apply (List.prefix_cons_inj c).2
    apply ih (List.prefix_append p rest)
    omega

/-- The last boundary of `s` that is at most `room` bytes in. -/
structure CutAt (s : String) (room cut : Nat) : Prop where
  boundary : (⟨cut⟩ : String.Pos.Raw).IsValid s
  fits : cut ≤ room
  last : ∀ other, (⟨other⟩ : String.Pos.Raw).IsValid s → other ≤ room → other ≤ cut

theorem isValid_iff_encode {s : String} {k : Nat} :
    (⟨k⟩ : String.Pos.Raw).IsValid s ↔ ∃ p, p <+: s.toList ∧ (encode p).length = k := by
  rw [String.Pos.Raw.isValid_iff_exists_append]
  constructor
  · rintro ⟨s₁, s₂, rfl, hk⟩
    refine ⟨s₁.toList, ?_, ?_⟩
    · rw [String.toList_append]
      exact List.prefix_append _ _
    · rw [length_encode, String.ofList_toList]
      exact congrArg String.Pos.Raw.byteIdx hk.symm
  · rintro ⟨p, ⟨rest, hrest⟩, rfl⟩
    refine ⟨.ofList p, .ofList rest, ?_, ?_⟩
    · rw [← String.ofList_append, hrest, String.ofList_toList]
    · rw [length_encode]
      rfl

theorem cutAt_fitting (s : String) (room : Nat) :
    CutAt s room (encode (fitting room s.toList)).length := by
  refine ⟨isValid_iff_encode.2 ⟨_, fitting_prefix room s.toList, rfl⟩,
    length_encode_fitting_le room s.toList, fun other hother hroom => ?_⟩
  obtain ⟨p, hp, rfl⟩ := isValid_iff_encode.1 hother
  obtain ⟨rest, hrest⟩ := prefix_fitting hp hroom
  rw [← hrest, encode_append, List.length_append]
  exact Nat.le_add_right _ _

/-- What is kept, taken as bytes. -/
theorem encode_fitting (s : String) (room : Nat) :
    (encode (fitting room s.toList)).toByteArray =
      s.toByteArray.extract 0 (encode (fitting room s.toList)).length := by
  obtain ⟨rest, hrest⟩ := fitting_prefix room s.toList
  have hs : s.toByteArray =
      (encode (fitting room s.toList)).toByteArray ++ (encode rest).toByteArray := by
    rw [← List.toByteArray_append, ← encode_append, hrest, toByteArray_encode,
      String.ofList_toList]
  rw [hs, ← List.size_toByteArray]
  exact (ByteArray.extract_append_eq_left rfl).symm

end Cadence.Text
