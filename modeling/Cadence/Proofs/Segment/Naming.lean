import Cadence.Proofs.Text.Cutting
import Cadence.Segment.Name

/-!
Which names are accepted, and that no two of them fall together. A name is told by what is left of it
without its leading slash; the accepted form is that with one slash in front, and since all of it fits,
nothing is cut off.
-/

namespace Cadence.SegmentName

variable {given other rest : String} {name : SegmentName}

/-- What is left of a name without its leading slash, if it has one. -/
inductive Strips : String → String → Prop
  | slashed (rest : String) : Strips ("/" ++ rest) rest
  | plain (rest : String) (bare : ∀ tail, rest ≠ "/" ++ tail) : Strips rest rest

structure Fits (rest : String) : Prop where
  pos : 1 ≤ rest.utf8ByteSize
  short : rest.utf8ByteSize ≤ 254
  slashless : '/' ∉ rest.toList
  nulless : '\x00' ∉ rest.toList

def Accepts (given : String) : Prop := ∃ name, normalize given = .ok name

theorem toList_slash (rest : String) : ("/" ++ rest).toList = '/' :: rest.toList :=
  String.toList_append ..

theorem bare_slash (rest : String) : bare ("/" ++ rest) = rest.toList := by
  rw [bare, toList_slash]
  rfl

theorem bare_of_plain (h : ∀ tail, given ≠ "/" ++ tail) : bare given = given.toList := by
  rw [bare]
  split
  · rename_i cs hcs
    refine absurd ?_ (h (.ofList cs))
    rw [← String.toList_inj, toList_slash, String.toList_ofList, hcs]
  · rfl

theorem strips_iff : Strips given rest ↔ bare given = rest.toList := by
  refine ⟨fun h => ?_, fun h => ?_⟩
  · cases h with
    | slashed => exact bare_slash rest
    | plain _ hplain => exact bare_of_plain hplain
  · by_cases hslash : ∃ tail, given = "/" ++ tail
    · obtain ⟨tail, rfl⟩ := hslash
      rw [bare_slash, String.toList_inj] at h
      exact h ▸ .slashed tail
    · have hplain : ∀ tail, given ≠ "/" ++ tail := fun tail htail => hslash ⟨tail, htail⟩
      rw [bare_of_plain hplain, String.toList_inj] at h
      exact h ▸ .plain given hplain

theorem strips_bare (given : String) : Strips given (.ofList (bare given)) := by
  rw [strips_iff, String.toList_ofList]

theorem normalize_congr (h : bare given = bare other) : normalize given = normalize other := by
  rw [normalize, normalize, h]

theorem accepts_iff (h : Strips given rest) : Accepts given ↔ Fits rest := by
  have hlen := Text.length_encode_toList rest
  unfold Accepts normalize
  rw [strips_iff.1 h]
  dsimp only
  split
  · rename_i hempty
    refine iff_of_false nofun fun hfits => ?_
    have hpos := hfits.pos
    rw [← hlen, List.isEmpty_iff.1 hempty] at hpos
    exact absurd hpos (by decide)
  rename_i hsome
  split
  · rename_i hlong
    refine iff_of_false nofun fun hfits => ?_
    have hshort := hfits.short
    unfold Limits.nameBytes at hlong
    omega
  rename_i hshort
  unfold Limits.nameBytes at hshort
  split
  · rename_i hany
    refine iff_of_false nofun fun hfits => ?_
    obtain ⟨c, hc, hbad⟩ := List.any_eq_true.1 hany
    rcases of_decide_eq_true hbad with rfl | rfl
    · exact hfits.slashless hc
    · exact hfits.nulless hc
  · rename_i hnone
    refine iff_of_true ⟨_, rfl⟩ ⟨?_, by omega, fun hc => hnone ?_, fun hc => hnone ?_⟩
    · refine Nat.pos_of_ne_zero fun hzero => hsome ?_
      rw [String.utf8ByteSize_eq_zero_iff] at hzero
      rw [hzero]
      rfl
    · exact List.any_eq_true.2 ⟨_, hc, by decide⟩
    · exact List.any_eq_true.2 ⟨_, hc, by decide⟩

/-- A remainder that is acceptable has no slash to take away. -/
theorem Fits.plain (h : Fits rest) : ∀ tail, rest ≠ "/" ++ tail := by
  rintro tail rfl
  refine h.slashless ?_
  rw [toList_slash]
  exact .head _

theorem text_eq (h : Strips given rest) (known : normalize given = .ok name) :
    name.text = "/" ++ rest := by
  rw [text_of_normalize known, strips_iff.1 h, ← String.toList_inj, String.toList_ofList,
    toList_slash]

/-- Accepted names are told apart by what stands behind the slash. -/
theorem bare_eq_of_text_eq {name' : SegmentName} (known : normalize given = .ok name)
    (known' : normalize other = .ok name') (h : name.text = name'.text) :
    bare given = bare other := by
  rw [text_of_normalize known, text_of_normalize known', ← String.toList_inj,
    String.toList_ofList, String.toList_ofList] at h
  exact (List.cons.inj h).2

theorem bare_eq_of_normalize_eq (hg : Accepts given) (hsame : normalize given = normalize other) :
    bare given = bare other := by
  obtain ⟨name, hname⟩ := hg
  exact bare_eq_of_text_eq hname (hsame ▸ hname) rfl

theorem text_inj {name' : SegmentName} (known : normalize given = .ok name)
    (known' : normalize other = .ok name') : name.text = name'.text ↔ name = name' := by
  refine ⟨fun h => ?_, congrArg _⟩
  rw [normalize_congr (bare_eq_of_text_eq known known' h)] at known
  exact Except.ok.inj (known.symm.trans known')

/-- With an accepted name, it does not matter whether the slash is given. -/
theorem normalize_slash (h : Accepts ("/" ++ given)) : normalize ("/" ++ given) = normalize given := by
  have hplain := ((accepts_iff (.slashed given)).1 h).plain
  exact normalize_congr ((bare_slash given).trans (bare_of_plain hplain).symm)

theorem normalize_eq_iff (hg : Accepts given) (ho : Accepts other) :
    normalize given = normalize other ↔
      given = other ∨ given = "/" ++ other ∨ other = "/" ++ given := by
  refine ⟨fun hsame => ?_, ?_⟩
  · have hgiven := strips_bare given
    have hother := strips_bare other
    rw [← bare_eq_of_normalize_eq hg hsame] at hother
    generalize String.ofList (bare given) = rest at hgiven hother
    cases hgiven with
    | slashed =>
      cases hother with
      | slashed => exact .inl rfl
      | plain => exact .inr (.inl rfl)
    | plain =>
      cases hother with
      | slashed => exact .inr (.inr rfl)
      | plain => exact .inl rfl
  · rintro (rfl | rfl | rfl)
    · rfl
    · exact normalize_slash hg
    · exact (normalize_slash ho).symm

structure Normalizes (given : String) : Prop where
  stripped : ∃ rest, Strips given rest ∧ ∀ other, Strips given other → other = rest
  accepted : ∀ rest, Strips given rest → (Accepts given ↔ Fits rest)
  whole : ∀ rest name, Strips given rest → normalize given = .ok name →
    name.text = "/" ++ rest ∧ name.bytes.toByteArray = ("/" ++ rest).toByteArray
  settled : ∀ name, normalize given = .ok name → normalize name.text = .ok name
  alike : ∀ other, Accepts given → Accepts other →
    (normalize given = normalize other ↔ given = other ∨ given = "/" ++ other ∨ other = "/" ++ given)
  slashed : (∀ tail, given ≠ "/" ++ tail) → (Accepts ("/" ++ given) ↔ Accepts given)
  doubled : ∀ tail, given = "/" ++ tail → ¬Accepts ("/" ++ given)

theorem normalizes (given : String) : Normalizes given where
  stripped := by
    refine ⟨_, strips_bare given, fun other h => ?_⟩
    rw [strips_iff.1 h, String.ofList_toList]
  accepted rest h := accepts_iff h
  whole rest name h known := by
    refine ⟨text_eq h known, ?_⟩
    rw [bytes_of_normalize known, Text.toByteArray_encode, strips_iff.1 h, ← toList_slash,
      String.ofList_toList]
  settled name known := by
    refine (normalize_congr ?_).trans known
    rw [text_eq (strips_bare given) known, bare_slash, String.toList_ofList]
  alike other hg ho := normalize_eq_iff hg ho
  slashed hplain := by
    rw [accepts_iff (.slashed given), accepts_iff (.plain given hplain)]
  doubled tail hgiven haccepts := ((accepts_iff (.slashed given)).1 haccepts).plain tail hgiven

end Cadence.SegmentName
