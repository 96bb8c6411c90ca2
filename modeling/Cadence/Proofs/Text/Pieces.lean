import Cadence.Proofs.Text.Edits
import Mathlib.Data.List.Forall2

/-!
A text put together from pieces, against the same text added as a whole. Every piece is cut on its
own, so the two agree up to the piece that there is not room for. What comes behind it may still
fill the gap, which is narrower than the character that was dropped.
-/

namespace Cadence

namespace Text

variable {room : Nat} {as bs cs : List Char} {before after pieces : List String} {cut : String}

theorem fitting_append_of_le (h : (encode as).length ≤ room) (bs : List Char) :
    fitting room (as ++ bs) = as ++ fitting (room - (encode as).length) bs := by
  induction as generalizing room with
  | nil => rfl
  | cons c as ih =>
    rw [encode_cons, List.length_append, String.length_utf8EncodeChar] at h ⊢
    rw [List.cons_append, fitting, if_pos (by omega), ih (by omega), Nat.sub_sub, List.cons_append]

theorem fitting_append_of_lt (h : room < (encode as).length) (bs : List Char) :
    fitting room (as ++ bs) = fitting room as := by
  induction as generalizing room with
  | nil => exact absurd h (Nat.not_lt_zero _)
  | cons c as ih =>
    rw [encode_cons, List.length_append, String.length_utf8EncodeChar] at h
    rw [List.cons_append, fitting, fitting]
    split
    · rw [ih (by omega)]
    · rfl

/-- What does not fit as a whole is cut in front of a character that the gap is too narrow for. -/
theorem exists_dropped (h : room < (encode cs).length) : ∃ c rest,
    cs = fitting room cs ++ c :: rest ∧
      room - (encode (fitting room cs)).length < c.utf8Size := by
  induction cs generalizing room with
  | nil => exact absurd h (Nat.not_lt_zero _)
  | cons d cs ih =>
    rw [encode_cons, List.length_append, String.length_utf8EncodeChar] at h
    rw [fitting]
    split
    · have hless : room - d.utf8Size < (encode cs).length := by omega
      obtain ⟨c, rest, hcs, hgap⟩ := ih hless
      refine ⟨c, rest, congrArg (d :: ·) hcs, ?_⟩
      rw [encode_cons, List.length_append, String.length_utf8EncodeChar, ← Nat.sub_sub]
      exact hgap
    · rename_i narrow
      exact ⟨d, cs, rfl, Nat.lt_of_not_le narrow⟩

theorem fitting_eq_nil : fitting room cs = [] ↔ ∀ c ∈ cs.head?, room < c.utf8Size := by
  cases cs with
  | nil => simp [fitting]
  | cons c cs =>
    rw [fitting]
    split <;> simp_all

theorem utf8ByteSize_join_append (before after : List String) :
    (String.join (before ++ after)).utf8ByteSize =
      (String.join before).utf8ByteSize + (String.join after).utf8ByteSize := by
  simp only [← length_encode_toList, String.toList_join, List.flatMap_append, encode_append,
    List.length_append]

theorem utf8ByteSize_join_cons (piece : String) (pieces : List String) :
    (String.join (piece :: pieces)).utf8ByteSize =
      piece.utf8ByteSize + (String.join pieces).utf8ByteSize := by
  simp only [← length_encode_toList, String.toList_join, List.flatMap_cons, encode_append,
    List.length_append]

/-- What is kept of each piece when they are added in turn. -/
def keptOf (room : Nat) : List String → List (List Char)
  | [] => []
  | piece :: pieces =>
    let kept := fitting room piece.toList
    kept :: keptOf (room - (encode kept).length) pieces

theorem keptOf_prefixes (room : Nat) (pieces : List String) :
    List.Forall₂ (fun kept piece => kept <+: piece.toList) (keptOf room pieces) pieces := by
  induction pieces generalizing room with
  | nil => exact .nil
  | cons piece pieces ih =>
    refine .cons ?_ (ih _)
    exact fitting_prefix room piece.toList

theorem length_keptOf_le (room : Nat) (pieces : List String) :
    (encode (keptOf room pieces).flatten).length ≤ room := by
  induction pieces generalizing room with
  | nil => exact Nat.zero_le _
  | cons piece pieces ih =>
    have hkept := length_encode_fitting_le room piece.toList
    have hrest := ih (room - (encode (fitting room piece.toList)).length)
    rw [keptOf, List.flatten_cons, encode_append, List.length_append]
    omega

/-- As long as nothing is kept, the gap stays as it is. -/
theorem keptOf_eq_nil : (keptOf room pieces).flatten = [] ↔
    ∀ piece ∈ pieces, ∀ c ∈ piece.toList.head?, room < c.utf8Size := by
  induction pieces with
  | nil => simp [keptOf]
  | cons piece pieces ih =>
    rw [keptOf, List.flatten_cons, List.append_eq_nil_iff, List.forall_mem_cons, fitting_eq_nil]
    refine and_congr_right fun hnone => ?_
    rw [fitting_eq_nil.2 hnone]
    exact ih

/-- `cut` is the piece that the first dropped character is in: all before it is kept. -/
structure Overruns (room : Nat) (before : List String) (cut : String) : Prop where
  fits : (String.join before).utf8ByteSize ≤ room
  short : room < (String.join (before ++ [cut])).utf8ByteSize

theorem Overruns.lt_join (h : Overruns room before cut) (after : List String) :
    room < (String.join (before ++ cut :: after)).utf8ByteSize := by
  rw [List.append_cons, utf8ByteSize_join_append]
  exact Nat.lt_of_lt_of_le h.short (Nat.le_add_right _ _)

theorem exists_overruns (h : room < (String.join pieces).utf8ByteSize) :
    ∃ before cut after, pieces = before ++ cut :: after ∧ Overruns room before cut := by
  induction pieces generalizing room with
  | nil => exact absurd h (Nat.not_lt_zero _)
  | cons piece pieces ih =>
    rw [utf8ByteSize_join_cons] at h
    rcases Nat.lt_or_ge room piece.utf8ByteSize with hover | hfits
    · refine ⟨[], piece, pieces, rfl, Nat.zero_le _, ?_⟩
      rw [List.nil_append, utf8ByteSize_join_cons]
      omega
    · have hless : room - piece.utf8ByteSize < (String.join pieces).utf8ByteSize := by omega
      obtain ⟨before, cut, after, rfl, hfits', hover⟩ := ih hless
      refine ⟨piece :: before, cut, after, rfl, ?_, ?_⟩
      · rw [utf8ByteSize_join_cons]
        omega
      · rw [List.cons_append, utf8ByteSize_join_cons]
        omega

/-- The whole is cut where the piece is that overruns, and only what is behind that is late. -/
theorem flatten_keptOf (h : Overruns room before cut) (after : List String) :
    (keptOf room (before ++ cut :: after)).flatten =
      fitting room (String.join (before ++ cut :: after)).toList ++
        (keptOf (room - (encode (fitting room
          (String.join (before ++ cut :: after)).toList)).length) after).flatten := by
  induction before generalizing room with
  | nil =>
    have hcut : room < (encode cut.toList).length := by
      have hover := h.short
      rwa [List.nil_append, utf8ByteSize_join_cons, ← length_encode_toList] at hover
    rw [List.nil_append, String.toList_join, List.flatMap_cons, fitting_append_of_lt hcut, keptOf,
      List.flatten_cons]
  | cons piece before ih =>
    obtain ⟨hfits, hover⟩ := h
    rw [utf8ByteSize_join_cons, ← length_encode_toList] at hfits
    rw [List.cons_append, utf8ByteSize_join_cons, ← length_encode_toList] at hover
    have hpiece : (encode piece.toList).length ≤ room := by omega
    have hoverruns : Overruns (room - (encode piece.toList).length) before cut :=
      ⟨by omega, by omega⟩
    have hrest := ih hoverruns
    rw [String.toList_join] at hrest
    rw [List.cons_append, String.toList_join, List.flatMap_cons, fitting_append_of_le hpiece,
      keptOf, List.flatten_cons, fitting_eq_self hpiece, hrest, encode_append, List.length_append,
      ← Nat.sub_sub, List.append_assoc]

/-- Nothing is late when nothing overruns. -/
theorem flatten_keptOf_of_le (h : (String.join pieces).utf8ByteSize ≤ room) :
    (keptOf room pieces).flatten = (String.join pieces).toList := by
  induction pieces generalizing room with
  | nil => rfl
  | cons piece pieces ih =>
    rw [utf8ByteSize_join_cons, ← length_encode_toList] at h
    rw [keptOf, fitting_eq_self (by omega), List.flatten_cons, ih (by omega), String.toList_join,
      String.toList_join, List.flatMap_cons]

end Text

namespace BoundedText

variable {cap : Nat}

theorem bytes_appendEach (hcap : cap < UInt64.size) (t : BoundedText cap) (pieces : List String) :
    (t.appendEach pieces).bytes =
      t.bytes ++ Text.encode (Text.keptOf t.remaining pieces).flatten := by
  induction pieces generalizing t with
  | nil => exact (List.append_nil _).symm
  | cons piece pieces ih =>
    have hroom : (t.append piece).1.remaining =
        t.remaining - (Text.encode (Text.fitting t.remaining piece.toList)).length := by
      rw [remaining, len_append hcap, ← Nat.sub_sub]
      rfl
    rw [Text.keptOf, List.flatten_cons, Text.encode_append, ← List.append_assoc,
      ← bytes_append hcap, ← hroom]
    exact ih (t.append piece).1

theorem toList_text_appendEach (hcap : cap < UInt64.size) (pieces : List String) :
    ((empty : BoundedText cap).appendEach pieces).text.toList =
      (Text.keptOf cap pieces).flatten := by
  have hbytes := bytes_appendEach hcap empty pieces
  rw [bytes_empty, List.nil_append, remaining, len_empty, Nat.sub_zero] at hbytes
  rw [text_of_bytes hbytes, String.toList_ofList]

theorem toList_text_ofString (hcap : cap < UInt64.size) (s : String) :
    (ofString s : BoundedText cap).text.toList = Text.fitting cap s.toList := by
  rw [text_of_bytes (bytes_ofString hcap s), String.toList_ofList]

theorem len_ofString (hcap : cap < UInt64.size) (s : String) :
    (ofString s : BoundedText cap).len = (Text.encode (Text.fitting cap s.toList)).length := by
  rw [← length_bytes, bytes_ofString hcap]

theorem appendEach_eq_ofString (hcap : cap < UInt64.size) {pieces : List String} {s : String} :
    (empty : BoundedText cap).appendEach pieces = ofString s ↔
      ((empty : BoundedText cap).appendEach pieces).text.toList =
        (ofString s : BoundedText cap).text.toList := by
  rw [String.toList_inj]
  exact ⟨congrArg text, (canonical_empty.appendEach hcap pieces).eq_of_text
    (canonical_empty.append hcap s)⟩

/-- The whole has been cut before the pieces in `after` came, and `late` is what is kept of each. -/
structure Late (pieces after : List String) (whole pieced : BoundedText cap)
    (late : List (List Char)) : Prop where
  dropped : ∃ c rest, (String.join pieces).toList = whole.text.toList ++ c :: rest ∧
    cap - whole.len < c.utf8Size
  gap : cap - whole.len ≤ 3
  kept : List.Forall₂ (fun kept piece => kept <+: piece.toList) late after
  room : (Text.encode late.flatten).length ≤ cap - whole.len
  text : pieced.text.toList = whole.text.toList ++ late.flatten
  same : pieced = whole ↔ ∀ piece ∈ after, ∀ c ∈ piece.toList.head?, cap - whole.len < c.utf8Size

theorem exists_late (hcap : cap < UInt64.size) {pieces before after : List String} {cut : String}
    (hsplit : pieces = before ++ cut :: after) (h : Text.Overruns cap before cut) :
    ∃ late, Late pieces after (ofString (String.join pieces) : BoundedText cap)
      (empty.appendEach pieces) late := by
  subst hsplit
  have hflatten := Text.flatten_keptOf h after
  have hover := h.lt_join after
  rw [← Text.length_encode_toList] at hover
  obtain ⟨c, rest, hdropped, hgap⟩ := Text.exists_dropped hover
  have hsize := c.utf8Size_le_four
  rw [← len_ofString hcap] at hflatten hgap
  rw [← toList_text_ofString hcap] at hdropped
  rw [← toList_text_appendEach hcap, ← toList_text_ofString hcap] at hflatten
  refine ⟨_, ⟨c, rest, hdropped, hgap⟩, by omega, Text.keptOf_prefixes _ after,
    Text.length_keptOf_le _ after, hflatten, ?_⟩
  rw [appendEach_eq_ofString hcap, hflatten, List.append_right_eq_self, Text.keptOf_eq_nil]

namespace Late

variable {pieces after : List String} {whole pieced : BoundedText cap} {late : List (List Char)}

/-- What is late is narrower than what was dropped, so it is not what comes next in the source. -/
theorem text_eq_of_prefix (h : Late pieces after whole pieced late)
    (hlead : pieced.text.toList <+: (String.join pieces).toList) :
    pieced.text.toList = whole.text.toList := by
  obtain ⟨c, rest, hdropped, hgap⟩ := h.dropped
  have hroom := h.room
  rw [h.text, hdropped, List.prefix_append_right_inj] at hlead
  rw [h.text]
  cases hlate : late.flatten with
  | nil => exact List.append_nil _
  | cons d ds =>
    rw [hlate] at hroom hlead
    obtain ⟨rfl, -⟩ := List.cons_prefix_cons.1 hlead
    rw [Text.encode_cons, List.length_append, String.length_utf8EncodeChar] at hroom
    omega

/-- Where every character is one byte, there is no gap. -/
theorem eq_of_ascii (h : Late pieces after whole pieced late)
    (hascii : ∀ c ∈ (String.join pieces).toList, c.toNat < 128) : pieced = whole := by
  obtain ⟨c, rest, hdropped, hgap⟩ := h.dropped
  have hone : c.utf8Size = 1 :=
    Char.utf8Size_eq_one_iff.2 (UInt32.le_iff_toNat_le.2
      (Nat.le_of_lt_succ (hascii c (by simp [hdropped]))))
  refine h.same.2 fun piece _ d _ => ?_
  have hpos := d.utf8Size_pos
  omega

end Late

/-- A text of pieces begins with the same text as a whole. It goes on behind it only where the
whole was cut, there was a gap in front of the character that was dropped, and a later piece begins
with a narrower character: the whole and what was late make up all of it. -/
theorem pieces_against_whole (hcap : cap < UInt64.size) (pieces : List String) :
    let whole : BoundedText cap := ofString (String.join pieces)
    let pieced : BoundedText cap := empty.appendEach pieces
    whole.text.toList <+: pieced.text.toList ∧
    (pieced = whole ↔ (String.join pieces).utf8ByteSize ≤ cap ∨ whole.len = cap ∨
      ∀ before cut after, pieces = before ++ cut :: after → Text.Overruns cap before cut →
        ∀ piece ∈ after, ∀ c ∈ piece.toList.head?, cap - whole.len < c.utf8Size) ∧
    ((∀ piece ∈ pieces, ∀ c ∈ piece.toList, c.toNat < 128) → pieced = whole) ∧
    (pieced = whole ↔ pieced.text.toList <+: (String.join pieces).toList) ∧
    ((String.join pieces).utf8ByteSize ≤ cap ∨ ∃ before cut after late,
      pieces = before ++ cut :: after ∧ Text.Overruns cap before cut ∧
        Late pieces after whole pieced late) := by
  intro whole pieced
  rcases Nat.lt_or_ge cap (String.join pieces).utf8ByteSize with hover | hfits
  · obtain ⟨before, cut, after, hsplit, hoverruns⟩ := Text.exists_overruns hover
    obtain ⟨late, hlate⟩ : ∃ late, Late pieces after whole pieced late :=
      exists_late hcap hsplit hoverruns
    have hwhole : whole.text.toList <+: (String.join pieces).toList := by
      obtain ⟨c, rest, hdropped, -⟩ := hlate.dropped
      exact ⟨c :: rest, hdropped.symm⟩
    refine ⟨?_, ⟨fun heq => .inr (.inr ?_), ?_⟩, fun hascii => hlate.eq_of_ascii ?_,
      ⟨fun heq => heq ▸ hwhole, fun hlead => ?_⟩,
      .inr ⟨before, cut, after, late, hsplit, hoverruns, hlate⟩⟩
    · rw [hlate.text]
      exact List.prefix_append _ _
    · intro before' cut' after' hsplit' hoverruns'
      obtain ⟨late', hlate'⟩ := exists_late hcap hsplit' hoverruns'
      exact hlate'.same.1 heq
    · rintro (hfits | hfull | hnone)
      · omega
      · refine hlate.same.2 fun piece _ c _ => ?_
        have hpos := c.utf8Size_pos
        omega
      · exact hlate.same.2 (hnone before cut after hsplit hoverruns)
    · rw [String.toList_join, List.forall_mem_flatMap]
      exact hascii
    · exact (appendEach_eq_ofString hcap).2 (hlate.text_eq_of_prefix hlead)
  · have hpieced : pieced.text.toList = (String.join pieces).toList := by
      rw [toList_text_appendEach hcap, Text.flatten_keptOf_of_le hfits]
    have heq : pieced = whole := by
      refine (appendEach_eq_ofString hcap).2 ?_
      rw [hpieced, toList_text_ofString hcap,
        Text.fitting_eq_self (by rwa [Text.length_encode_toList])]
    exact ⟨heq ▸ List.prefix_refl _, iff_of_true heq (.inl hfits), fun _ => heq,
      iff_of_true heq (hpieced ▸ List.prefix_refl _), .inl hfits⟩

/-- The sign does not fit, and the letter behind it takes one byte of the two that are left. -/
theorem pieces_against_whole_late : 4 < UInt64.size ∧
    (ofString (String.join ["ab", "€", "c"]) : BoundedText 4).text = "ab" ∧
    ((empty : BoundedText 4).appendEach ["ab", "€", "c"]).text = "abc" ∧
    (empty : BoundedText 4).appendEach ["ab", "€", "c"] ≠
      ofString (String.join ["ab", "€", "c"]) := by
  refine ⟨by decide, by decide +kernel, by decide +kernel, fun heq => ?_⟩
  rcases (pieces_against_whole (by decide) ["ab", "€", "c"]).2.1.1 heq with h | h | h
  · revert h
    decide
  · revert h
    decide +kernel
  · have hlate := h ["ab"] "€" ["c"] rfl ⟨by decide, by decide⟩ "c" (.head _) 'c' rfl
    revert hlate
    decide +kernel

end BoundedText

end Cadence
