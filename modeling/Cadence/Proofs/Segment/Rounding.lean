import Cadence.Proofs.Segment.Reserving

/-!
Two ways to the next multiple of an alignment: a plan looks for it before it reserves, and `roundUp`
computes it alone. They agree but for one value: one alignment below the end of the words the sum
has left them before one is taken off it, though the value is a multiple itself. In whole lines that
is the last line there is.
-/

namespace Cadence

open Record (Extent)

variable {value align r start : UInt64}

theorem exists_word_iff {P : Nat → Prop} :
    (∃ w : UInt64, P w.toNat) ↔ ∃ m < UInt64.size, P m := by
  refine ⟨fun ⟨w, hw⟩ => ⟨w.toNat, w.toNat_lt, hw⟩, ?_⟩
  rintro ⟨m, hlt, hm⟩
  exact ⟨.ofNat m, (UInt64.toNat_ofNat_of_lt' hlt).symm ▸ hm⟩

theorem exists_reserve_eq_ok (h : align.toNat.isPowerOfTwo) :
    (∃ q, (Plan.mk value).reserve 0 align = .ok (start, q)) ↔
      start.toNat = Extent.aligned value.toNat align.toNat := by
  refine ⟨?_, fun hstart => ⟨⟨start⟩, Plan.reserve_eq_ok.2 ⟨h, hstart, rfl⟩⟩⟩
  rintro ⟨q, hq⟩
  exact (Plan.reserve_eq_ok.1 hq).2.1

/-- A multiple that is the least is the one that is computed. -/
theorem isLeast_iff_eq_aligned {offset align m : Nat} (h : 0 < align) :
    IsLeast {m | align ∣ m ∧ offset ≤ m} m ↔ m = Extent.aligned offset align := by
  refine ⟨fun hm => hm.unique (Extent.isLeast_aligned offset h), ?_⟩
  rintro rfl
  exact Extent.isLeast_aligned offset h

/-- Only behind the last multiple of all is there none that a word can tell. -/
theorem add_lt_size_iff (h : align.toNat.isPowerOfTwo) :
    value.toNat + align.toNat < UInt64.size ↔ value.toNat + align.toNat ≠ UInt64.size ∧
      Extent.aligned value.toNat align.toNat < UInt64.size := by
  have hpos : 0 < align.toNat := Nat.pos_of_isPowerOfTwo h
  refine ⟨fun fits => ⟨Nat.ne_of_lt fits, ?_⟩, ?_⟩
  · have hle := Nat.div_mul_le_self (value.toNat + align.toNat - 1) align.toNat
    rw [Extent.aligned]
    omega
  · rintro ⟨hne, fits⟩
    obtain ⟨multiple, hmultiple⟩ : ∃ w : UInt64, w.toNat = Extent.aligned value.toNat align.toNat :=
      ⟨_, UInt64.toNat_ofNat_of_lt' fits⟩
    have hle : value.toNat ≤ multiple.toNat := hmultiple ▸ Extent.le_aligned hpos
    -- behind a multiple that is a word there is room for one alignment
    have hroom := aligned_add_le_size h (hmultiple ▸ Extent.dvd_aligned)
    omega

theorem roundUp_eq_ok_iff (h : align.toNat.isPowerOfTwo) :
    roundUp value align = .ok r ↔ value.toNat + align.toNat ≠ UInt64.size ∧
      r.toNat = Extent.aligned value.toNat align.toNat := by
  rw [roundUp_eq_ok h, add_lt_size_iff h, and_assoc]
  refine and_congr_right fun _ => and_iff_right_of_imp fun hr => ?_
  exact hr ▸ r.toNat_lt

theorem roundUp_eq_error (h : align.toNat.isPowerOfTwo) {fault : WordFault} :
    roundUp value align = .error fault ↔
      fault = .sum ∧ UInt64.size ≤ value.toNat + align.toNat := by
  rcases Nat.lt_or_ge (value.toNat + align.toNat) UInt64.size with fits | leaves
  · have hword := UInt64.toNat_ofNat_of_lt' ((add_lt_size_iff h).1 fits).2
    rw [(roundUp_eq_ok h).2 ⟨fits, hword⟩]
    exact iff_of_false nofun fun hfault => Nat.not_le.2 fits hfault.2
  · have hsum : roundUp value align = .error .sum := by
      rw [roundUp, checkedSum, if_neg (Nat.not_lt.2 leaves)]
      rfl
    rw [hsum, Except.error.injEq, and_iff_left leaves]
    exact eq_comm

structure RoundsAlike (value align : UInt64) : Prop where
  /-- A plan of that length begins what it grants at the least multiple. -/
  granted : ∀ start, (∃ q, (Plan.mk value).reserve 0 align = .ok (start, q)) ↔
    IsLeast {m | align.toNat ∣ m ∧ value.toNat ≤ m} start.toNat
  fits : (∃ start q, (Plan.mk value).reserve 0 align = .ok (start, q)) ↔
    ∃ m < UInt64.size, IsLeast {m | align.toNat ∣ m ∧ value.toNat ≤ m} m
  rounded : ∀ r, roundUp value align = .ok r ↔ value.toNat + align.toNat ≠ UInt64.size ∧
    ∃ q, (Plan.mk value).reserve 0 align = .ok (r, q)
  overflows : ∀ fault, roundUp value align = .error fault ↔
    fault = .sum ∧ UInt64.size ≤ value.toNat + align.toNat
  /-- Where the two differ, the value is its own multiple. -/
  parts : value.toNat + align.toNat = UInt64.size →
    (Plan.mk value).reserve 0 align = .ok (value, ⟨value⟩)
  lines : ∀ r, wholeLines value = .ok r ↔ value.toNat + Limits.cacheLine ≠ UInt64.size ∧
    IsLeast {m | Limits.cacheLine ∣ m ∧ value.toNat ≤ m} r.toNat
  finished : ∀ r, (Plan.mk value).finish = .ok r ↔
    value.toNat + Limits.cacheLine ≠ UInt64.size ∧
      IsLeast {m | Limits.cacheLine ∣ m ∧ value.toNat ≤ m} r.toNat
  /-- The last line apart, a size that can be told in whole lines is. -/
  finishes : (∃ r, (Plan.mk value).finish = .ok r) ↔
    value.toNat + Limits.cacheLine ≠ UInt64.size ∧
      ∃ m < UInt64.size, IsLeast {m | Limits.cacheLine ∣ m ∧ value.toNat ≤ m} m

theorem rounds_alike (value align : UInt64) (h : align.toNat.isPowerOfTwo) :
    RoundsAlike value align := by
  have hpos : 0 < align.toNat := Nat.pos_of_isPowerOfTwo h
  have hline : UInt64.toNat (.ofNat Limits.cacheLine) = Limits.cacheLine := rfl
  have hlines : ∀ r, wholeLines value = .ok r ↔
      value.toNat + Limits.cacheLine ≠ UInt64.size ∧
        IsLeast {m | Limits.cacheLine ∣ m ∧ value.toNat ≤ m} r.toNat := by
    intro r
    rw [wholeLines, roundUp_eq_ok_iff ⟨6, rfl⟩, hline, isLeast_iff_eq_aligned (by decide)]
  refine ⟨fun start => ?_, ?_, fun r => ?_, fun fault => roundUp_eq_error h, fun hend => ?_,
    hlines, hlines, ?_⟩
  · rw [exists_reserve_eq_ok h, isLeast_iff_eq_aligned hpos]
  · simp only [exists_reserve_eq_ok h, isLeast_iff_eq_aligned hpos]
    exact exists_word_iff (P := (· = Extent.aligned value.toNat align.toNat))
  · rw [roundUp_eq_ok_iff h, exists_reserve_eq_ok h]
  · have hdvd : align.toNat ∣ value.toNat :=
      (Nat.dvd_add_left (Nat.dvd_refl _)).1 (hend ▸ dvd_size h)
    have hleast : IsLeast {m | align.toNat ∣ m ∧ value.toNat ≤ m} value.toNat :=
      ⟨⟨hdvd, Nat.le_refl _⟩, fun _ hm => hm.2⟩
    exact Plan.reserve_eq_ok.2 ⟨h, (isLeast_iff_eq_aligned hpos).1 hleast, rfl⟩
  · rw [← exists_word_iff, ← exists_and_left]
    exact exists_congr hlines

/-- From the last line but one it still gets to the last. -/
theorem rounds_alike_nearTheEnd :
    (64 : UInt64).toNat.isPowerOfTwo ∧ RoundsAlike 0xffffffffffffff81 64 ∧
      roundUp 0xffffffffffffff81 64 = .ok 0xffffffffffffffc0 ∧
      (Plan.mk 0xffffffffffffff81).finish = .ok 0xffffffffffffffc0 :=
  have h : (64 : UInt64).toNat.isPowerOfTwo := ⟨6, rfl⟩
  ⟨h, rounds_alike 0xffffffffffffff81 64 h, rfl, rfl⟩

/-- The last line itself is beyond it. -/
theorem roundUp_lastLine : roundUp 0xffffffffffffffc0 64 = .error .sum ∧
    (Plan.mk 0xffffffffffffffc0).finish = .error .sum ∧
    (Plan.mk 0xffffffffffffffc0).reserve 0 64 =
      .ok (0xffffffffffffffc0, ⟨0xffffffffffffffc0⟩) ∧
    IsLeast {m | 64 ∣ m ∧ 0xffffffffffffffc0 ≤ m} 0xffffffffffffffc0 :=
  ⟨rfl, rfl, rfl, ⟨by decide, Nat.le_refl _⟩, fun _ hm => hm.2⟩

end Cadence
