import Cadence.Plan
import Cadence.Proofs.Word

/-!
Words that are rounded up, as numbers. For a power of two the bits below an alignment are the
remainder, so clearing them after a sum gives the least multiple that is not below; and the checks
in front of it refuse nothing but what would leave the words.
-/

namespace Cadence

theorem isSingleBit_iff {w : UInt64} : isSingleBit w = true ↔ w.toNat.isPowerOfTwo := by
  rw [← Nat.ne_zero_and_sub_one_eq_zero_iff_isPowerOfTwo, isSingleBit, Bool.and_eq_true,
    bne_iff_ne, beq_iff_eq, ← UInt64.toNat_inj, UInt64.toNat_and, Ne, ← UInt64.toNat_inj]
  refine and_congr_right fun hw => ?_
  rw [UInt64.toNat_sub_one_of_pos (Nat.pos_of_ne_zero hw)]
  rfl

theorem checkedSum_eq_some {a b c : UInt64} :
    checkedSum a b = some c ↔ c.toNat = a.toNat + b.toNat := by
  rw [checkedSum]
  split
  · rename_i fits
    rw [Option.some.injEq, ← UInt64.toNat_inj, UInt64.toNat_add, Nat.mod_eq_of_lt fits]
    exact eq_comm
  · rename_i overflows
    have hc := c.toNat_lt
    exact iff_of_false nofun fun h => overflows (h ▸ hc)

theorem checkedDifference_eq_some {a b c : UInt64} :
    checkedDifference a b = some c ↔ c.toNat + b.toNat = a.toNat := by
  rw [checkedDifference]
  split
  · rename_i le
    have le' := UInt64.le_iff_toNat_le.1 le
    rw [Option.some.injEq, ← UInt64.toNat_inj, UInt64.toNat_sub_of_le _ _ le]
    omega
  · rename_i gt
    refine iff_of_false nofun fun h => gt (UInt64.le_iff_toNat_le.2 ?_)
    omega

/-- Below a power of two lie exactly the bits of the remainder. -/
theorem toNat_clearBelow (value : UInt64) {align mask : UInt64} (h : align.toNat.isPowerOfTwo)
    (hmask : mask.toNat + 1 = align.toNat) :
    (clearBelow value mask).toNat = value.toNat / align.toNat * align.toNat := by
  obtain ⟨k, hk⟩ := h
  have hpred : mask.toNat = 2 ^ k - 1 := by omega
  rw [hk, ← Nat.shiftRight_eq_div_pow, ← Nat.shiftLeft_eq]
  refine Nat.eq_of_testBit_eq fun i => ?_
  have hbit : mask.toBitVec.getLsbD i = decide (i < k) := by
    rw [BitVec.getLsbD, UInt64.toNat_toBitVec, hpred, Nat.testBit_two_pow_sub_one]
  change (value.toBitVec &&& ~~~mask.toBitVec).getLsbD i = _
  rw [BitVec.getLsbD_and, BitVec.getLsbD_not, hbit, Nat.testBit_shiftLeft, Nat.testBit_shiftRight]
  rcases Nat.lt_or_ge i k with hi | hi
  · simp [hi, Nat.not_le_of_lt hi]
  · rw [Nat.add_sub_cancel' hi]
    change _ = (decide (i ≥ k) && value.toBitVec.getLsbD i)
    cases hvalue : value.toBitVec.getLsbD i with
    | false => rw [Bool.false_and, Bool.and_false]
    | true =>
      have hlt : i < 64 := BitVec.lt_of_getLsbD hvalue
      simp [hi, hlt, Nat.not_lt_of_le hi]

namespace Record.Extent

variable {offset align : Nat}

theorem dvd_aligned : align ∣ aligned offset align := Nat.dvd_mul_left ..

end Record.Extent

open Record (Extent)

/-- The words end at a multiple of every alignment. -/
theorem dvd_size {align : UInt64} (h : align.toNat.isPowerOfTwo) : align.toNat ∣ UInt64.size := by
  obtain ⟨k, hk⟩ := h
  have hlt : 2 ^ k < 2 ^ 64 := hk ▸ align.toNat_lt
  rw [hk]
  exact Nat.pow_dvd_pow 2 (Nat.le_of_lt ((Nat.pow_lt_pow_iff_right (by decide)).1 hlt))

theorem aligned_add_le_size {align start : UInt64} (h : align.toNat.isPowerOfTwo)
    (hdvd : align.toNat ∣ start.toNat) : start.toNat + align.toNat ≤ UInt64.size := by
  have hsize := dvd_size h
  have hlt : start.toNat < UInt64.size := start.toNat_lt
  obtain ⟨j, hj⟩ := hdvd
  obtain ⟨n, hn⟩ := hsize
  have hpos : 0 < align.toNat := Nat.pos_of_isPowerOfTwo h
  have hjn : j < n := by
    refine Nat.lt_of_mul_lt_mul_left (a := align.toNat) ?_
    omega
  have hle := Nat.mul_le_mul_left align.toNat hjn
  rw [Nat.mul_succ] at hle
  omega

theorem roundUp_eq_ok {value align r : UInt64} (h : align.toNat.isPowerOfTwo) :
    roundUp value align = .ok r ↔ value.toNat + align.toNat < UInt64.size ∧
      r.toNat = Extent.aligned value.toNat align.toNat := by
  have hpos : 0 < align.toNat := Nat.pos_of_isPowerOfTwo h
  have hone : UInt64.toNat 1 = 1 := rfl
  rw [roundUp]
  cases hreach : checkedSum value align with
  | none =>
    refine iff_of_false nofun ?_
    rintro ⟨fits, -⟩
    rw [checkedSum, if_pos fits] at hreach
    cases hreach
  | some reach =>
    rw [checkedSum_eq_some] at hreach
    have hfits : value.toNat + align.toNat < UInt64.size := hreach ▸ reach.toNat_lt
    obtain ⟨last, hlast⟩ : ∃ last, checkedDifference reach 1 = some last :=
      ⟨reach - 1, if_pos (UInt64.le_iff_toNat_le.2 (by omega))⟩
    obtain ⟨mask, hmask⟩ : ∃ mask, checkedDifference align 1 = some mask :=
      ⟨align - 1, if_pos (UInt64.le_iff_toNat_le.2 (by omega))⟩
    have hmaskNat := checkedDifference_eq_some.1 hmask
    have hlastNat := checkedDifference_eq_some.1 hlast
    have hcleared := toNat_clearBelow last h (show mask.toNat + 1 = align.toNat by omega)
    have hnat : last.toNat = value.toNat + align.toNat - 1 := by omega
    rw [hnat] at hcleared
    simp only [Option.elim_some, hlast, hmask, bind, Except.bind, pure, Except.pure]
    rw [Except.ok.injEq, ← UInt64.toNat_inj, hcleared, and_iff_right hfits]
    exact eq_comm

namespace Plan

variable {p q : Plan} {size align start : UInt64}

/-- A request is granted as soon as the least multiple of its alignment leaves room for it. -/
theorem reserve_eq_ok : p.reserve size align = .ok (start, q) ↔ align.toNat.isPowerOfTwo ∧
    start.toNat = Extent.aligned p.used.toNat align.toNat ∧
    q.used.toNat = start.toNat + size.toNat := by
  rw [reserve]
  cases halign : isSingleBit align with
  | false =>
    refine iff_of_false (by rintro ⟨⟩) ?_
    intro h
    rw [isSingleBit_iff.2 h.1] at halign
    cases halign
  | true =>
    have h := isSingleBit_iff.1 halign
    have hpos : 0 < align.toNat := Nat.pos_of_isPowerOfTwo h
    have hmask := UInt64.toNat_sub_one_of_pos hpos
    rw [and_iff_right h]
    simp only [Bool.not_true, Bool.false_eq_true, ↓reduceIte, bind, Except.bind, pure, Except.pure]
    cases hlast : checkedSum p.used (align - 1) with
    | none =>
      refine iff_of_false (by rintro ⟨⟩) ?_
      rintro ⟨hstart, -⟩
      -- the words leave room behind every multiple of the alignment
      have hdvd : align.toNat ∣ start.toNat := hstart ▸ Extent.dvd_aligned
      have hroom := aligned_add_le_size h hdvd
      have hle : p.used.toNat ≤ Extent.aligned p.used.toNat align.toNat := Extent.le_aligned hpos
      rw [checkedSum, if_pos (by omega)] at hlast
      cases hlast
    | some last =>
      have hlastNat := checkedSum_eq_some.1 hlast
      have hcleared := toNat_clearBelow last h (show (align - 1).toNat + 1 = align.toNat by omega)
      have hnat : last.toNat = p.used.toNat + align.toNat - 1 := by omega
      rw [hnat] at hcleared
      rw [Extent.aligned, ← hcleared]
      simp only [Option.elim_some]
      cases hstop : checkedSum (clearBelow last (align - 1)) size with
      | none =>
        refine iff_of_false (by rintro ⟨⟩) ?_
        rintro ⟨hstart, hstop'⟩
        rw [hstart, ← checkedSum_eq_some, hstop] at hstop'
        cases hstop'
      | some stop =>
        change Except.ok (clearBelow last (align - 1), Plan.mk stop) = Except.ok (start, q) ↔ _
        rw [Except.ok.injEq, Prod.mk.injEq, UInt64.toNat_inj]
        refine ⟨?_, ?_⟩
        · rintro ⟨rfl, rfl⟩
          exact ⟨rfl, checkedSum_eq_some.1 hstop⟩
        · rintro ⟨rfl, hused⟩
          rw [← checkedSum_eq_some, hstop, Option.some.injEq] at hused
          exact ⟨rfl, congrArg Plan.mk hused⟩

end Plan

end Cadence
