import Cadence.Cells

/-!
Words that count. As long as what they count fits, one more and one less mean what they say; and
whether it fits or not, a word that counts some of the cells of a block goes on doing so when one
cell is replaced and the word is corrected for that one.
-/

theorem UInt64.toNat_add_one_of_lt {w : UInt64} (h : w.toNat + 1 < UInt64.size) :
    (w + 1).toNat = w.toNat + 1 := by
  rw [UInt64.toNat_add]
  exact Nat.mod_eq_of_lt h

theorem UInt64.toNat_sub_one_of_pos {w : UInt64} (h : 0 < w.toNat) :
    (w - 1).toNat = w.toNat - 1 :=
  UInt64.toNat_sub_of_le _ _ (UInt64.le_iff_toNat_le.2 h)

theorem UInt64.ofNat_add_one (k : Nat) : UInt64.ofNat (k + 1) = .ofNat k + 1 :=
  UInt64.ofNat_add k 1

theorem UInt64.ofNat_add_one_sub_one (k : Nat) : UInt64.ofNat (k + 1) - 1 = .ofNat k := by
  rw [UInt64.ofNat_add_one, UInt64.add_sub_cancel]

/-- A word that comes back to what it was has not moved, or has come all the way around. -/
theorem UInt32.eq_of_ofNat_eq {a b : Nat} (h : UInt32.ofNat a = UInt32.ofNat b) (hle : a ≤ b)
    (hlag : b - a < UInt32.size) : a = b := by
  have hmod : b % UInt32.size = a % UInt32.size := by
    have hnat := congrArg UInt32.toNat h
    rw [UInt32.toNat_ofNat', UInt32.toNat_ofNat'] at hnat
    exact hnat.symm
  have hzero := Nat.sub_mod_eq_zero_of_mod_eq hmod
  rw [Nat.mod_eq_of_lt hlag] at hzero
  omega

namespace Cadence

variable {α : Type} {n : Nat} {p : α → Bool} {cells : Vector α n} {w w' : UInt32}

theorem eq_ofNat_countP_replaceAt (h : w = .ofNat (cells.countP p)) {i : Fin n} {a : α}
    (hw : w' + .ofNat (p (cells.get i)).toNat = w + .ofNat (p a).toNat) :
    w' = .ofNat ((replaceAt cells i a).countP p) := by
  rw [h, ← UInt32.ofNat_add, ← countP_replaceAt p cells i a, UInt32.ofNat_add] at hw
  exact (UInt32.add_left_inj _).1 hw

theorem toNat_eq_countP (h : w = .ofNat (cells.countP p)) (hn : n < UInt32.size) :
    w.toNat = cells.countP p := by
  rw [h, UInt32.toNat_ofNat']
  exact Nat.mod_eq_of_lt (Nat.lt_of_le_of_lt Vector.countP_le_size hn)

end Cadence
