import Cadence.Capacity

/-!
Positions that count up from an arbitrary word and wrap. Within a stretch as long as the capacity no
two of them share a slot, wherever the stretch begins and whether it wraps or not; the position one
capacity further on falls on the same slot again.
-/

namespace Cadence

def position (start : UInt64) (k : Nat) : UInt64 := start + .ofNat k

theorem toNat_position (s : UInt64) (k : Nat) :
    (position s k).toNat = (s.toNat + k) % UInt64.size := by
  rw [position, UInt64.toNat_add, UInt64.toNat_ofNat']
  exact Nat.add_mod_mod ..

@[simp] theorem position_zero (s : UInt64) : position s 0 = s := by
  apply UInt64.toNat_inj.1
  rw [toNat_position]
  exact Nat.mod_eq_of_lt s.toNat_lt

theorem position_add (s : UInt64) (j k : Nat) : position s (j + k) = position s j + .ofNat k := by
  apply UInt64.toNat_inj.1
  rw [UInt64.toNat_add, toNat_position, toNat_position, UInt64.toNat_ofNat']
  unfold UInt64.size
  omega

theorem position_position (s : UInt64) (j k : Nat) :
    position (position s j) k = position s (j + k) :=
  (position_add s j k).symm

theorem position_succ (s : UInt64) (k : Nat) : position s (k + 1) = position s k + 1 :=
  position_add s k 1

theorem position_inj {s : UInt64} {j k : Nat} (hj : j < k + UInt64.size)
    (hk : k < j + UInt64.size) (h : position s j = position s k) : j = k := by
  have h := congrArg UInt64.toNat h
  rw [toNat_position, toNat_position] at h
  unfold UInt64.size at *
  omega

theorem position_add_one (s : UInt64) (k : Nat) : position (s + 1) k = position s (k + 1) := by
  rw [Nat.add_comm k 1]
  exact position_position s 1 k

/-- How far a position has come, told from the words. -/
theorem toNat_position_sub {s : UInt64} {k : Nat} (h : k < UInt64.size) :
    (position s k - s).toNat = k := by
  rw [position, UInt64.add_comm, UInt64.add_sub_cancel, UInt64.toNat_ofNat']
  exact Nat.mod_eq_of_lt h

theorem position_ne_succ (s : UInt64) (k : Nat) : position s k ≠ position s k + 1 := by
  rw [← position_succ]
  intro h
  have := position_inj (by unfold UInt64.size; omega) (by unfold UInt64.size; omega) h
  omega

namespace Capacity

def pair : Capacity := ⟨1, by decide⟩

variable {c : Capacity}

theorem size_dvd (c : Capacity) : c.size ∣ UInt64.size := by
  rw [size, Nat.one_shiftLeft]
  exact Nat.pow_dvd_pow 2 (Nat.le_of_lt c.log_lt)

theorem position_add_word (s : UInt64) (k : Nat) :
    position s k + c.word = position s (k + c.size) :=
  (position_add s k c.size).symm

theorem val_slot_position (s : UInt64) (k : Nat) :
    (c.slot (position s k)).val = (s.toNat + k) % c.size := by
  change (position s k).toNat % c.size = _
  rw [toNat_position, Nat.mod_mod_of_dvd _ c.size_dvd]

theorem slot_position_add_size (s : UInt64) (k : Nat) :
    c.slot (position s (k + c.size)) = c.slot (position s k) := by
  apply Fin.ext
  rw [val_slot_position, val_slot_position, ← Nat.add_assoc, Nat.add_mod_right]

theorem slot_position_inj_of_le {s : UInt64} {j k : Nat} (hjk : j ≤ k) (hk : k < j + c.size)
    (h : c.slot (position s j) = c.slot (position s k)) : j = k := by
  have hmod : (s.toNat + k) % c.size = (s.toNat + j) % c.size := by
    rw [← val_slot_position, ← val_slot_position, h]
  have hzero := Nat.sub_mod_eq_zero_of_mod_eq hmod
  rw [Nat.add_sub_add_left, Nat.mod_eq_of_lt (by omega)] at hzero
  omega

/-- Two positions of one lap share no slot. -/
theorem slot_position_inj {s : UInt64} {j k : Nat} (hj : j < k + c.size) (hk : k < j + c.size)
    (h : c.slot (position s j) = c.slot (position s k)) : j = k := by
  rcases Nat.le_total j k with hjk | hkj
  · exact slot_position_inj_of_le hjk hk h
  · exact (slot_position_inj_of_le hkj hj h.symm).symm

/-- The positions of one lap, which begins anywhere, have different slots. -/
theorem slot_position_ne {s : UInt64} {first j k : Nat} (hj : first ≤ j) (hj' : j < first + c.size)
    (hk : first ≤ k) (hk' : k < first + c.size) (h : j ≠ k) :
    c.slot (position s j) ≠ c.slot (position s k) :=
  fun e => h (slot_position_inj (by omega) (by omega) e)

end Capacity

end Cadence
