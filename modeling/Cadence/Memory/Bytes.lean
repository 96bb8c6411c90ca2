/-!
Words as bytes, least significant byte first.
-/

namespace Cadence.Bytes

/-- The lowest `width` bytes of a number. -/
def ofNat (width n : Nat) : List UInt8 :=
  (List.range width).map fun i => .ofNat (n >>> (8 * i))

def toNat (bytes : List UInt8) : Nat :=
  bytes.foldr (fun b n => b.toNat + 256 * n) 0

@[simp] theorem length_ofNat (width n : Nat) : (ofNat width n).length = width := by
  rw [ofNat, List.length_map, List.length_range]

theorem ofNat_succ (width n : Nat) : ofNat (width + 1) n = .ofNat n :: ofNat width (n / 256) := by
  rw [ofNat, List.range_succ_eq_map, List.map_cons, List.map_map, Nat.mul_zero, Nat.shiftRight_zero]
  refine congrArg _ (List.map_congr_left fun i _ => congrArg UInt8.ofNat ?_)
  rw [Nat.succ_eq_add_one, Nat.mul_add, Nat.add_comm, Nat.shiftRight_add,
    Nat.shiftRight_eq_div_pow n]

theorem toNat_ofNat {width n : Nat} (h : n < 1 <<< (8 * width)) :
    toNat (ofNat width n) = n := by
  induction width generalizing n with
  | zero => exact (Nat.lt_one_iff.1 h).symm
  | succ width ih =>
    have hrest : n / 256 < 1 <<< (8 * width) := by
      rw [Nat.one_shiftLeft, Nat.mul_succ, Nat.add_comm, Nat.pow_add] at h
      rw [Nat.one_shiftLeft]
      exact Nat.div_lt_of_lt_mul h
    rw [ofNat_succ, toNat, List.foldr_cons, ← toNat, ih hrest]
    exact Nat.mod_add_div n 256

theorem toNat_zeros (width : Nat) : toNat (List.replicate width 0) = 0 := by
  induction width with
  | zero => rfl
  | succ width ih =>
    rw [List.replicate_succ, toNat, List.foldr_cons, ← toNat, ih]
    rfl

end Cadence.Bytes
