import Cadence.Text.Numeral

/-!
Numbers are read as they are written. What a number is written with is digits, and no digit is a sign.
-/

namespace Cadence.Text

theorem isDigit_of_mem_repr {n : Nat} {c : Char} (h : c ∈ n.repr.toList) : c.isDigit = true := by
  rw [Nat.repr_eq_ofList_toDigits, String.toList_ofList] at h
  exact Nat.isDigit_of_mem_toDigits (by decide) (by decide) h

theorem digits?_repr (n : Nat) : digits? n.repr.toList = some n := by
  have hall : n.repr.toList.all Char.isDigit = true :=
    List.all_eq_true.2 fun _ h => isDigit_of_mem_repr h
  rw [Nat.repr_eq_ofList_toDigits, String.toList_ofList] at hall ⊢
  have hvalue : (Nat.toDigits 10 n).foldl (fun n c => n * 10 + (c.toNat - '0'.toNat)) 0 = n := by
    have h := Nat.ofDigitChars_ten_toDigits (n := n)
    rw [Nat.ofDigitChars_eq_foldl] at h
    simpa only [Nat.mul_comm] using h
  have hsome : (Nat.toDigits 10 n).isEmpty = false :=
    List.isEmpty_eq_false_iff.2 Nat.toDigits_ne_nil
  unfold digits?
  rw [hall, hsome]
  exact congrArg some hvalue

section

variable {cs : List Char}

theorem integer?_of_isDigit (h : ∀ c ∈ cs, c.isDigit = true) :
    integer? cs = (digits? cs).map Int.ofNat := by
  unfold integer?
  split
  · cases h '-' (.head _)
  · cases h '+' (.head _)
  · rfl

theorem count?_of_isDigit (h : ∀ c ∈ cs, c.isDigit = true) : count? cs = digits? cs := by
  unfold count?
  split
  · cases h '+' (.head _)
  · rfl

end

theorem integer?_toString (n : Int) : integer? (toString n).toList = some n := by
  rw [Int.toString_eq_repr, Int.repr_eq_if]
  split
  · rename_i hn
    rw [integer?_of_isDigit fun _ => isDigit_of_mem_repr, digits?_repr]
    exact congrArg some (Int.toNat_of_nonneg hn)
  · rename_i hn
    rw [String.toList_append]
    change (digits? (-n).toNat.repr.toList).map (fun n => -(n : Int)) = some n
    rw [digits?_repr]
    have hneg : -((-n).toNat : Int) = n := by omega
    exact congrArg some hneg

theorem count?_toString (n : Nat) : count? (toString n).toList = some n := by
  rw [Nat.toString_eq_repr, count?_of_isDigit fun _ => isDigit_of_mem_repr, digits?_repr]

end Cadence.Text
