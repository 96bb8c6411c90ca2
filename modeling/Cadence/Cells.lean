/-!
Fixed-size blocks of cells that are overwritten in place. A write that would leave the block
changes only the cells inside it, so the block keeps its size by construction.
-/

namespace Cadence

/-- The block with `items` laid over it from cell `start` on. -/
def overwrite {α : Type} {n : Nat} (cells : Vector α n) (start : Nat) (items : List α) :
    Vector α n :=
  let items := items.toArray
  cells.mapIdx fun i old => if start ≤ i then items.getD (i - start) old else old

theorem getElem?_overwrite {α : Type} {n : Nat} (cells : Vector α n) (start : Nat) (items : List α)
    (i : Nat) : (overwrite cells start items)[i]? =
      cells[i]?.map fun old => (if start ≤ i then items[i - start]? else none).getD old := by
  simp only [overwrite, Vector.getElem?_mapIdx, Array.getD_eq_getD_getElem?, List.getElem?_toArray]
  congr 1
  funext old
  split <;> rfl

/-- What is laid over a block follows what is in front of it. -/
theorem take_overwrite {α : Type} {n : Nat} (cells : Vector α n) {start : Nat} {items : List α}
    (h : start + items.length ≤ n) :
    (overwrite cells start items).toList.take (start + items.length) =
      cells.toList.take start ++ items := by
  have hstart : (cells.toList.take start).length = start := by
    rw [List.length_take, Vector.length_toList]
    omega
  refine List.ext_getElem? fun i => ?_
  rw [List.getElem?_take, List.getElem?_append, hstart, Vector.getElem?_toList, getElem?_overwrite,
    List.getElem?_take, Vector.getElem?_toList]
  by_cases hi : i < start
  · simp only [hi, ↓reduceIte, show i < start + items.length by omega, show ¬ start ≤ i by omega]
    exact Option.map_id'
  · by_cases hin : i < start + items.length
    · simp only [hi, hin, ↓reduceIte, show start ≤ i by omega]
      rw [Vector.getElem?_eq_getElem (by omega), List.getElem?_eq_getElem (by omega)]
      rfl
    · simp only [hi, hin, ↓reduceIte]
      exact (List.getElem?_eq_none (by omega)).symm

/-- What is behind what is laid over a block stays. -/
theorem drop_overwrite {α : Type} {n : Nat} (cells : Vector α n) (start : Nat) (items : List α) :
    (overwrite cells start items).toList.drop (start + items.length) =
      cells.toList.drop (start + items.length) := by
  refine List.ext_getElem? fun i => ?_
  rw [List.getElem?_drop, List.getElem?_drop, Vector.getElem?_toList, Vector.getElem?_toList,
    getElem?_overwrite, List.getElem?_eq_none (by omega), ite_self]
  exact Option.map_id'

theorem overwrite_nil {α : Type} {n : Nat} (cells : Vector α n) (start : Nat) :
    overwrite cells start [] = cells := by
  refine Vector.toList_inj.1 (List.ext_getElem? fun i => ?_)
  rw [Vector.getElem?_toList, Vector.getElem?_toList, getElem?_overwrite, List.getElem?_nil,
    ite_self]
  exact Option.map_id'

def replaceAt {α : Type} {n : Nat} (cells : Vector α n) (i : Fin n) (a : α) : Vector α n :=
  cells.set i a i.isLt

theorem get_replaceAt {α : Type} {n : Nat} (cells : Vector α n) (i j : Fin n) (a : α) :
    (replaceAt cells i a).get j = if j = i then a else cells.get j := by
  change (cells.set i a)[j.val] = if j = i then a else cells[j.val]
  rw [Vector.getElem_set]
  by_cases h : j = i
  · rw [if_pos h, if_pos (congrArg Fin.val h.symm)]
  · rw [if_neg h, if_neg fun e => h (Fin.ext e.symm)]

@[simp] theorem get_replaceAt_self {α : Type} {n : Nat} (cells : Vector α n) (i : Fin n) (a : α) :
    (replaceAt cells i a).get i = a := by
  rw [get_replaceAt, if_pos rfl]

theorem get_replaceAt_of_ne {α : Type} {n : Nat} (cells : Vector α n) {i j : Fin n} (a : α)
    (h : j ≠ i) : (replaceAt cells i a).get j = cells.get j := by
  rw [get_replaceAt, if_neg h]

/-- How a count over the cells changes with one of them. -/
theorem countP_replaceAt {α : Type} {n : Nat} (p : α → Bool) (cells : Vector α n) (i : Fin n)
    (a : α) : (replaceAt cells i a).countP p + (p (cells.get i)).toNat =
      cells.countP p + (p a).toNat := by
  have hle : (if p cells[i.val] then 1 else 0) ≤ cells.countP p :=
    Vector.boole_getElem_le_countP i.isLt
  change (cells.set i a).countP p + (p cells[i.val]).toNat = _
  rw [Vector.countP_set i.isLt]
  cases h : p cells[i.val] <;> cases p a <;>
    simp only [h, Bool.false_eq_true, ↓reduceIte, Bool.toNat_false, Bool.toNat_true] at hle ⊢ <;>
    omega

/-- A block that starts with `items` and is filled up with `blank`. -/
def blockOf {α : Type} (n : Nat) (blank : α) (items : List α) : Vector α n :=
  overwrite (Vector.replicate n blank) 0 items

end Cadence
