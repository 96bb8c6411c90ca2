import Cadence.Proofs.Position
import Cadence.Ring

/-!
What a ring stores, as a list. The slots from the read cursor up to the write cursor hold it, oldest
first, wherever the cursors stand and whether they wrap on the way or not. A slot that is filled
beyond the write cursor stores nothing until the cursor has passed it.
-/

namespace Cadence.Ring

variable {α : Type} {c : Capacity}

structure Stores (r : Ring α c) (s : UInt64) (xs : List α) : Prop where
  read : r.read = s
  write : r.write = position s xs.length
  length_le : xs.length ≤ c.size
  slots : ∀ k item, xs[k]? = some item → r.slots.get (c.slot (position s k)) = item

theorem stores_nil {r : Ring α c} {s : UInt64} (hwrite : r.write = s) (hread : r.read = s) :
    r.Stores s [] := by
  refine ⟨hread, hwrite.trans (position_zero s).symm, Nat.zero_le _, ?_⟩
  intro k item h
  cases h

namespace Stores

variable {r : Ring α c} {s : UInt64} {xs : List α}

/-- The fill level, told from the cursors. -/
theorem toNat_write_sub_read (h : r.Stores s xs) : (r.write - r.read).toNat = xs.length := by
  rw [h.write, h.read]
  exact toNat_position_sub (Nat.lt_of_le_of_lt h.length_le c.size_lt)

theorem write_eq_read_iff (h : r.Stores s xs) : r.write = r.read ↔ xs = [] := by
  rw [← List.length_eq_zero_iff, ← h.toNat_write_sub_read]
  constructor
  · intro he
    rw [he, UInt64.sub_self]
    rfl
  · intro he
    have hzero : r.write - r.read = 0 := UInt64.toNat_inj.1 he
    rwa [UInt64.sub_eq_iff_eq_add, UInt64.zero_add] at hzero

theorem slot_ne {k : Nat} (h : r.Stores s xs) (hroom : xs.length < c.size) (hk : k < xs.length) :
    c.slot (position s k) ≠ c.slot r.write := by
  rw [h.write]
  intro he
  have := Capacity.slot_position_inj (by omega) (by omega) he
  omega

/-- The slot at the write cursor is nobody's but the producer's while there is room. -/
theorem fill (h : r.Stores s xs) (hroom : xs.length < c.size) (item : α) :
    Stores { r with slots := replaceAt r.slots (c.slot r.write) item } s xs := by
  refine ⟨h.read, h.write, h.length_le, ?_⟩
  intro k x hx
  have hk := (List.getElem?_eq_some_iff.1 hx).1
  exact (get_replaceAt_of_ne _ _ (h.slot_ne hroom hk)).trans (h.slots k x hx)

theorem append (h : r.Stores s xs) (hroom : xs.length < c.size) {item : α}
    (hitem : r.slots.get (c.slot r.write) = item) :
    Stores { r with write := r.write + 1 } s (xs ++ [item]) := by
  refine ⟨h.read, ?_, ?_, ?_⟩
  · rw [List.length_append, List.length_singleton, position_succ, ← h.write]
  · rw [List.length_append]
    exact hroom
  · intro k x hx
    rcases Nat.lt_or_ge k xs.length with hk | hk
    · rw [List.getElem?_append_left hk] at hx
      exact h.slots k x hx
    · have hlt := (List.getElem?_eq_some_iff.1 hx).1
      rw [List.length_append, List.length_singleton] at hlt
      obtain rfl : k = xs.length := by omega
      rw [List.getElem?_concat_length] at hx
      cases hx
      rw [← h.write]
      exact hitem

theorem first {x : α} (h : r.Stores s (x :: xs)) : r.slots.get (c.slot r.read) = x := by
  have hx := h.slots 0 x rfl
  rwa [position_zero, ← h.read] at hx

theorem tail {x : α} (h : r.Stores s (x :: xs)) :
    Stores { r with read := r.read + 1 } (s + 1) xs := by
  refine ⟨?_, ?_, Nat.le_of_succ_le h.length_le, ?_⟩
  · rw [← h.read]
  · exact h.write.trans (position_add_one s _).symm
  · intro k y hy
    rw [position_add_one]
    exact h.slots (k + 1) y hy

/-! Alone, nothing happens between the steps of a call. -/

theorem push_of_lt (h : r.Stores s xs) (hroom : xs.length < c.size) (item : α) :
    ∃ r', r.push item = (r', .ok ()) ∧ r'.Stores s (xs ++ [item]) := by
  have hlevel : ¬ (r.write - r.read).toNat ≥ c.size := by
    rw [h.toNat_write_sub_read]
    omega
  have hadmit : Push.call.step r (.positioned item r.write) =
      (r, .more (.admitted item r.write)) := by
    simp only [Push.call, Push.step, if_neg hlevel]
  have hrun : r.push item =
      ({ r with
        slots := replaceAt r.slots (c.slot r.write) item
        write := r.write + 1 }, .ok ()) := by
    rw [push, Procedure.run_of_more rfl, Procedure.run_of_more hadmit, Procedure.run_of_more rfl,
      Procedure.run_of_back rfl]
  exact ⟨_, hrun, (h.fill hroom item).append hroom (get_replaceAt_self ..)⟩

theorem push_of_full (h : r.Stores s xs) (hfull : xs.length = c.size) (item : α) :
    r.push item = (r, .error ⟨item⟩) := by
  have hlevel : (r.write - r.read).toNat ≥ c.size := by
    rw [h.toNat_write_sub_read]
    omega
  have hrefuse : Push.call.step r (.positioned item r.write) = (r, .back (.error ⟨item⟩)) := by
    simp only [Push.call, Push.step, if_pos hlevel]
  rw [push, Procedure.run_of_more rfl, Procedure.run_of_back hrefuse]

theorem pop_of_nil (h : r.Stores s []) : r.pop = (r, .error .empty) := by
  have hempty : Pop.call.step r (.positioned r.read) = (r, .back (.error .empty)) := by
    simp only [Pop.call, Pop.step, if_pos (h.write_eq_read_iff.2 rfl)]
  rw [pop, Procedure.run_of_more rfl, Procedure.run_of_back hempty]

theorem pop_of_cons {x : α} (h : r.Stores s (x :: xs)) :
    ∃ r', r.pop = (r', .ok x) ∧ r'.Stores (s + 1) xs := by
  have hne : ¬ r.write = r.read := by
    rw [h.write_eq_read_iff]
    exact List.cons_ne_nil _ _
  have hadmit : Pop.call.step r (.positioned r.read) = (r, .more (.admitted r.read)) := by
    simp only [Pop.call, Pop.step, if_neg hne]
  have hrun : r.pop = ({ r with read := r.read + 1 }, .ok (r.slots.get (c.slot r.read))) := by
    rw [pop, Procedure.run_of_more rfl, Procedure.run_of_more hadmit, Procedure.run_of_more rfl,
      Procedure.run_of_back rfl]
  rw [h.first] at hrun
  exact ⟨_, hrun, h.tail⟩

theorem len_eq (h : r.Stores s xs) : r.len = xs.length := by
  have hrun : r.len = min (r.write - r.read).toNat c.size := by
    rw [len, Procedure.run_of_more rfl, Procedure.run_of_back rfl]
  rw [hrun, h.toNat_write_sub_read]
  exact Nat.min_eq_left h.length_le

end Stores

def atTheWrap : Ring Nat .pair :=
  { write := 18446744073709551615, read := 18446744073709551615, slots := .replicate _ 0 }

end Cadence.Ring
