import Cadence.Proofs.Position
import Cadence.Proofs.Queue.Delivery

/-!
What a ticket queue stores, as a list, as long as nobody is on the way with an item. The sequences
of the slots from the tail up to the head tell that they are full, and those of the slots from there
on that they wait for the next tickets; the count then says no more than how long the list is.
-/

namespace Cadence.TicketQueue

variable {α : Type} {c : Capacity}

structure Stores (q : TicketQueue α c) (s : UInt64) (xs : List α) : Prop where
  tail : q.tail = s
  head : q.head = position s xs.length
  count : q.count = .ofNat xs.length
  length_le : xs.length ≤ c.size
  full : ∀ k item, xs[k]? = some item → q.sequence (c.slot (position s k)) = position s k + 1 ∧
    (q.slots.get (c.slot (position s k))).item = item
  free : ∀ k, xs.length ≤ k → k < c.size → q.sequence (c.slot (position s k)) = position s k

theorem EmptyAt.stores {q : TicketQueue α c} {s : UInt64} (h : q.EmptyAt s) : q.Stores s [] := by
  refine ⟨h.tail, h.head.trans (position_zero s).symm, h.count, Nat.zero_le _, ?_, ?_⟩
  · intro k item hx
    cases hx
  · intro k _ hk
    exact h.slots k hk

namespace Stores

variable {q : TicketQueue α c} {s : UInt64} {xs : List α}

theorem toNat_count (h : q.Stores s xs) : q.count.toNat = xs.length := by
  rw [h.count, UInt64.toNat_ofNat']
  exact Nat.mod_eq_of_lt (Nat.lt_of_le_of_lt h.length_le c.size_lt)

theorem len_eq (h : q.Stores s xs) : q.len = xs.length := by
  rw [len, h.toNat_count]
  exact Nat.min_eq_left h.length_le

theorem toNat_head_sub_tail (h : q.Stores s xs) : (q.head - q.tail).toNat = xs.length := by
  rw [h.head, h.tail]
  exact toNat_position_sub (Nat.lt_of_le_of_lt h.length_le c.size_lt)

theorem slot_ne_of_lt {j k : Nat} (hj : j < c.size) (hk : k < c.size) (h : j ≠ k) :
    c.slot (position s j) ≠ c.slot (position s k) :=
  Capacity.slot_position_ne (Nat.zero_le j) (by omega) (Nat.zero_le k) (by omega) h

/-- An item is put under the ticket at the head, published, and counted. -/
theorem put (h : q.Stores s xs) (hroom : xs.length < c.size) (item : α) {q' : TicketQueue α c}
    (htail : q'.tail = q.tail) (hhead : q'.head = q.head + 1) (hcount : q'.count = q.count + 1)
    (hslots : q'.slots = ((q.setItem (c.slot q.head) item).setSequence (c.slot q.head)
      (q.head + 1)).slots) : q'.Stores s (xs ++ [item]) := by
  have hsequence : ∀ i, q'.sequence i = ((q.setItem (c.slot q.head) item).setSequence
      (c.slot q.head) (q.head + 1)).sequence i := fun i => by rw [sequence, sequence, hslots]
  rw [h.head] at hslots hsequence
  refine ⟨htail.trans h.tail, ?_, ?_, ?_, ?_, ?_⟩
  · rw [hhead, h.head, List.length_append, List.length_singleton, position_succ]
  · rw [hcount, h.count, List.length_append, List.length_singleton, UInt64.ofNat_add]
    rfl
  · rw [List.length_append]
    exact hroom
  · intro k x hx
    rw [hsequence, hslots, item_setSequence]
    rcases Nat.lt_or_ge k xs.length with hk | hk
    · rw [List.getElem?_append_left hk] at hx
      have hne := slot_ne_of_lt (s := s) (by omega) hroom (Nat.ne_of_lt hk)
      rw [sequence_setSequence_of_ne _ _ hne, sequence_setItem, item_setItem_of_ne _ _ hne]
      exact h.full k x hx
    · have hlt := (List.getElem?_eq_some_iff.1 hx).1
      rw [List.length_append, List.length_singleton] at hlt
      obtain rfl : k = xs.length := by omega
      rw [List.getElem?_concat_length] at hx
      cases hx
      exact ⟨sequence_setSequence_self .., item_setItem_self ..⟩
  · intro k hk hk'
    rw [List.length_append, List.length_singleton] at hk
    rw [hsequence, sequence_setSequence_of_ne _ _ (slot_ne_of_lt hk' hroom (by omega)),
      sequence_setItem]
    exact h.free k (by omega) hk'

/-- The slot at the tail is given to the next lap, and its item is not counted any more. -/
theorem take {x : α} (h : q.Stores s (x :: xs)) {q' : TicketQueue α c}
    (htail : q'.tail = q.tail + 1) (hhead : q'.head = q.head) (hcount : q'.count = q.count - 1)
    (hslots : q'.slots = (q.setSequence (c.slot q.tail) (q.tail + c.word)).slots) :
    q'.Stores (s + 1) xs := by
  have hsequence : ∀ i, q'.sequence i =
      (q.setSequence (c.slot q.tail) (q.tail + c.word)).sequence i :=
    fun i => by rw [sequence, sequence, hslots]
  have hpos := c.size_pos
  have hlen : xs.length + 1 ≤ c.size := h.length_le
  have hzero : q.tail = position s 0 := h.tail.trans (position_zero s).symm
  rw [hzero] at hslots hsequence
  refine ⟨by rw [htail, h.tail], ?_, ?_, Nat.le_of_succ_le h.length_le, ?_, ?_⟩
  · rw [hhead, h.head, List.length_cons, position_add_one]
  · rw [hcount, h.count, List.length_cons, UInt64.ofNat_add]
    exact UInt64.add_sub_cancel _ _
  · intro k y hy
    have hk := (List.getElem?_eq_some_iff.1 hy).1
    rw [position_add_one, hsequence, hslots, item_setSequence,
      sequence_setSequence_of_ne _ _ (slot_ne_of_lt (by omega) hpos (Nat.succ_ne_zero k))]
    exact h.full (k + 1) y hy
  · intro k hk hk'
    rw [position_add_one, hsequence]
    rcases Nat.lt_or_ge (k + 1) c.size with hlt | hge
    · rw [sequence_setSequence_of_ne _ _ (slot_ne_of_lt hlt hpos (Nat.succ_ne_zero k))]
      exact h.free (k + 1) (Nat.succ_le_succ hk) hlt
    · have hlast : k + 1 = 0 + c.size := by omega
      rw [hlast, Capacity.slot_position_add_size, sequence_setSequence_self,
        Capacity.position_add_word]

/-! Alone, nothing happens between the steps of a call. -/

theorem enqueue_of_lt (h : q.Stores s xs) (hroom : xs.length < c.size) (item : α) :
    ∃ q', q.enqueue item = (q', .accepted) ∧ q'.Stores s (xs ++ [item]) := by
  have hcount : ¬ q.count.toNat ≥ c.size := by
    rw [h.toNat_count]
    omega
  have hadmit : Enqueue.call.step q (.start item) =
      ({ q with count := q.count + 1 }, .more (.reserved item)) := by
    simp only [Enqueue.call, Enqueue.step, if_neg hcount]
  have hsequence : q.sequence (c.slot q.head) = q.head := by
    rw [h.head]
    exact h.free _ (Nat.le_refl _) hroom
  have hfree : Enqueue.call.step { q with count := q.count + 1, head := q.head + 1 }
      (.ticketed item q.head) = (_, .more (.cleared item q.head)) :=
    congrArg (Prod.mk _) (if_pos hsequence)
  have hrun : q.enqueue item =
      (({ q with count := q.count + 1, head := q.head + 1 }.setItem (c.slot q.head)
        item).setSequence (c.slot q.head) (q.head + 1), .accepted) := by
    rw [enqueue, Procedure.run_of_more hadmit, Procedure.run_of_more rfl,
      Procedure.run_of_more hfree, Procedure.run_of_more rfl, Procedure.run_of_back rfl]
  exact ⟨_, hrun, h.put hroom item rfl rfl rfl rfl⟩

theorem enqueue_of_full (h : q.Stores s xs) (hfull : xs.length = c.size) (item : α) :
    q.enqueue item = (q, .rejected ⟨item⟩) := by
  have hcount : q.count.toNat ≥ c.size := by
    rw [h.toNat_count]
    omega
  have hrefuse : Enqueue.call.step q (.start item) =
      ({ q with count := q.count + 1 }, .more (.refused item)) := by
    simp only [Enqueue.call, Enqueue.step, if_pos hcount]
  rw [enqueue, Procedure.run_of_more hrefuse, Procedure.run_of_back rfl]
  simp only [UInt64.add_sub_cancel]

theorem dequeue_of_nil (h : q.Stores s []) : q.dequeue = (q, .error .empty) := by
  have hsequence : ¬ q.sequence (c.slot q.tail) = q.tail + 1 := by
    have hfree := h.free 0 (Nat.le_refl _) c.size_pos
    rw [h.tail, ← position_zero s, hfree]
    exact position_ne_succ s 0
  have hempty : Dequeue.call.step q (.positioned q.tail) = (q, .back (.error .empty)) := by
    simp only [Dequeue.call, Dequeue.step, if_neg hsequence]
  rw [dequeue, Procedure.run_of_more rfl, Procedure.run_of_back hempty]

theorem dequeue_of_cons {x : α} (h : q.Stores s (x :: xs)) :
    ∃ q', q.dequeue = (q', .ok x) ∧ q'.Stores (s + 1) xs := by
  obtain ⟨hfull, hitem⟩ := h.full 0 x rfl
  rw [position_zero, ← h.tail] at hfull hitem
  have hadmit : Dequeue.call.step q (.positioned q.tail) = (q, .more (.admitted q.tail)) := by
    simp only [Dequeue.call, Dequeue.step, if_pos hfull]
  have hrun : q.dequeue = ({ q.setSequence (c.slot q.tail) (q.tail + c.word) with
      tail := q.tail + 1
      count := q.count - 1 }, .ok (q.slots.get (c.slot q.tail)).item) := by
    rw [dequeue, Procedure.run_of_more rfl, Procedure.run_of_more hadmit,
      Procedure.run_of_more rfl, Procedure.run_of_more rfl, Procedure.run_of_more rfl,
      Procedure.run_of_back rfl]
    rfl
  rw [hitem] at hrun
  exact ⟨_, hrun, h.take rfl rfl rfl rfl⟩

end Stores

end Cadence.TicketQueue
