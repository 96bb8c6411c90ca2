import Cadence.Proofs.Queue.Answers
import Cadence.Proofs.Queue.Stored

/-!
The count of a ticket queue as its users can reckon with it. At every moment it is the room that is
given away and not yet given back, which the capacity bounds, and those who were refused and are on
their way out. A refused call leaves no trace but in the count. Once everybody is back the count is
the number of items that wait, so no room is ever lost.
-/

namespace Cadence.TicketQueue

variable {α : Type} {c : Capacity} {n : Nat}

namespace Enqueued

def isRejected : Enqueued α → Bool
  | rejected _ => true
  | _ => false

end Enqueued

def Producer.rejected (x : Producer α) : List (α × Enqueued α) := x.answers.filter (·.2.isRejected)

theorem standing_eq_zero (kind : Enqueue α → Bool) {producers : Vector (Producer α) n}
    (h : ∀ p, (producers.get p).call = none) : standing kind producers = 0 := by
  refine Vector.countP_eq_zero.2 fun x hx => ?_
  obtain ⟨i, hi, rfl⟩ := Vector.mem_iff_getElem.1 hx
  have hnone : (producers[i]).call = none := h ⟨i, hi⟩
  rw [hnone]
  exact Bool.false_ne_true

namespace Traffic

variable {t t' : Traffic α c n} {s : UInt64}

/-- The room that is given away and not yet given back. -/
def outstanding (t : Traffic α c n) : Nat :=
  t.drawn.length + standing Enqueue.isReserved t.producers - t.taken.length

def refusing (t : Traffic α c n) : Nat := standing Enqueue.isRefused t.producers

def unread (t : Traffic α c n) : List α := t.items.drop t.taken.length

structure Quiet (t : Traffic α c n) : Prop where
  producers : ∀ p, (t.producer p).call = none
  consumer : t.consumer = none

structure Reckoned (t : Traffic α c n) : Prop where
  count : t.queue.count.toNat = t.outstanding + t.refusing
  room : t.outstanding ≤ c.size
  rejecting : ∀ p item i, (t.producer p).call = some (item, .refused i) →
    0 < t.queue.count.toNat
  leaving : ∀ item, t.consumer = some (.advanced item) → 0 < t.queue.count.toNat
  asks : ∀ p item i, (t.producer p).call = some (item, .start i) →
    t.fire (.push p) = some { t.goOn p item
        (if c.size ≤ t.outstanding + t.refusing then .refused i else .reserved i) with
      queue := { t.queue with count := t.queue.count + 1 } }
  refused : ∀ p item i, (t.producer p).call = some (item, .refused i) →
    t.fire (.push p) = some { t.comeBack p item (.rejected ⟨item⟩) with
      queue := { t.queue with count := t.queue.count - 1 } }
  others : ∀ p item pc t', (t.producer p).call = some (item, pc) → pc.isRefused = false →
    t.fire (.push p) = some t' → (t'.producer p).rejected = (t.producer p).rejected
  quiet : t.Quiet → t.queue.count.toNat = t.unread.length ∧
    (t.queue.head - t.queue.tail).toNat = t.unread.length ∧ t.queue.len = t.unread.length ∧
      ∀ item, if t.unread.length < c.size then (t.queue.enqueue item).2 = .accepted
        else t.queue.enqueue item = (t.queue, .rejected ⟨item⟩)

theorem Accounted.toNat_count (h : Accounted t) (htaken : t.taken.length ≤ t.drawn.length) :
    t.queue.count.toNat = t.outstanding + t.refusing := by
  have hcount := h.count
  rw [outstanding, refusing]
  omega

theorem Orderly.length_taken_le (h : Orderly s t) : t.taken.length ≤ t.drawn.length :=
  Nat.le_trans (Nat.le_add_right _ _) h.released_le

/-- A call that stands before a step of a kind is one of those that do. -/
theorem standing_pos {kind : Enqueue α → Bool} {p : Fin n} {item : α} {pc : Enqueue α}
    (h : (t.producer p).call = some (item, pc)) (hkind : kind pc = true) :
    0 < standing kind t.producers := by
  refine Vector.countP_pos_iff.2 ⟨t.producers.get p, Vector.getElem_mem p.isLt, ?_⟩
  change (t.producer p).call.any _ = true
  rw [h]
  exact hkind

/-- Once nobody is in a call, what is drawn for and not taken is in the slots. -/
theorem Orderly.stores (h : Orderly s t) (hquiet : t.Quiet) :
    t.queue.Stores (position s t.taken.length) t.unread := by
  have hreserved := standing_eq_zero Enqueue.isReserved hquiet.producers
  have hrefused := standing_eq_zero Enqueue.isRefused hquiet.producers
  have hlength : t.unread.length = t.drawn.length - t.taken.length := by
    rw [unread, List.length_drop, length_items]
  have htaken := h.length_taken_le
  have hcount := h.accounted.count
  have hroom := h.accounted.room
  have hreleased : t.released = t.taken.length := by rw [released, hquiet.consumer]; rfl
  have hpassed : t.passed = t.taken.length := by rw [passed, hquiet.consumer]; rfl
  have hpending : ∀ k, ¬ Pending s t.calls k := by
    rintro k ⟨p, hp⟩
    have hcall : t.calls p = none := by
      change (t.producer p).call.map (·.2) = none
      rw [hquiet.producers p]
      rfl
    rw [hcall] at hp
    cases hp
  refine ⟨h.tail.trans (congrArg _ hpassed), ?_, ?_, by omega, ?_, ?_⟩
  · rw [h.head, position_position, hlength, Nat.add_sub_cancel' htaken]
  · rw [← UInt64.ofNat_toNat (x := t.queue.count)]
    congr 1
    omega
  · intro k item hk
    rw [unread, List.getElem?_drop, items, List.getElem?_map] at hk
    obtain ⟨⟨p, i⟩, hd, rfl⟩ := Option.map_eq_some_iff.1 hk
    rw [position_position]
    exact h.placed.full _ p i (by omega) hd (hpending _)
  · intro k hk hk'
    rw [position_position]
    exact h.placed.free _ (by omega) (by omega) (.inl (by omega))

theorem rejected_goOn (t : Traffic α c n) (p : Fin n) (item : α) (pc : Enqueue α) :
    ((t.goOn p item pc).producer p).rejected = (t.producer p).rejected := by
  rw [goOn, set, producer, get_replaceAt_self]
  rfl

theorem rejected_comeBack (t : Traffic α c n) (p : Fin n) (item : α) {answer : Enqueued α}
    (h : answer.isRejected = false) :
    ((t.comeBack p item answer).producer p).rejected = (t.producer p).rejected := by
  rw [comeBack, set, producer, get_replaceAt_self, Producer.rejected, List.filter_append,
    List.filter_cons_of_neg (by rw [h]; exact Bool.false_ne_true), List.filter_nil,
    List.append_nil]
  rfl

theorem rejected_of_push {p : Fin n} {item : α} {pc : Enqueue α}
    (here : (t.producer p).call = some (item, pc)) (hpc : pc.isRefused = false)
    (hfire : t.fire (.push p) = some t') :
    (t'.producer p).rejected = (t.producer p).rejected := by
  rw [fire, here] at hfire
  cases pc with
  | start i | reserved i | cleared i ticket =>
    cases hfire
    exact rejected_goOn ..
  | refused i => cases hpc
  | ticketed i ticket =>
    by_cases hfree : t.queue.sequence (c.slot ticket) = ticket
    · simp only [Enqueue.step, if_pos hfree, Option.some.injEq] at hfire
      rw [← hfire]
      exact rejected_goOn ..
    · simp only [Enqueue.step, if_neg hfree, Option.some.injEq] at hfire
      rw [← hfire]
      exact rejected_comeBack t p item rfl
  | filled ticket =>
    cases hfire
    exact rejected_comeBack t p item rfl

theorem reckoned_of_orderly (h : Orderly s t) (ha : Answered t) : Reckoned t := by
  have htaken := h.length_taken_le
  have hcount := h.accounted.toNat_count htaken
  refine ⟨hcount, ?_, ?_, ?_, ?_, ?_, fun _ _ _ _ => rejected_of_push, ?_⟩
  · have hroom := h.accounted.room
    rw [outstanding]
    omega
  · intro p item i here
    have hpos : 0 < t.refusing := standing_pos here rfl
    omega
  · intro item here
    have hleft := h.released_le
    rw [released, here] at hleft
    have hpos : 0 < t.outstanding := by
      rw [outstanding]
      exact Nat.sub_pos_of_lt (Nat.lt_of_lt_of_le hleft (Nat.le_add_right _ _))
    omega
  · intro p item i here
    rw [fire, here, ← hcount]
    rfl
  · intro p item i here
    obtain rfl : i = item := ha.carries p item _ here
    rw [fire, here]
    rfl
  · intro hquiet
    have hstores := h.stores hquiet
    refine ⟨hstores.toNat_count, hstores.toNat_head_sub_tail, hstores.len_eq, fun item => ?_⟩
    split
    · rename_i hroom
      obtain ⟨q', hq', -⟩ := hstores.enqueue_of_lt hroom item
      rw [hq']
    · rename_i hfull
      exact hstores.enqueue_of_full
        (Nat.le_antisymm hstores.length_le (Nat.le_of_not_lt hfull)) item

end Traffic

end Cadence.TicketQueue
