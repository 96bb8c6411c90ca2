import Cadence.Proofs.Position
import Cadence.Proofs.Queue.Traffic
import Mathlib.Logic.Function.Basic

/-!
Whose slot it is. Tickets are numbered without end; from the first one whose slot is not given back,
one capacity of them has slots of its own each. A ticket of that stretch is still to be drawn, or
held by the one producer that drew it, or published: its slot's sequence tells the last from the
first two, and holds the item only then. With a capacity of one, published and given back look alike,
and the number of the first ticket is what tells them apart.
-/

namespace Cadence.TicketQueue

variable {α : Type} {c : Capacity} {n : Nat}

namespace Enqueue

/-- The ticket that a call has drawn and not yet published. -/
def ticket? : Enqueue α → Option UInt64
  | ticketed _ ticket | cleared _ ticket | filled ticket => some ticket
  | _ => none

/-- How far a call has brought an item into its slot, given what is stored there. -/
def Brings (item stored : α) : Enqueue α → Prop
  | ticketed i _ | cleared i _ => i = item
  | filled _ => stored = item
  | _ => True

end Enqueue

def Pending (s : UInt64) (calls : Fin n → Option (Enqueue α)) (k : Nat) : Prop :=
  ∃ p, (calls p).bind Enqueue.ticket? = some (position s k)

/-- The slots agree with the tickets drawn, of which the first `released` have left theirs. -/
structure Placed (s : UInt64) (q : TicketQueue α c) (calls : Fin n → Option (Enqueue α))
    (drawn : List (Fin n × α)) (released : Nat) : Prop where
  held : ∀ p pc ticket, calls p = some pc → pc.ticket? = some ticket →
    ∃ k item, released ≤ k ∧ ticket = position s k ∧ drawn[k]? = some (p, item) ∧
      pc.Brings item (q.slots.get (c.slot (position s k))).item
  free : ∀ k, released ≤ k → k < released + c.size → drawn.length ≤ k ∨ Pending s calls k →
    q.sequence (c.slot (position s k)) = position s k
  full : ∀ k p item, released ≤ k → drawn[k]? = some (p, item) → ¬ Pending s calls k →
    q.sequence (c.slot (position s k)) = position s k + 1 ∧
      (q.slots.get (c.slot (position s k))).item = item

variable {s : UInt64} {q q' : TicketQueue α c} {calls : Fin n → Option (Enqueue α)}
  {drawn : List (Fin n × α)} {released : Nat}

theorem lt_of_drawn {k : Nat} {x : Fin n × α} (h : drawn[k]? = some x) : k < drawn.length :=
  (List.getElem?_eq_some_iff.1 h).1

theorem number_eq {j k : Nat} (hj : released ≤ j) (hj' : j ≤ released + c.size) (hk : released ≤ k)
    (hk' : k ≤ released + c.size) (h : position s j = position s k) : j = k := by
  have := c.size_lt
  exact position_inj (by omega) (by omega) h

theorem pending_of_call {p : Fin n} {pc : Enqueue α} {k : Nat} (hp : calls p = some pc)
    (hk : pc.ticket? = some (position s k)) : Pending s calls k :=
  ⟨p, by rw [hp]; exact hk⟩

/-- A call that holds no ticket does not matter for whether others do. -/
theorem pending_update {p : Fin n} {x : Option (Enqueue α)} {k : Nat}
    (h : (calls p).bind Enqueue.ticket? = x.bind Enqueue.ticket?) :
    Pending s (Function.update calls p x) k ↔ Pending s calls k := by
  refine exists_congr fun r => ?_
  by_cases hr : r = p
  · rw [hr, Function.update_self, h]
  · rw [Function.update_of_ne hr]

namespace Placed

theorem of_slots (h : Placed s q calls drawn released) (hq : q'.slots = q.slots) :
    Placed s q' calls drawn released := by
  have hs : ∀ i, q'.sequence i = q.sequence i := fun i => by rw [sequence, sequence, hq]
  refine ⟨?_, ?_, ?_⟩
  · rw [hq]
    exact h.held
  · intro k hk hk' hor
    rw [hs]
    exact h.free k hk hk' hor
  · intro k p item hk hd hp
    rw [hs, hq]
    exact h.full k p item hk hd hp

/-- A ticket belongs to whoever drew it. -/
theorem author (h : Placed s q calls drawn released) (hroom : drawn.length ≤ released + c.size)
    {p : Fin n} {pc : Enqueue α} {k : Nat} (hp : calls p = some pc)
    (ht : pc.ticket? = some (position s k)) (hk : released ≤ k) (hk' : k < drawn.length) :
    ∃ item, drawn[k]? = some (p, item) := by
  obtain ⟨j, item, hj, he, hd, -⟩ := h.held p pc _ hp ht
  have hjlt := lt_of_drawn hd
  obtain rfl : k = j := number_eq (c := c) hk (by omega) hj (by omega) he
  exact ⟨item, hd⟩

/-- A step of a call that changes neither its ticket nor its slot. -/
theorem remember (h : Placed s q calls drawn released) {p : Fin n} {x : Option (Enqueue α)}
    (ht : (calls p).bind Enqueue.ticket? = x.bind Enqueue.ticket?)
    (hb : ∀ pc ticket, x = some pc → pc.ticket? = some ticket → ∃ old, calls p = some old ∧
      old.ticket? = some ticket ∧ ∀ item stored, old.Brings item stored → pc.Brings item stored) :
    Placed s q (Function.update calls p x) drawn released := by
  refine ⟨?_, ?_, ?_⟩
  · intro r pc ticket hr hpc
    by_cases hrp : r = p
    · subst hrp
      rw [Function.update_self] at hr
      obtain ⟨old, hold, hticket, hbrings⟩ := hb pc ticket hr hpc
      obtain ⟨k, item, hk, he, hd, hbr⟩ := h.held r old ticket hold hticket
      exact ⟨k, item, hk, he, hd, hbrings _ _ hbr⟩
    · rw [Function.update_of_ne hrp] at hr
      exact h.held r pc ticket hr hpc
  · intro k hk hk' hor
    rw [pending_update ht] at hor
    exact h.free k hk hk' hor
  · intro k r item hk hd hp
    rw [pending_update ht] at hp
    exact h.full k r item hk hd hp

/-- A step of a call that holds no ticket before or after. -/
theorem remember_of_none (h : Placed s q calls drawn released) {p : Fin n} {x : Option (Enqueue α)}
    (hp : (calls p).bind Enqueue.ticket? = none) (hx : x.bind Enqueue.ticket? = none) :
    Placed s q (Function.update calls p x) drawn released := by
  refine h.remember (hp.trans hx.symm) fun pc ticket hpc ht => ?_
  subst hpc
  exact absurd (hx.symm.trans ht) (by simp)

/-- The next ticket is drawn. -/
theorem draw (h : Placed s q calls drawn released) {p : Fin n} {i : α}
    (hp : (calls p).bind Enqueue.ticket? = none) (hr : released ≤ drawn.length)
    (hroom : drawn.length < released + c.size) :
    Placed s q (Function.update calls p (some (.ticketed i (position s drawn.length))))
      (drawn ++ [(p, i)]) released := by
  have hold : ∀ {k : Nat}, Pending s calls k →
      Pending s (Function.update calls p (some (.ticketed i (position s drawn.length)))) k := by
    rintro k ⟨r, hr⟩
    have hrp : r ≠ p := fun e => by rw [e, hp] at hr; cases hr
    exact ⟨r, by rw [Function.update_of_ne hrp]; exact hr⟩
  refine ⟨?_, ?_, ?_⟩
  · intro r pc ticket hr' hpc
    by_cases hrp : r = p
    · subst hrp
      rw [Function.update_self] at hr'
      cases hr'
      cases hpc
      exact ⟨drawn.length, i, hr, rfl, List.getElem?_concat_length, rfl⟩
    · rw [Function.update_of_ne hrp] at hr'
      obtain ⟨k, item, hk, he, hd, hb⟩ := h.held r pc ticket hr' hpc
      exact ⟨k, item, hk, he, by rw [List.getElem?_append_left (lt_of_drawn hd), hd], hb⟩
  · intro k hk hk' hor
    refine h.free k hk hk' ?_
    rcases hor with hlen | ⟨r, hr'⟩
    · rw [List.length_append] at hlen
      exact .inl (by omega)
    · by_cases hrp : r = p
      · subst hrp
        rw [Function.update_self] at hr'
        exact .inl (Nat.le_of_eq (number_eq (c := c) hr (by omega) hk (by omega)
          (Option.some.inj hr')))
      · rw [Function.update_of_ne hrp] at hr'
        exact .inr ⟨r, hr'⟩
  · intro k r item hk hd hnp
    have hne : k ≠ drawn.length := by
      rintro rfl
      exact hnp ⟨p, by rw [Function.update_self]; rfl⟩
    have hlt := lt_of_drawn hd
    rw [List.length_append, List.length_singleton] at hlt
    rw [List.getElem?_append_left (by omega)] at hd
    exact h.full k r item hk hd fun hpend => hnp (hold hpend)

/-- The item is written into the slot. -/
theorem fill (h : Placed s q calls drawn released) (hroom : drawn.length ≤ released + c.size)
    {p : Fin n} {i : α} {ticket : UInt64} (hp : calls p = some (.cleared i ticket)) :
    Placed s (q.setItem (c.slot ticket) i) (Function.update calls p (some (.filled ticket)))
      drawn released := by
  obtain ⟨k, item, hk, rfl, hd, rfl⟩ := h.held p _ ticket hp rfl
  have hklt := lt_of_drawn hd
  have ht : (calls p).bind Enqueue.ticket? = (some (Enqueue.filled (α := α) (position s k))).bind
      Enqueue.ticket? := by rw [hp]; rfl
  refine ⟨?_, ?_, ?_⟩
  · intro r pc ticket hr hpc
    by_cases hrp : r = p
    · subst hrp
      rw [Function.update_self] at hr
      cases hr
      cases hpc
      exact ⟨k, i, hk, rfl, hd, item_setItem_self ..⟩
    · rw [Function.update_of_ne hrp] at hr
      obtain ⟨j, item, hj, he, hdj, hb⟩ := h.held r pc ticket hr hpc
      -- Another ticket, since another producer drew it.
      have hjk : j ≠ k := by
        rintro rfl
        rw [hd] at hdj
        cases hdj
        exact hrp rfl
      have hjlt := lt_of_drawn hdj
      refine ⟨j, item, hj, he, hdj, ?_⟩
      rw [item_setItem_of_ne _ _ (Capacity.slot_position_ne hj (by omega) hk (by omega) hjk)]
      exact hb
  · intro j hj hj' hor
    rw [pending_update ht] at hor
    rw [sequence_setItem]
    exact h.free j hj hj' hor
  · intro j r item hj hdj hnp
    rw [pending_update ht] at hnp
    have hjk : j ≠ k := by
      rintro rfl
      exact hnp (pending_of_call hp rfl)
    have hjlt := lt_of_drawn hdj
    rw [sequence_setItem, item_setItem_of_ne _ _
      (Capacity.slot_position_ne hj (by omega) hk (by omega) hjk)]
    exact h.full j r item hj hdj hnp

/-- The slot is published, and with it the call has no ticket any more. -/
theorem publish (h : Placed s q calls drawn released) (hroom : drawn.length ≤ released + c.size)
    {p : Fin n} {ticket : UInt64} (hp : calls p = some (.filled ticket)) :
    Placed s (q.setSequence (c.slot ticket) (ticket + 1)) (Function.update calls p none)
      drawn released := by
  obtain ⟨k, item, hk, rfl, hd, hstored⟩ := h.held p _ ticket hp rfl
  have hklt := lt_of_drawn hd
  have hold : ∀ {j : Nat}, Pending s (Function.update calls p none) j →
      Pending s calls j ∧ j ≠ k := by
    rintro j ⟨r, hr⟩
    by_cases hrp : r = p
    · rw [hrp, Function.update_self] at hr
      cases hr
    · rw [Function.update_of_ne hrp] at hr
      refine ⟨⟨r, hr⟩, ?_⟩
      rintro rfl
      obtain ⟨pc, hpc, hticket⟩ := Option.bind_eq_some_iff.1 hr
      obtain ⟨item', hd'⟩ := h.author hroom hpc hticket hk hklt
      rw [hd] at hd'
      cases hd'
      exact hrp rfl
  refine ⟨?_, ?_, ?_⟩
  · intro r pc ticket hr hpc
    by_cases hrp : r = p
    · rw [hrp, Function.update_self] at hr
      cases hr
    · rw [Function.update_of_ne hrp] at hr
      obtain ⟨j, item', hj, he, hdj, hb⟩ := h.held r pc ticket hr hpc
      exact ⟨j, item', hj, he, hdj, by rw [item_setSequence]; exact hb⟩
  · intro j hj hj' hor
    have hor' : (drawn.length ≤ j ∨ Pending s calls j) ∧ j ≠ k := by
      rcases hor with hlen | hpend
      · exact ⟨.inl hlen, by omega⟩
      · exact ⟨.inr (hold hpend).1, (hold hpend).2⟩
    rw [sequence_setSequence_of_ne _ _ (Capacity.slot_position_ne hj hj' hk (by omega) hor'.2)]
    exact h.free j hj hj' hor'.1
  · intro j r item' hj hdj hnp
    have hjlt := lt_of_drawn hdj
    rw [item_setSequence]
    by_cases hjk : j = k
    · subst hjk
      rw [hd] at hdj
      cases hdj
      exact ⟨sequence_setSequence_self .., hstored⟩
    · rw [sequence_setSequence_of_ne _ _
        (Capacity.slot_position_ne hj (by omega) hk (by omega) hjk)]
      refine h.full j r item' hj hdj ?_
      rintro ⟨r', hr'⟩
      by_cases hrp : r' = p
      · rw [hrp, hp] at hr'
        exact hjk (number_eq (c := c) hj (by omega) hk (by omega) (Option.some.inj hr').symm)
      · exact hnp ⟨r', by rw [Function.update_of_ne hrp]; exact hr'⟩

/-- The first slot is given back, and the stretch moves on by one. -/
theorem release (h : Placed s q calls drawn released) (hroom : drawn.length ≤ released + c.size)
    (hlt : released < drawn.length) (hnp : ¬ Pending s calls released) :
    Placed s (q.setSequence (c.slot (position s released)) (position s released + c.word)) calls
      drawn (released + 1) := by
  have hpos := c.size_pos
  refine ⟨?_, ?_, ?_⟩
  · intro p pc ticket hp hpc
    obtain ⟨k, item, hk, rfl, hd, hb⟩ := h.held p pc ticket hp hpc
    have hne : k ≠ released := by
      rintro rfl
      exact hnp (pending_of_call hp hpc)
    exact ⟨k, item, by omega, rfl, hd, by rw [item_setSequence]; exact hb⟩
  · intro k hk hk' hor
    by_cases hlast : k = released + c.size
    · subst hlast
      rw [Capacity.slot_position_add_size, sequence_setSequence_self,
        Capacity.position_add_word]
    · rw [sequence_setSequence_of_ne _ _
        (Capacity.slot_position_ne (by omega) (by omega) (Nat.le_refl released) (by omega)
          (by omega))]
      exact h.free k (by omega) (by omega) hor
  · intro k p item hk hd hnp'
    have hklt := lt_of_drawn hd
    rw [item_setSequence, sequence_setSequence_of_ne _ _
      (Capacity.slot_position_ne (by omega) (by omega) (Nat.le_refl released) (by omega)
        (by omega))]
    exact h.full k p item (by omega) hd hnp'

end Placed

end Cadence.TicketQueue
