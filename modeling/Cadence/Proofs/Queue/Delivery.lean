import Cadence.Proofs.Queue.Room
import Cadence.Proofs.Queue.Tickets

/-!
Tickets in, items out. However the steps of producers and consumer interleave, nobody meets anybody
in a slot, the consumer sees only what is completely there, and what it takes is what was drawn for,
in the order of the tickets.
-/

namespace Cadence.TicketQueue

variable {α : Type} {c : Capacity} {n : Nat}

/-- Nobody is in the queue, and the tickets from `s` on find their slots free. -/
structure EmptyAt (q : TicketQueue α c) (s : UInt64) : Prop where
  head : q.head = s
  tail : q.tail = s
  count : q.count = 0
  slots : ∀ k < c.size, q.sequence (c.slot (position s k)) = position s k

namespace Enqueue

def Carries (item : α) : Enqueue α → Prop
  | start i | refused i | reserved i | ticketed i _ | cleared i _ => i = item
  | filled _ => True

end Enqueue

namespace Enqueued

def isAccepted : Enqueued α → Bool
  | accepted => true
  | _ => false

end Enqueued

namespace Producer

def accepted (x : Producer α) : List α := (x.answers.filter (·.2.isAccepted)).map (·.1)

/-- The item of a call that has drawn a ticket for it and not yet published it. -/
def underway (x : Producer α) : List α :=
  match x.call with
  | some (item, pc) => if pc.ticket?.isSome then [item] else []
  | none => []

end Producer

namespace Dequeue

/-- The slot that the consumer has found published and not yet given back. -/
def claim? : Dequeue α → Option UInt64
  | admitted ticket | copied ticket _ => some ticket
  | _ => none

def item? : Dequeue α → Option α
  | copied _ item | released _ item | advanced item => some item
  | _ => none

/-- Where the consumer stands on its way through the `k`-th ticket. -/
def Stands (s : UInt64) (k : Nat) (ready : Prop) (item? : Option α) : Dequeue α → Prop
  | start => True
  | positioned ticket => ticket = position s k
  | admitted ticket => ticket = position s k ∧ ready
  | copied ticket item => ticket = position s k ∧ ready ∧ item? = some item
  | released ticket item => ticket = position s k ∧ item? = some item
  | advanced item => item? = some item

theorem Stands.mono {s : UInt64} {k : Nat} {ready ready' : Prop} {item? item?' : Option α}
    {pc : Dequeue α} (h : pc.Stands s k ready item?) (hready : ready → ready')
    (hitem : ∀ i, item? = some i → item?' = some i) : pc.Stands s k ready' item?' := by
  cases pc with
  | start => trivial
  | positioned ticket => exact h
  | admitted ticket => exact ⟨h.1, hready h.2⟩
  | copied ticket item => exact ⟨h.1, hready h.2.1, hitem _ h.2.2⟩
  | released ticket item => exact ⟨h.1, hitem _ h.2⟩
  | advanced item => exact hitem _ h

end Dequeue

namespace Traffic

variable {t t' : Traffic α c n} {s : UInt64}

def calls (t : Traffic α c n) (p : Fin n) : Option (Enqueue α) :=
  (t.producers.get p).call.map (·.2)

theorem calls_of_call {p : Fin n} {item : α} {pc : Enqueue α}
    (h : (t.producer p).call = some (item, pc)) : t.calls p = some pc := by
  change (t.producer p).call.map (·.2) = some pc
  rw [h]
  rfl

theorem calls_goOn (t : Traffic α c n) (p : Fin n) (item : α) (pc : Enqueue α) :
    (t.goOn p item pc).calls = Function.update t.calls p (some pc) := by
  funext r
  change ((replaceAt t.producers p _).get r).call.map (·.2) = _
  by_cases h : r = p
  · subst h
    rw [get_replaceAt_self, Function.update_self]
    rfl
  · rw [get_replaceAt_of_ne _ _ h, Function.update_of_ne h]
    rfl

theorem calls_comeBack (t : Traffic α c n) (p : Fin n) (item : α) (answer : Enqueued α) :
    (t.comeBack p item answer).calls = Function.update t.calls p none := by
  funext r
  change ((replaceAt t.producers p _).get r).call.map (·.2) = _
  by_cases h : r = p
  · subst h
    rw [get_replaceAt_self, Function.update_self]
    rfl
  · rw [get_replaceAt_of_ne _ _ h, Function.update_of_ne h]
    rfl

def Ready (s : UInt64) (t : Traffic α c n) : Prop :=
  t.taken.length < t.drawn.length ∧ ¬ Pending s t.calls t.taken.length

def items (t : Traffic α c n) : List α := t.drawn.map (·.2)

theorem length_items (t : Traffic α c n) : t.items.length = t.drawn.length := List.length_map _

structure Orderly (s : UInt64) (t : Traffic α c n) : Prop where
  head : t.queue.head = position s t.drawn.length
  tail : t.queue.tail = position s t.passed
  accounted : Accounted t
  placed : Placed s t.queue t.calls t.drawn t.released
  consumer : ∀ pc, t.consumer = some pc →
    pc.Stands s t.taken.length (Ready s t) t.items[t.taken.length]?
  taken : t.taken <+: t.items

theorem orderly_start {q : TicketQueue α c} (h : q.EmptyAt s) : Orderly s (start n q) := by
  have hcalls : ∀ p, (start n q).calls p = none := fun p => by
    change ((Vector.replicate n (_ : Producer α))[p.val]).call.map (·.2) = none
    rw [Vector.getElem_replicate]
    rfl
  refine ⟨?_, ?_, accounted_start h.count, ⟨?_, ?_, ?_⟩, ?_, List.nil_prefix⟩
  · exact h.head.trans (position_zero s).symm
  · exact h.tail.trans (position_zero s).symm
  · intro p pc ticket hp
    rw [hcalls] at hp
    cases hp
  · intro k _ hk _
    exact h.slots k (by simpa [released, start] using hk)
  · intro k p item _ hd
    cases hd
  · intro pc hpc
    cases hpc

theorem Orderly.released_le (h : Orderly s t) : t.released ≤ t.drawn.length := by
  have hle : t.taken.length ≤ t.drawn.length := t.length_items ▸ h.taken.length_le
  have hlt : ∀ item, t.items[t.taken.length]? = some item → t.taken.length + 1 ≤ t.drawn.length :=
    fun item hi => t.length_items ▸ (List.getElem?_eq_some_iff.1 hi).1
  rw [released]
  cases hc : t.consumer with
  | none => exact hle
  | some pc =>
    have hs := h.consumer pc hc
    cases pc with
    | released ticket item => exact hlt item hs.2
    | advanced item => exact hlt item hs
    | _ => exact hle

theorem Orderly.room (h : Orderly s t) : t.drawn.length ≤ t.released + c.size := by
  have := h.accounted.room
  have : t.taken.length ≤ t.released := Nat.le_add_right _ _
  omega

/-- A step of a producer, which leaves the consumer where it is. -/
theorem Orderly.of_producer (h : Orderly s t) {p : Fin n} {x : Option (Enqueue α)}
    (hcalls : t'.calls = Function.update t.calls p x) (haccounted : Accounted t')
    (hconsumer : t'.consumer = t.consumer) (htaken : t'.taken = t.taken)
    (htail : t'.queue.tail = t.queue.tail)
    (hhead : t'.queue.head = position s t'.drawn.length) (hitems : t.items <+: t'.items)
    (hpending : t.taken.length < t.drawn.length →
      Pending s (Function.update t.calls p x) t.taken.length → Pending s t.calls t.taken.length)
    (hplaced : Placed s t'.queue (Function.update t.calls p x) t'.drawn t.released) :
    Orderly s t' := by
  have hlen : t.drawn.length ≤ t'.drawn.length := by
    rw [← length_items, ← length_items]
    exact hitems.length_le
  refine ⟨hhead, ?_, haccounted, ?_, ?_, ?_⟩
  · rw [htail, passed, hconsumer, htaken]
    exact h.tail
  · rw [released, hconsumer, htaken, hcalls]
    exact hplaced
  · intro pc hpc
    rw [hconsumer] at hpc
    rw [htaken]
    refine (h.consumer pc hpc).mono ?_ ?_
    · rintro ⟨hlt, hnp⟩
      rw [Ready, htaken, hcalls]
      exact ⟨Nat.lt_of_lt_of_le hlt hlen, fun hp => hnp (hpending hlt hp)⟩
    · intro i hi
      obtain ⟨rest, hrest⟩ := hitems
      rw [← hrest, List.getElem?_append_left (List.getElem?_eq_some_iff.1 hi).1]
      exact hi
  · rw [htaken]
    exact h.taken.trans hitems

/-- Such a step without a ticket. -/
theorem Orderly.of_none (h : Orderly s t) {p : Fin n} {x : Option (Enqueue α)}
    (hcalls : t'.calls = Function.update t.calls p x)
    (hp : (t.calls p).bind Enqueue.ticket? = none) (hx : x.bind Enqueue.ticket? = none)
    (haccounted : Accounted t') (hconsumer : t'.consumer = t.consumer)
    (htaken : t'.taken = t.taken) (hdrawn : t'.drawn = t.drawn)
    (htail : t'.queue.tail = t.queue.tail) (hhead : t'.queue.head = t.queue.head)
    (hslots : t'.queue.slots = t.queue.slots) : Orderly s t' := by
  refine h.of_producer hcalls haccounted hconsumer htaken htail ?_ ?_ ?_ ?_
  · rw [hhead, hdrawn]
    exact h.head
  · have hitems : t'.items = t.items := by rw [items, items, hdrawn]
    exact hitems ▸ List.prefix_refl _
  · exact fun _ => (pending_update (hp.trans hx.symm)).1
  · rw [hdrawn]
    exact (h.placed.remember_of_none hp hx).of_slots hslots

/-- A producer that reaches its slot finds it free. -/
theorem Orderly.sequence_eq (h : Orderly s t) {p : Fin n} {pc : Enqueue α} {ticket : UInt64}
    (hp : t.calls p = some pc) (ht : pc.ticket? = some ticket) :
    t.queue.sequence (c.slot ticket) = ticket := by
  obtain ⟨k, item, hk, rfl, hd, -⟩ := h.placed.held p pc ticket hp ht
  have hlt := lt_of_drawn hd
  have hroom := h.room
  exact h.placed.free k hk (by omega) (.inr (pending_of_call hp ht))

/-- The consumer finds a slot published only if its ticket is. -/
theorem Orderly.ready (h : Orderly s t) (hr : t.released = t.taken.length)
    (hfull : t.queue.sequence (c.slot (position s t.taken.length)) =
      position s t.taken.length + 1) : Ready s t := by
  have hpos := c.size_pos
  have hfree := h.placed.free t.taken.length (Nat.le_of_eq hr) (by omega)
  by_contra hn
  refine position_ne_succ s t.taken.length ((hfree ?_).symm.trans hfull)
  by_cases hlt : t.taken.length < t.drawn.length
  · exact .inr (by_contra fun hp => hn ⟨hlt, hp⟩)
  · exact .inl (Nat.le_of_not_lt hlt)

/-- A step of the consumer that looks and does not touch. -/
theorem Orderly.of_look (h : Orderly s t) {x : Option (Dequeue α)}
    (hreleased : x.any Dequeue.hasReleased = t.consumer.any Dequeue.hasReleased)
    (hadvanced : x.any Dequeue.hasAdvanced = t.consumer.any Dequeue.hasAdvanced)
    (hstands : ∀ pc, x = some pc →
      pc.Stands s t.taken.length (Ready s t) t.items[t.taken.length]?) :
    Orderly s { t with consumer := x } := by
  have hr : released { t with consumer := x } = t.released := by
    rw [released, released, hreleased]
  have hp : passed { t with consumer := x } = t.passed := by rw [passed, passed, hadvanced]
  refine ⟨h.head, ?_, ⟨h.accounted.count, h.accounted.room⟩, ?_, hstands, h.taken⟩
  · rw [hp]
    exact h.tail
  · rw [hr]
    exact h.placed

/-- The next ticket is drawn, which nobody holds yet. -/
theorem Orderly.draw (h : Orderly s t) {p : Fin n} {i : α}
    (hp : (t.calls p).bind Enqueue.ticket? = none)
    (hcalls : t'.calls = Function.update t.calls p (some (.ticketed i t.queue.head)))
    (hacc : Accounted t') (hconsumer : t'.consumer = t.consumer) (htaken : t'.taken = t.taken)
    (hdrawn : t'.drawn = t.drawn ++ [(p, i)]) (htail : t'.queue.tail = t.queue.tail)
    (hhead : t'.queue.head = t.queue.head + 1) (hslots : t'.queue.slots = t.queue.slots) :
    Orderly s t' := by
  have hreleased : t.taken.length ≤ t.released := Nat.le_add_right _ _
  have hroom : t.drawn.length + 1 ≤ t.taken.length + c.size := by
    have hroom := hacc.room
    rw [hdrawn, htaken, List.length_append, List.length_singleton] at hroom
    omega
  rw [h.head] at hcalls
  have hplaced := h.placed.draw (i := i) hp h.released_le (by omega)
  rw [← hdrawn] at hplaced
  refine h.of_producer hcalls hacc hconsumer htaken htail ?_ ?_ ?_ (hplaced.of_slots hslots)
  · rw [hhead, h.head, hdrawn, List.length_append, List.length_singleton, position_succ]
  · exact ⟨[i], by rw [items, items, hdrawn, List.map_append]; rfl⟩
  · rintro hlt ⟨r, hr⟩
    by_cases hrp : r = p
    · -- the new ticket is not the one that the consumer comes to next
      rw [hrp, Function.update_self] at hr
      have := number_eq (c := c) (Nat.le_of_lt hlt) (by omega) (Nat.le_refl t.taken.length)
        (by omega) (Option.some.inj hr)
      omega
    · rw [Function.update_of_ne hrp] at hr
      exact ⟨r, hr⟩

/-- The consumer comes back with what the next ticket was drawn for. -/
theorem Orderly.leave (h : Orderly s t) {item : α} (here : t.consumer = some (.advanced item))
    (hcalls : t'.calls = t.calls) (hacc : Accounted t') (hconsumer : t'.consumer = none)
    (htaken : t'.taken = t.taken ++ [item]) (hdrawn : t'.drawn = t.drawn)
    (htail : t'.queue.tail = t.queue.tail) (hhead : t'.queue.head = t.queue.head)
    (hslots : t'.queue.slots = t.queue.slots) : Orderly s t' := by
  have hitem := h.consumer _ here
  have hreleased : t'.released = t.released := by
    rw [released, released, hconsumer, here, htaken, List.length_append]
    rfl
  have hpassed : t'.passed = t.passed := by
    rw [passed, passed, hconsumer, here, htaken, List.length_append]
    rfl
  refine ⟨?_, ?_, hacc, ?_, ?_, ?_⟩
  · rw [hhead, hdrawn]
    exact h.head
  · rw [htail, hpassed]
    exact h.tail
  · rw [hreleased, hcalls, hdrawn]
    exact h.placed.of_slots hslots
  · intro pc hpc
    rw [hconsumer] at hpc
    cases hpc
  · obtain ⟨rest, hrest⟩ := h.taken
    rw [← hrest, List.getElem?_append_right (Nat.le_refl _), Nat.sub_self] at hitem
    rw [htaken, items, hdrawn]
    cases rest with
    | nil => cases hitem
    | cons i rest =>
      cases hitem
      exact ⟨rest, by rw [List.append_assoc]; exact hrest⟩

theorem orderly_turn (hn : n + c.size < UInt64.size) (h : Orderly s t) (turn : Turn t t') :
    Orderly s t' := by
  have hacc := accounted_turn hn h.accounted h.released_le turn
  cases turn with
  | offer p item idle =>
    have hp : t.calls p = none := by
      change (t.producer p).call.map (·.2) = none
      rw [idle]
      rfl
    exact h.of_none (calls_goOn t p item _) (by rw [hp]; rfl) rfl hacc rfl rfl rfl rfl rfl rfl
  | refuse p item i here | reserve p item i here =>
    exact h.of_none (calls_goOn t p item _) (by rw [calls_of_call here]; rfl) rfl hacc rfl rfl rfl
      rfl rfl rfl
  | reject p item i here =>
    exact h.of_none (calls_comeBack t p item _) (by rw [calls_of_call here]; rfl) rfl hacc rfl rfl
      rfl rfl rfl rfl
  | draw p item i here =>
    have hp : (t.calls p).bind Enqueue.ticket? = none := by rw [calls_of_call here]; rfl
    exact h.draw hp (calls_goOn t p item _) hacc rfl rfl rfl rfl rfl rfl
  | clear p item i ticket here free =>
    have hp := calls_of_call here
    have ht : (t.calls p).bind Enqueue.ticket? = (some (Enqueue.cleared i ticket)).bind
        Enqueue.ticket? := by rw [hp]; rfl
    refine h.of_producer (calls_goOn t p item _) hacc rfl rfl rfl h.head (List.prefix_refl _)
      (fun _ => (pending_update ht).1) (h.placed.remember ht ?_)
    rintro pc w ⟨⟩ ⟨⟩
    exact ⟨_, hp, rfl, fun _ _ hb => hb⟩
  | clash p item i ticket here taken =>
    exact absurd (h.sequence_eq (calls_of_call here) rfl) taken
  | fill p item i ticket here =>
    have hp := calls_of_call here
    have ht : (t.calls p).bind Enqueue.ticket? = (some (Enqueue.filled (α := α) ticket)).bind
        Enqueue.ticket? := by rw [hp]; rfl
    exact h.of_producer (calls_goOn t p item _) hacc rfl rfl rfl h.head (List.prefix_refl _)
      (fun _ => (pending_update ht).1) (h.placed.fill h.room hp)
  | publish p item ticket here =>
    have hp := calls_of_call here
    refine h.of_producer (calls_comeBack t p item _) hacc rfl rfl rfl h.head (List.prefix_refl _)
      ?_ (h.placed.publish h.room hp)
    rintro - ⟨r, hr⟩
    by_cases hrp : r = p
    · rw [hrp, Function.update_self] at hr
      cases hr
    · rw [Function.update_of_ne hrp] at hr
      exact ⟨r, hr⟩
  | ask idle =>
    exact h.of_look (by rw [idle]; rfl) (by rw [idle]; rfl) fun pc hpc => by cases hpc; trivial
  | locate here =>
    refine h.of_look (by rw [here]; rfl) (by rw [here]; rfl) fun pc hpc => ?_
    cases hpc
    have htail := h.tail
    rw [passed, here] at htail
    exact htail
  | enter ticket here full =>
    refine h.of_look (by rw [here]; rfl) (by rw [here]; rfl) fun pc hpc => ?_
    cases hpc
    obtain rfl : ticket = position s t.taken.length := h.consumer _ here
    exact ⟨rfl, h.ready (by rw [released, here]; rfl) full⟩
  | dismiss ticket here empty =>
    exact h.of_look (by rw [here]; rfl) (by rw [here]; rfl) fun pc hpc => by cases hpc
  | copy ticket here =>
    refine h.of_look (by rw [here]; rfl) (by rw [here]; rfl) fun pc hpc => ?_
    cases hpc
    obtain ⟨rfl, hready⟩ := h.consumer _ here
    refine ⟨rfl, hready, ?_⟩
    obtain ⟨⟨p, item⟩, hd⟩ : ∃ x, t.drawn[t.taken.length]? = some x :=
      ⟨_, List.getElem?_eq_getElem hready.1⟩
    have hr : t.released = t.taken.length := by rw [released, here]; rfl
    rw [(h.placed.full _ p item (Nat.le_of_eq hr) hd hready.2).2, items, List.getElem?_map, hd]
    rfl
  | release ticket item here =>
    obtain ⟨rfl, hready, hitem⟩ := h.consumer _ here
    have hr : t.released = t.taken.length := by rw [released, here]; rfl
    have hp : t.passed = t.taken.length := by rw [passed, here]; rfl
    rw [Ready, ← hr] at hready
    have hplaced := h.placed.release h.room hready.1 hready.2
    rw [hr] at hplaced
    refine ⟨h.head, ?_, hacc, hplaced, ?_, h.taken⟩
    · exact h.tail.trans (congrArg _ hp)
    · intro pc hpc
      cases hpc
      exact ⟨rfl, hitem⟩
  | advance ticket item here =>
    obtain ⟨rfl, hitem⟩ := h.consumer _ here
    have hr : t.released = t.taken.length + 1 := by rw [released, here]; rfl
    have hplaced := h.placed
    rw [hr] at hplaced
    refine ⟨h.head, (position_succ ..).symm, hacc, hplaced.of_slots rfl, ?_, h.taken⟩
    intro pc hpc
    cases hpc
    exact hitem
  | leave item here => exact h.leave here rfl hacc rfl rfl rfl rfl rfl rfl

end Traffic

end Cadence.TicketQueue
