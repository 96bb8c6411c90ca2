import Cadence.Proofs.Queue.Delivery
import Cadence.Proofs.Run

/-!
What the users of a ticket queue can rely on. A refused item comes back to whoever offered it; the
accepted ones of each producer are drawn for in the order of its offers, each exactly once; and the
consumer takes what was drawn for, ticket by ticket. All of it holds at every moment of every
interleaving.
-/

namespace Cadence.TicketQueue.Traffic

variable {α : Type} {c : Capacity} {n : Nat} {t t' : Traffic α c n} {s : UInt64}

def drawnBy (t : Traffic α c n) (p : Fin n) : List α := (t.drawn.filter (·.1 = p)).map (·.2)

structure Answered (t : Traffic α c n) : Prop where
  carries : ∀ p item pc, (t.producer p).call = some (item, pc) → pc.Carries item
  answers : ∀ p item answer, (item, answer) ∈ (t.producer p).answers →
    answer = .accepted ∨ answer = .rejected ⟨item⟩
  authored : ∀ p, t.drawnBy p = (t.producer p).accepted ++ (t.producer p).underway

theorem answered_start (q : TicketQueue α c) : Answered (start n q) := by
  have hget : ∀ p, (start n q).producer p = {} := fun p => by
    change (Vector.replicate n (_ : Producer α))[p.val] = _
    rw [Vector.getElem_replicate]
  refine ⟨?_, ?_, ?_⟩
  · intro p item pc hp
    rw [hget] at hp
    cases hp
  · intro p item answer hmem
    rw [hget] at hmem
    cases hmem
  · intro p
    rw [hget]
    rfl

/-- A step of the producer `p`, after which its side of the matter is `x`. -/
theorem Answered.of_producer (h : Answered t) {p : Fin n} {x : Producer α}
    (hproducers : t'.producers = replaceAt t.producers p x)
    (hdrawn : ∀ r, r ≠ p → t'.drawnBy r = t.drawnBy r)
    (hcarries : ∀ item pc, x.call = some (item, pc) → pc.Carries item)
    (hanswers : ∀ item answer, (item, answer) ∈ x.answers →
      answer = .accepted ∨ answer = .rejected ⟨item⟩)
    (hauthored : t'.drawnBy p = x.accepted ++ x.underway) : Answered t' := by
  have hself : t'.producer p = x := by rw [producer, hproducers, get_replaceAt_self]
  have hother : ∀ r, r ≠ p → t'.producer r = t.producer r := fun r hr => by
    rw [producer, hproducers, get_replaceAt_of_ne _ _ hr, producer]
  refine ⟨fun r => ?_, fun r => ?_, fun r => ?_⟩ <;> by_cases hr : r = p
  · rw [hr, hself]
    exact hcarries
  · rw [hother r hr]
    exact h.carries r
  · rw [hr, hself]
    exact hanswers
  · rw [hother r hr]
    exact h.answers r
  · rw [hr, hself]
    exact hauthored
  · rw [hother r hr, hdrawn r hr]
    exact h.authored r

/-- A step that goes on with a call and draws nothing. -/
theorem Answered.of_goOn (h : Answered t) {p : Fin n} {item : α} {w : Enqueue α}
    (hproducers : t'.producers = (t.goOn p item w).producers) (hdrawn : t'.drawn = t.drawn)
    (hcarries : w.Carries item)
    (hunderway : (t.producer p).underway = if w.ticket?.isSome then [item] else []) :
    Answered t' := by
  refine h.of_producer (x := { t.producer p with call := some (item, w) }) hproducers ?_ ?_ ?_ ?_
  · intro r _
    rw [drawnBy, drawnBy, hdrawn]
  · rintro i pc ⟨⟩
    exact hcarries
  · exact h.answers p
  · have hauthored := h.authored p
    rw [hunderway] at hauthored
    rw [drawnBy, hdrawn]
    exact hauthored

/-- A step with which a call is back. -/
theorem Answered.of_comeBack (h : Answered t) {p : Fin n} {item : α} {a : Enqueued α}
    (hproducers : t'.producers = (t.comeBack p item a).producers)
    (hdrawn : t'.drawn = t.drawn) (hanswer : a = .accepted ∨ a = .rejected ⟨item⟩)
    (hunderway : (t.producer p).underway = if a.isAccepted then [item] else []) :
    Answered t' := by
  refine h.of_producer
    (x := { call := none, answers := (t.producer p).answers ++ [(item, a)] }) hproducers
    ?_ ?_ ?_ ?_
  · intro r _
    rw [drawnBy, drawnBy, hdrawn]
  · rintro i w ⟨⟩
  · intro i w hmem
    rcases List.mem_append.1 hmem with hmem | hmem
    · exact h.answers p i w hmem
    · cases List.mem_singleton.1 hmem
      exact hanswer
  · have hauthored := h.authored p
    rw [hunderway] at hauthored
    rw [drawnBy, hdrawn]
    refine hauthored.trans ?_
    rcases hanswer with rfl | rfl
    · simp [Producer.accepted, Producer.underway, Enqueued.isAccepted]
    · simp [Producer.accepted, Producer.underway, Enqueued.isAccepted]

theorem underway_of_call {p : Fin n} {item : α} {pc : Enqueue α}
    (h : (t.producer p).call = some (item, pc)) :
    (t.producer p).underway = if pc.ticket?.isSome then [item] else [] := by
  rw [Producer.underway, h]

theorem answered_turn (h : Answered t) (ho : Orderly s t) (turn : Turn t t') : Answered t' := by
  cases turn with
  | offer p item idle =>
    refine h.of_goOn (w := .start item) rfl rfl rfl ?_
    rw [Producer.underway, idle]
    rfl
  | refuse p item i here full =>
    have hi : i = item := h.carries p item _ here
    have hu := underway_of_call here
    exact h.of_goOn (w := .refused i) rfl rfl hi hu
  | reserve p item i here room =>
    have hi : i = item := h.carries p item _ here
    have hu := underway_of_call here
    exact h.of_goOn (w := .reserved i) rfl rfl hi hu
  | reject p item i here =>
    obtain rfl : i = item := h.carries p item _ here
    exact h.of_comeBack (a := .rejected ⟨i⟩) rfl rfl (.inr rfl) (underway_of_call here)
  | draw p item i here =>
    obtain rfl : i = item := h.carries p item _ here
    have hold : (t.producer p).underway = [] := underway_of_call here
    have hauthored := h.authored p
    rw [hold, List.append_nil] at hauthored
    refine h.of_producer
      (x := { t.producer p with call := some (i, .ticketed i t.queue.head) }) rfl ?_ ?_
      (h.answers p) ?_
    · intro r hr
      simp [drawnBy, List.filter_append, Ne.symm hr]
    · rintro j w ⟨⟩
      rfl
    · have hdrawn : ({ t.goOn p i (.ticketed i t.queue.head) with
          drawn := t.drawn ++ [(p, i)] } : Traffic α c n).drawnBy p = t.drawnBy p ++ [i] := by
        simp [drawnBy, List.filter_append]
      rw [hauthored] at hdrawn
      exact hdrawn
  | clear p item i ticket here free =>
    have hi : i = item := h.carries p item _ here
    have hu := underway_of_call here
    exact h.of_goOn (w := .cleared i ticket) rfl rfl hi hu
  | clash p item i ticket here taken =>
    exact absurd (ho.sequence_eq (calls_of_call here) rfl) taken
  | fill p item i ticket here =>
    have hu := underway_of_call here
    exact h.of_goOn (w := .filled ticket) rfl rfl trivial hu
  | publish p item ticket here =>
    exact h.of_comeBack (a := .accepted) rfl rfl (.inl rfl) (underway_of_call here)
  | ask | locate | enter | dismiss | copy | release | advance | leave =>
    exact ⟨h.carries, h.answers, h.authored⟩

/-- `p` has drawn a ticket whose slot it has yet to publish. -/
def Holds (t : Traffic α c n) (p : Fin n) (ticket : UInt64) : Prop :=
  ∃ pc, t.calls p = some pc ∧ pc.ticket? = some ticket

/-- The consumer has found the slot of a ticket published and has yet to give it back. -/
def Reads (t : Traffic α c n) (ticket : UInt64) : Prop :=
  ∃ pc, t.consumer = some pc ∧ pc.claim? = some ticket

/-- What holds for those around the queue, the tickets being those from `s` on. -/
structure DeliversInOrder (s : UInt64) (t : Traffic α c n) : Prop where
  /-- The ticket of the `k`-th entry is the `k`-th from the start. -/
  numbered : ∀ p ticket, t.Holds p ticket →
    ∃ k item, ticket = position s k ∧ t.drawn[k]? = some (p, item)
  clear : ∀ p ticket, t.Holds p ticket → t.queue.sequence (c.slot ticket) = ticket
  alone : ∀ p ticket p' ticket', t.Holds p ticket → t.Holds p' ticket' →
    c.slot ticket = c.slot ticket' → p = p'
  apart : ∀ p ticket ticket', t.Holds p ticket → t.Reads ticket' →
    c.slot ticket ≠ c.slot ticket'
  /-- No offer comes back with a clash, and a refused item comes back unchanged. -/
  answers : ∀ p item answer, (item, answer) ∈ (t.producer p).answers →
    answer = .accepted ∨ answer = .rejected ⟨item⟩
  /-- What is being read was written under the ticket that is read. -/
  whole : ∀ ticket, t.Reads ticket → ticket = position s t.taken.length ∧
    t.queue.sequence (c.slot ticket) = ticket + 1 ∧
      t.items[t.taken.length]? = some (t.queue.slots.get (c.slot ticket)).item
  carried : ∀ pc item, t.consumer = some pc → pc.item? = some item →
    t.items[t.taken.length]? = some item
  order : t.taken <+: t.items
  /-- What is drawn for stays with its producer until it is in its slot, and there until the slot
  is given back. -/
  kept : ∀ k p item, t.released ≤ k → t.drawn[k]? = some (p, item) →
    t.Holds p (position s k) ∨ t.queue.sequence (c.slot (position s k)) = position s k + 1 ∧
      (t.queue.slots.get (c.slot (position s k))).item = item
  authored : ∀ p, t.drawnBy p = (t.producer p).accepted ++ (t.producer p).underway

theorem Orderly.alone (h : Orderly s t) {p p' : Fin n} {ticket ticket' : UInt64}
    (hp : t.Holds p ticket) (hp' : t.Holds p' ticket') (he : c.slot ticket = c.slot ticket') :
    p = p' := by
  obtain ⟨pc, hpc, ht⟩ := hp
  obtain ⟨pc', hpc', ht'⟩ := hp'
  obtain ⟨k, item, hk, rfl, hd, -⟩ := h.placed.held p pc ticket hpc ht
  obtain ⟨k', item', hk', rfl, hd', -⟩ := h.placed.held p' pc' ticket' hpc' ht'
  have hlt := lt_of_drawn hd
  have hlt' := lt_of_drawn hd'
  have hroom := h.room
  obtain rfl : k = k' := by
    by_contra hne
    exact Capacity.slot_position_ne hk (by omega) hk' (by omega) hne he
  rw [hd] at hd'
  cases hd'
  rfl

theorem Orderly.reads (h : Orderly s t) {ticket : UInt64} (hr : t.Reads ticket) :
    ticket = position s t.taken.length ∧ Ready s t ∧ t.released = t.taken.length := by
  obtain ⟨pc, hpc, hclaim⟩ := hr
  have hs := h.consumer pc hpc
  cases pc with
  | admitted w =>
    cases hclaim
    exact ⟨hs.1, hs.2, by rw [released, hpc]; rfl⟩
  | copied w item =>
    cases hclaim
    exact ⟨hs.1, hs.2.1, by rw [released, hpc]; rfl⟩
  | _ => cases hclaim

theorem Orderly.apart (h : Orderly s t) {p : Fin n} {ticket ticket' : UInt64}
    (hp : t.Holds p ticket) (hr : t.Reads ticket') : c.slot ticket ≠ c.slot ticket' := by
  obtain ⟨rfl, ⟨hlt', hnp⟩, hreleased⟩ := h.reads hr
  obtain ⟨pc, hpc, ht⟩ := hp
  obtain ⟨k, item, hk, rfl, hd, -⟩ := h.placed.held p pc ticket hpc ht
  have hlt := lt_of_drawn hd
  have hroom := h.room
  have hne : k ≠ t.taken.length := by
    rintro rfl
    exact hnp (pending_of_call hpc ht)
  exact Capacity.slot_position_ne hk (by omega) (Nat.le_of_eq hreleased) (by omega) hne

theorem Orderly.whole (h : Orderly s t) {ticket : UInt64} (hr : t.Reads ticket) :
    ticket = position s t.taken.length ∧ t.queue.sequence (c.slot ticket) = ticket + 1 ∧
      t.items[t.taken.length]? = some (t.queue.slots.get (c.slot ticket)).item := by
  obtain ⟨rfl, ⟨hlt, hnp⟩, hreleased⟩ := h.reads hr
  obtain ⟨⟨p, item⟩, hd⟩ : ∃ x, t.drawn[t.taken.length]? = some x :=
    ⟨_, List.getElem?_eq_getElem hlt⟩
  obtain ⟨hsequence, hitem⟩ := h.placed.full _ p item (Nat.le_of_eq hreleased) hd hnp
  refine ⟨rfl, hsequence, ?_⟩
  rw [hitem, items, List.getElem?_map, hd]
  rfl

theorem Orderly.carried (h : Orderly s t) {pc : Dequeue α} {item : α}
    (hpc : t.consumer = some pc) (hitem : pc.item? = some item) :
    t.items[t.taken.length]? = some item := by
  have hs := h.consumer pc hpc
  cases pc with
  | copied w i => cases hitem; exact hs.2.2
  | released w i => cases hitem; exact hs.2
  | advanced i => cases hitem; exact hs
  | _ => cases hitem

theorem Orderly.kept (h : Orderly s t) {k : Nat} {p : Fin n} {item : α} (hk : t.released ≤ k)
    (hd : t.drawn[k]? = some (p, item)) :
    t.Holds p (position s k) ∨ t.queue.sequence (c.slot (position s k)) = position s k + 1 ∧
      (t.queue.slots.get (c.slot (position s k))).item = item := by
  by_cases hpending : Pending s t.calls k
  · obtain ⟨r, hr⟩ := hpending
    obtain ⟨pc, hpc, ht⟩ := Option.bind_eq_some_iff.1 hr
    obtain ⟨item', hd'⟩ := h.placed.author h.room hpc ht hk (lt_of_drawn hd)
    rw [hd] at hd'
    cases hd'
    exact .inl ⟨pc, hpc, ht⟩
  · exact .inr (h.placed.full k p item hk hd hpending)

theorem deliversInOrder_of_orderly (h : Orderly s t) (ha : Answered t) : DeliversInOrder s t where
  numbered := by
    rintro p ticket ⟨pc, hpc, ht⟩
    obtain ⟨k, item, -, he, hd, -⟩ := h.placed.held p pc ticket hpc ht
    exact ⟨k, item, he, hd⟩
  clear := fun p ticket ⟨pc, hpc, ht⟩ => h.sequence_eq hpc ht
  alone := fun _ _ _ _ hp hp' => h.alone hp hp'
  apart := fun _ _ _ hp hr => h.apart hp hr
  answers := ha.answers
  whole := fun _ hr => h.whole hr
  carried := fun _ _ hpc hitem => h.carried hpc hitem
  order := h.taken
  kept := fun _ _ _ hk hd => h.kept hk hd
  authored := ha.authored

theorem keeps_run (hn : n + c.size < UInt64.size) {moves : List (Move α n)}
    (h : Orderly s t ∧ Answered t) (hrun : t.run moves = some t') : Orderly s t' ∧ Answered t' :=
  run_keeps (P := fun t => Orderly s t ∧ Answered t)
    (fun _ _ _ hk hm => ⟨orderly_turn hn hk.1 (turn_of_fire hm),
      answered_turn hk.2 hk.1 (turn_of_fire hm)⟩) h hrun

/-- Everybody is served, whatever happens in between, from any place where the queue is empty. -/
theorem deliversInOrder_run {q : TicketQueue α c} (hn : n + c.size < UInt64.size) (hq : q.EmptyAt s)
    {moves : List (Move α n)} (hrun : (start n q).run moves = some t) : DeliversInOrder s t :=
  have h := keeps_run hn ⟨orderly_start hq, answered_start q⟩ hrun
  deliversInOrder_of_orderly h.1 h.2

/-- One slot, and as many tickets drawn before as a word can count. -/
def lastLap : TicketQueue Nat ⟨0, by decide⟩ :=
  { head := 18446744073709551615, count := 0, tail := 18446744073709551615
    slots := .replicate _ ⟨18446744073709551615, 0⟩ }

/-- The second of two producers comes too early, and again once the slot is released. -/
def overTheWrap (p r : Fin 2) : List (Move Nat 2) :=
  [.offer p 7, .offer r 8, .push p, .push r, .push p, .push r, .push p, .push p, .push p, .ask,
    .pull, .pull, .pull, .pull, .offer r 9, .pull, .pull, .push r, .push r, .push r, .push r,
    .push r, .ask, .pull, .pull, .pull, .pull, .pull, .pull]

theorem deliversInOrder_run_overTheWrap : ∃ t, (start 2 lastLap).run (overTheWrap 0 1) = some t ∧
    t.taken = [7, 9] ∧ DeliversInOrder 18446744073709551615 t := by
  obtain ⟨t, hrun, htaken⟩ :
      ∃ t, (start 2 lastLap).run (overTheWrap 0 1) = some t ∧ t.taken = [7, 9] := ⟨_, rfl, rfl⟩
  exact ⟨t, hrun, htaken, deliversInOrder_run (by decide) ⟨rfl, rfl, rfl, by decide⟩ hrun⟩

end Cadence.TicketQueue.Traffic
