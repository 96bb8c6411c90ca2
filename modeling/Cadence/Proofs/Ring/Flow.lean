import Cadence.Proofs.Ring.Stored
import Cadence.Proofs.Ring.Traffic

/-!
What the two sides of a ring can go by. Each decides on a cursor that may be out of date, but only
in one direction: the producer may think that there is less room than there is, and the consumer
that less is stored. Until a push is back its slot is outside what is stored, and until a pop is
back its slot is the first inside.
-/

namespace Cadence.Ring

variable {α : Type} {c : Capacity} {n : Nat}

/-- Where a push of `item` stands, given the ring and how much it stores. -/
def Push.Stands (r : Ring α c) (stored : Nat) (item : α) : Push α → Prop
  | start i => i = item
  | positioned i write => i = item ∧ write = r.write
  | admitted i write => i = item ∧ write = r.write ∧ stored < c.size
  | filled write =>
    write = r.write ∧ stored < c.size ∧ r.slots.get (c.slot r.write) = item

/-- Where a pop stands, given the ring and what it stores. -/
def Pop.Stands (r : Ring α c) (xs : List α) : Pop α → Prop
  | start => True
  | positioned read => read = r.read
  | admitted read => read = r.read ∧ xs ≠ []
  | copied read item => read = r.read ∧ xs.head? = some item

theorem Push.Stands.mono {r r' : Ring α c} {k k' : Nat} {item : α} {pc : Push α}
    (h : pc.Stands r k item) (hwrite : r'.write = r.write) (hslots : r'.slots = r.slots)
    (hk : k' ≤ k) : pc.Stands r' k' item := by
  cases pc with
  | start i => exact h
  | positioned i write => exact ⟨h.1, h.2.trans hwrite.symm⟩
  | admitted i write => exact ⟨h.1, h.2.1.trans hwrite.symm, Nat.lt_of_le_of_lt hk h.2.2⟩
  | filled write =>
    refine ⟨h.1.trans hwrite.symm, Nat.lt_of_le_of_lt hk h.2.1, ?_⟩
    rw [hslots, hwrite]
    exact h.2.2

theorem Pop.Stands.mono {r r' : Ring α c} {xs xs' : List α} {pc : Pop α} (h : pc.Stands r xs)
    (hread : r'.read = r.read) (hxs : xs <+: xs') : pc.Stands r' xs' := by
  obtain ⟨rest, rfl⟩ := hxs
  cases pc with
  | start => trivial
  | positioned read => exact h.trans hread.symm
  | admitted read =>
    refine ⟨h.1.trans hread.symm, ?_⟩
    intro hnil
    exact h.2 (List.append_eq_nil_iff.1 hnil).1
  | copied read item =>
    refine ⟨h.1.trans hread.symm, ?_⟩
    rw [List.head?_append, h.2]
    rfl

namespace Traffic

variable {t t' : Traffic α c n} {s : UInt64} {xs : List α} {m : Move α n}

def pushed (t : Traffic α c n) : List α := Fifo.pushed t.log

def popped (t : Traffic α c n) : List α := Fifo.popped t.log

structure Flowing (s : UInt64) (xs : List α) (t : Traffic α c n) : Prop where
  stores : t.ring.Stores (position s t.popped.length) xs
  history : Fifo.History c.size t.log xs
  producer : ∀ item pc, t.producer = some (.work (item, pc)) → pc.Stands t.ring xs.length item
  consumer : ∀ pc, t.consumer = some (.work pc) → pc.Stands t.ring xs

theorem flowing_start {r : Ring α c} (hwrite : r.write = s) (hread : r.read = s) :
    Flowing s [] (start n r) := by
  refine ⟨?_, .start, ?_, ?_⟩
  · rw [popped, start, Fifo.popped, List.filterMap_nil, List.length_nil, position_zero]
    exact stores_nil hwrite hread
  · intro item pc h
    cases h
  · intro pc h
    cases h

/-- A step of one side that looks and does not touch, after which nothing but its place differs. -/
theorem Flowing.of_look (h : Flowing s xs t) (hring : t'.ring = t.ring) (hlog : t'.log = t.log)
    (hproducer : ∀ item pc, t'.producer = some (.work (item, pc)) → pc.Stands t.ring xs.length item)
    (hconsumer : ∀ pc, t'.consumer = some (.work pc) → pc.Stands t.ring xs) : Flowing s xs t' := by
  refine ⟨?_, ?_, ?_, ?_⟩
  · rw [hring, popped, hlog]
    exact h.stores
  · rw [hlog]
    exact h.history
  · rw [hring]
    exact hproducer
  · rw [hring]
    exact hconsumer

/-- Whoever counts does nothing else. -/
theorem producer_of_setCounting {x : Option Count} {who : Party n} {w : α × Push α}
    (h : (t.setCounting x who).producer = some (.work w)) : t.producer = some (.work w) := by
  cases who with
  | producer =>
    obtain ⟨pc, -, hpc⟩ := Option.map_eq_some_iff.1 h
    cases hpc
  | consumer | other i => exact h

theorem consumer_of_setCounting {x : Option Count} {who : Party n} {pc : Pop α}
    (h : (t.setCounting x who).consumer = some (.work pc)) : t.consumer = some (.work pc) := by
  cases who with
  | consumer =>
    obtain ⟨pc, -, hpc⟩ := Option.map_eq_some_iff.1 h
    cases hpc
  | producer | other i => exact h

theorem Flowing.of_setCounting (h : Flowing s xs t) (x : Option Count) (who : Party n) :
    Flowing s xs (t.setCounting x who) :=
  h.of_look (setCounting_ring ..) (setCounting_log ..)
    (fun item pc hp => h.producer item pc (producer_of_setCounting hp))
    (fun pc hc => h.consumer pc (consumer_of_setCounting hc))

theorem flowing_turn (h : Flowing s xs t) (turn : Turn t m t') : ∃ xs', Flowing s xs' t' := by
  have hlevel := h.stores.toNat_write_sub_read
  cases turn with
  | offer item idle =>
    refine ⟨xs, h.of_look rfl rfl ?_ h.consumer⟩
    rintro i pc ⟨⟩
    rfl
  | seek item i here =>
    refine ⟨xs, h.of_look rfl rfl ?_ h.consumer⟩
    rintro j pc ⟨⟩
    exact ⟨h.producer item _ here, rfl⟩
  | refuse item i write here full =>
    obtain ⟨rfl, rfl⟩ := h.producer item _ here
    rw [hlevel] at full
    have hfull := Nat.le_antisymm h.stores.length_le full
    refine ⟨xs, ?_, h.history.refuse hfull i, ?_, h.consumer⟩
    · rw [popped, Fifo.popped_concat_of_none rfl]
      exact h.stores
    · intro j pc hp
      cases hp
  | permit item i write here room =>
    obtain ⟨rfl, rfl⟩ := h.producer item _ here
    rw [hlevel] at room
    refine ⟨xs, h.of_look rfl rfl ?_ h.consumer⟩
    rintro j pc ⟨⟩
    exact ⟨rfl, rfl, room⟩
  | fill item i write here =>
    obtain ⟨rfl, rfl, hroom⟩ := h.producer item _ here
    refine ⟨xs, h.stores.fill hroom i, h.history, ?_, ?_⟩
    · rintro j pc ⟨⟩
      exact ⟨rfl, hroom, get_replaceAt_self ..⟩
    · intro pc hc
      exact (h.consumer pc hc).mono rfl (List.prefix_refl xs)
  | publish item write here =>
    obtain ⟨rfl, hroom, hitem⟩ := h.producer item _ here
    refine ⟨xs ++ [item], ?_, h.history.accept hroom item, ?_, ?_⟩
    · rw [popped, Fifo.popped_concat_of_none rfl]
      exact h.stores.append hroom hitem
    · intro j pc hp
      cases hp
    · intro pc hc
      exact (h.consumer pc hc).mono rfl (List.prefix_append xs [item])
  | ask idle =>
    refine ⟨xs, h.of_look rfl rfl h.producer ?_⟩
    rintro pc ⟨⟩
    trivial
  | locate here =>
    refine ⟨xs, h.of_look rfl rfl h.producer ?_⟩
    rintro pc ⟨⟩
    rfl
  | miss read here empty =>
    obtain rfl : read = t.ring.read := h.consumer _ here
    obtain rfl := h.stores.write_eq_read_iff.1 empty
    refine ⟨[], ?_, h.history.miss, h.producer, ?_⟩
    · rw [popped, Fifo.popped_concat_of_none rfl]
      exact h.stores
    · intro pc hc
      cases hc
  | enter read here stored =>
    obtain rfl : read = t.ring.read := h.consumer _ here
    refine ⟨xs, h.of_look rfl rfl h.producer ?_⟩
    rintro pc ⟨⟩
    exact ⟨rfl, fun hnil => stored (h.stores.write_eq_read_iff.2 hnil)⟩
  | copy read here =>
    obtain ⟨rfl, hne⟩ := h.consumer _ here
    refine ⟨xs, h.of_look rfl rfl h.producer ?_⟩
    rintro pc ⟨⟩
    obtain ⟨x, rest, rfl⟩ := List.exists_cons_of_ne_nil hne
    exact ⟨rfl, congrArg some h.stores.first.symm⟩
  | release read item here =>
    obtain ⟨rfl, hitem⟩ := h.consumer _ here
    obtain ⟨rest, rfl⟩ := List.head?_eq_some_iff.1 hitem
    refine ⟨rest, ?_, h.history.pop, ?_, ?_⟩
    · rw [popped, Fifo.popped_concat, Fifo.popped?, List.length_append, Option.toList_some,
        List.length_singleton, position_succ]
      exact h.stores.tail
    · intro j pc hp
      exact (h.producer j pc hp).mono rfl rfl (Nat.le_succ _)
    · intro pc hc
      cases hc
  | look who idle => exact ⟨xs, h.of_setCounting _ who⟩
  | first who here => exact ⟨xs, h.of_setCounting _ who⟩
  | second who read here =>
    have hcounted : Flowing s xs { t with
        counts := t.counts ++ [(who, min (t.ring.write - read).toNat c.size)] } :=
      h.of_look rfl rfl h.producer h.consumer
    exact ⟨xs, hcounted.of_setCounting _ who⟩

end Traffic

end Cadence.Ring
