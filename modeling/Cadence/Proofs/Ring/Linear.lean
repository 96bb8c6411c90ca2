import Cadence.Proofs.Ring.Counting

/-!
A ring between two sides is one list at every moment. Each push and each pop takes effect in its
last step, with the reply that the list gives at that moment, so what came back in whatever
interleaving is a history of the list. A count loads twice and is exact only for the two sides, of
which one cursor is their own; for all others it errs on the side of more.
-/

namespace Cadence.Ring.Traffic

variable {α : Type} {c : Capacity} {n : Nat} {t t' u : Traffic α c n} {s : UInt64} {xs : List α}
  {who : Party n}

def stored (t : Traffic α c n) : List α := t.pushed.drop t.popped.length

namespace Flowing

theorem pushed_eq (h : Flowing s xs t) : t.pushed = t.popped ++ xs := h.history.pushed_eq

theorem stored_eq (h : Flowing s xs t) : t.stored = xs := by
  rw [stored, h.pushed_eq, List.drop_left]

theorem length_pushed (h : Flowing s xs t) : t.pushed.length = t.popped.length + xs.length := by
  rw [h.pushed_eq, List.length_append]

/-- The write cursor seen from a place that the read cursor has passed. -/
theorem toNat_write_sub (h : Flowing s xs t) {k : Nat} (hk : k ≤ t.popped.length)
    (hlag : t.pushed.length - k < UInt64.size) :
    (t.ring.write - position s k).toNat = t.pushed.length - k := by
  have hwrite : t.ring.write = position (position s k) (t.pushed.length - k) := by
    rw [h.stores.write, position_position, position_position]
    have := h.length_pushed
    congr 1
    omega
  rw [hwrite]
  exact toNat_position_sub hlag

end Flowing

/-- What a count comes back with whose loads are made in `t` and in `u`. -/
def counted (t u : Traffic α c n) : Nat := min (u.ring.write - t.ring.read).toNat c.size

theorem Between.counted_producer (h : Between s t .producer t.ring.read u) (ht : Flowing s xs t) :
    counted t u = t.stored.length := by
  obtain ⟨ys, hu⟩ := h.flowing
  have hpopped := h.popped.length_le
  have hpushed : u.pushed.length = t.popped.length + xs.length := by
    rw [h.ownPushed rfl, ht.length_pushed]
  have hle := ht.stores.length_le
  have hlt := c.size_lt
  rw [counted, ht.stores.read, hu.toNat_write_sub hpopped (by omega), ht.stored_eq]
  omega

theorem Between.counted_consumer (h : Between s t .consumer t.ring.read u) (ht : Flowing s xs t) :
    counted t u = u.stored.length := by
  obtain ⟨ys, hu⟩ := h.flowing
  have hpopped := congrArg List.length (h.ownPopped rfl)
  have hpushed := hu.length_pushed
  have hle := hu.stores.length_le
  have hlt := c.size_lt
  rw [counted, ht.stores.read, hu.toNat_write_sub (Nat.le_of_eq hpopped.symm) (by omega),
    hu.stored_eq]
  omega

/-- What is stored at a moment between the loads is counted, as long as the cursors have not gone
all the way around. -/
theorem Between.stored_le (h : Between s t who t.ring.read u) (ht : Flowing s xs t)
    {v : Traffic α c n} {ys : List α} (hv : Flowing s ys v) (hpopped : t.popped <+: v.popped)
    (hpushed : v.pushed <+: u.pushed)
    (hlag : u.popped.length < t.popped.length + (UInt64.size - c.size)) :
    v.stored.length ≤ counted t u := by
  obtain ⟨zs, hu⟩ := h.flowing
  have hpopped := hpopped.length_le
  have hpushed := hpushed.length_le
  have hpassed := h.popped.length_le
  have hlength := hv.length_pushed
  have hlength' := hu.length_pushed
  have hle := hv.stores.length_le
  have hle' := hu.stores.length_le
  have hlt := c.size_lt
  rw [counted, ht.stores.read, hu.toNat_write_sub hpassed (by omega), hv.stored_eq]
  omega

structure Linear (t : Traffic α c n) : Prop where
  /-- The calls that are back, in the order in which they came back, are calls of one list. -/
  history : Fifo.History c.size t.log t.stored
  order : t.popped <+: t.pushed
  level : (t.ring.write - t.ring.read).toNat = t.stored.length ∧ t.stored.length ≤ c.size
  /-- A slot that is about to be filled is none of those that store something. -/
  outside : ∀ item i write, t.producer = some (.work (item, .admitted i write)) →
    ∀ k < t.stored.length, c.slot (position t.ring.read k) ≠ c.slot write
  /-- A slot that is about to be copied is the first of those that store something. -/
  inside : ∀ read, t.consumer = some (.work (.admitted read)) →
    read = t.ring.read ∧ 0 < t.stored.length
  /-- A push that loads the read cursor and is refused finds the ring full at that moment. -/
  overflow : ∀ item i t', t.fire .push = some t' → t'.log = t.log ++ [(.push item, .refused i)] →
    i = item ∧ t.stored.length = c.size
  /-- A pop that loads the write cursor and comes back with nothing finds nothing stored. -/
  empty : ∀ t', t.fire .pull = some t' → t'.log = t.log ++ [(.pop, .empty)] → t.stored = []
  /-- Whoever loads the read cursor now, and the write cursor after others have moved on. -/
  counts : ∀ who t₁ between t₂ t₃, t.counting who = some .start → t.fire (.load who) = some t₁ →
    t₁.run between = some t₂ → .load who ∉ between → t₂.fire (.load who) = some t₃ →
    ∃ k, t₃.counts = t₂.counts ++ [(who, k)] ∧ k ≤ c.size ∧
      (who = .producer → k = t.stored.length) ∧ (who = .consumer → k = t₂.stored.length) ∧
      (t₂.popped.length < t.popped.length + (UInt64.size - c.size) →
        ∀ earlier later u, between = earlier ++ later → t₁.run earlier = some u →
          u.stored.length ≤ k)

theorem counting_setCounting_self (t : Traffic α c n) (x : Option Count) (who : Party n) :
    (t.setCounting x who).counting who = x := by
  cases who with
  | producer | consumer => cases x <;> rfl
  | other i => exact get_replaceAt_self ..

/-- The first load of a count. -/
theorem between_of_load (ht : Flowing s xs t) (hwho : t.counting who = some .start)
    (hload : t.fire (.load who) = some u) : Between s t who t.ring.read u := by
  simp only [fire, hwho, Count.step, Option.some.injEq] at hload
  subst hload
  have hpushed : (t.setCounting (some (.positioned t.ring.read)) who).pushed = t.pushed :=
    congrArg Fifo.pushed (setCounting_log ..)
  have hpopped : (t.setCounting (some (.positioned t.ring.read)) who).popped = t.popped :=
    congrArg Fifo.popped (setCounting_log ..)
  exact ⟨⟨xs, ht.of_setCounting _ who⟩, counting_setCounting_self .., hpushed ▸ List.prefix_refl _,
    hpopped ▸ List.prefix_refl _, fun _ => hpushed, fun _ => hpopped⟩

/-- The second load, with which it is back. -/
theorem Between.load (h : Between s t who t.ring.read u) (hload : u.fire (.load who) = some t') :
    t'.counts = u.counts ++ [(who, counted t u)] := by
  simp only [fire, h.counting, Count.step, Option.some.injEq] at hload
  subst hload
  exact setCounting_counts ..

theorem Flowing.overflow (h : Flowing s xs t) {item i : α} (hpush : t.fire .push = some t')
    (hlog : t'.log = t.log ++ [(.push item, .refused i)]) :
    i = item ∧ t.stored.length = c.size := by
  have hlevel := h.stores.toNat_write_sub_read
  cases turn_of_fire hpush with
  | refuse item' i' write here full =>
    cases List.append_cancel_left hlog
    obtain ⟨rfl, rfl⟩ := h.producer item _ here
    rw [hlevel] at full
    exact ⟨rfl, h.stored_eq ▸ Nat.le_antisymm h.stores.length_le full⟩
  | publish item' write here => cases List.append_cancel_left hlog
  | seek | permit | fill => simp at hlog

theorem Flowing.empty (h : Flowing s xs t) (hpull : t.fire .pull = some t')
    (hlog : t'.log = t.log ++ [(.pop, .empty)]) : t.stored = [] := by
  cases turn_of_fire hpull with
  | miss read here empty =>
    obtain rfl : read = t.ring.read := h.consumer _ here
    exact h.stored_eq.trans (h.stores.write_eq_read_iff.1 empty)
  | release read item here => cases List.append_cancel_left hlog
  | locate | enter | copy => simp at hlog

theorem linear_of_flowing (h : Flowing s xs t) : Linear t where
  history := h.stored_eq.symm ▸ h.history
  order := ⟨xs, h.pushed_eq.symm⟩
  level := by
    rw [h.stored_eq]
    exact ⟨h.stores.toNat_write_sub_read, h.stores.length_le⟩
  outside := by
    intro item i write here k hk
    obtain ⟨-, rfl, hroom⟩ := h.producer item _ here
    rw [h.stored_eq] at hk
    rw [h.stores.read]
    exact h.stores.slot_ne hroom hk
  inside := by
    intro read here
    obtain ⟨rfl, hne⟩ := h.consumer _ here
    rw [h.stored_eq]
    exact ⟨rfl, List.length_pos_iff.2 hne⟩
  overflow := fun _ _ _ hpush hlog => h.overflow hpush hlog
  empty := fun _ hpull hlog => h.empty hpull hlog
  counts := by
    intro who t₁ between t₂ t₃ hwho hfirst hrun hbetween hsecond
    have h₁ := between_of_load h hwho hfirst
    have h₂ := between_run h₁ hrun hbetween
    refine ⟨counted t t₂, h₂.load hsecond, Nat.min_le_right _ _, ?_, ?_, ?_⟩
    · rintro rfl
      exact h₂.counted_producer h
    · rintro rfl
      exact h₂.counted_consumer h
    · rintro hlag earlier later u rfl hearlier
      have hu := between_run h₁ hearlier fun hmem => hbetween (List.mem_append_left _ hmem)
      obtain ⟨v, hv, hlater⟩ := foldlM_append_eq_some.1 hrun
      obtain rfl : u = v := Option.some.inj (hearlier.symm.trans hv)
      obtain ⟨ys, hflow⟩ := hu.flowing
      exact h₂.stored_le h hflow hu.popped (pushed_of_run hlater) hlag

/-- From any place where the cursors meet, whatever the sides and others do in between. -/
theorem linearizable_run {r : Ring α c} (hwrite : r.write = s) (hread : r.read = s)
    {moves : List (Move α n)} (hrun : (start n r).run moves = some t) : Linear t := by
  obtain ⟨xs, h⟩ := run_keeps (P := fun t => ∃ xs, Flowing s xs t)
    (fun _ _ _ h hfire => flowing_turn h.choose_spec (turn_of_fire hfire))
    ⟨[], flowing_start hwrite hread⟩ hrun
  exact linear_of_flowing h

/-- Somebody counts while an item is popped, two are pushed and a third is refused. -/
def aroundTheWrap (who : Party 1) : List (Move Nat 1) :=
  [.offer 7, .push, .push, .push, .push, .look who, .load who, .ask, .pull, .pull, .pull, .offer 8,
    .push, .push, .push, .push, .pull, .offer 9, .push, .push, .push, .push, .offer 10, .push,
    .push, .load who, .ask, .pull, .pull, .pull, .pull, .look .consumer, .load .consumer,
    .load .consumer]

theorem linearizable_run_aroundTheWrap :
    ∃ t, (start 1 atTheWrap).run (aroundTheWrap (.other ⟨0, Nat.one_pos⟩)) = some t ∧
      t.log = [(.push 7, .accepted), (.push 8, .accepted), (.pop, .popped 7), (.push 9, .accepted),
        (.push 10, .refused 10), (.pop, .popped 8)] ∧
      t.counts = [(.other ⟨0, Nat.one_pos⟩, 2), (.consumer, 1)] ∧ Linear t := by
  obtain ⟨t, hrun, hlog, hcounts⟩ :
      ∃ t, (start 1 atTheWrap).run (aroundTheWrap (.other ⟨0, Nat.one_pos⟩)) = some t ∧
        t.log = [(.push 7, .accepted), (.push 8, .accepted), (.pop, .popped 7),
          (.push 9, .accepted), (.push 10, .refused 10), (.pop, .popped 8)] ∧
        t.counts = [(.other ⟨0, Nat.one_pos⟩, 2), (.consumer, 1)] := ⟨_, rfl, rfl, rfl⟩
  exact ⟨t, hrun, hlog, hcounts, linearizable_run rfl rfl hrun⟩

end Cadence.Ring.Traffic
