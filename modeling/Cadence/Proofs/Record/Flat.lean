import Cadence.Record.Format

/-!
Records that are their bytes. A flat record is read back as it was written, keeps to its own bytes
when it is written and looks at no others when it is read, and is fresh when all of them are zero.
Words are flat, and so is what is made of flat parts that do not overlap.
-/

namespace Cadence.Record.Format

variable {ρ σ τ : Type}

structure Flat (f : Format ρ) (fresh : ρ) : Prop where
  read_write : ∀ v m offset, f.read (f.write v m offset) offset = v
  write_outside : ∀ v m offset a, a < offset ∨ offset + f.shape.size ≤ a →
    f.write v m offset a = m a
  read_congr : ∀ m m' offset, (∀ a, offset ≤ a → a < offset + f.shape.size → m a = m' a) →
    f.read m offset = f.read m' offset
  read_zero : ∀ offset, f.read .zero offset = fresh
  align_dvd : f.shape.align ∣ Limits.segmentAlignment

namespace Flat

variable {f : Format ρ} {fresh : ρ}

theorem align_pos (h : Flat f fresh) : 0 < f.shape.align :=
  Nat.pos_of_dvd_of_pos h.align_dvd (by decide)

/-- A record that is written next to another leaves it as it was. -/
theorem read_beside {g : Format σ} {fresh' : σ} (hf : Flat f fresh) (hg : Flat g fresh') {v : σ}
    {m : Memory} {offset offset' : Nat}
    (apart : offset + f.shape.size ≤ offset' ∨ offset' + g.shape.size ≤ offset) :
    f.read (g.write v m offset') offset = f.read m offset :=
  hf.read_congr _ _ _ fun a _ _ => hg.write_outside v m offset' a (by omega)

theorem pair {first : Format σ} {second : Format τ} {a : σ} {b : τ} {shape : Shape} {gap : Nat}
    (hfirst : Flat first a) (hsecond : Flat second b) (below : first.shape.size ≤ gap)
    (fits : gap + second.shape.size ≤ shape.size)
    (align_dvd : shape.align ∣ Limits.segmentAlignment) :
    Flat (pair shape first second gap) (a, b) where
  read_write v m offset :=
    Prod.ext ((hfirst.read_beside hsecond (.inl (by omega))).trans (hfirst.read_write ..))
      (hsecond.read_write ..)
  write_outside v m offset a ha := by
    have ha : a < offset ∨ offset + shape.size ≤ a := ha
    exact (hsecond.write_outside _ _ _ a (by omega)).trans
      (hfirst.write_outside _ _ _ a (by omega))
  read_congr m m' offset h := by
    have h : ∀ a, offset ≤ a → a < offset + shape.size → m a = m' a := h
    exact Prod.ext (hfirst.read_congr _ _ _ fun a _ _ => h a (by omega) (by omega))
      (hsecond.read_congr _ _ _ fun a _ _ => h a (by omega) (by omega))
  read_zero offset := Prod.ext (hfirst.read_zero _) (hsecond.read_zero _)
  align_dvd := align_dvd

theorem as {parts : Format σ} {a : σ} (h : Flat parts a) {split : ρ → σ} {join : σ → ρ}
    (whole : ∀ v, join (split v) = v) : Flat (parts.as split join) (join a) where
  read_write v _ _ := (congrArg join (h.read_write ..)).trans (whole v)
  write_outside v := h.write_outside (split v)
  read_congr m m' offset hbytes := congrArg join (h.read_congr m m' offset hbytes)
  read_zero offset := congrArg join (h.read_zero offset)
  align_dvd := h.align_dvd

theorem padded (h : Flat f fresh) : Flat f.padded fresh := by
  have hcover : max f.shape.align Limits.cacheLine = Limits.cacheLine :=
    Nat.max_eq_right (Nat.le_of_dvd (by decide) h.align_dvd)
  have hsize : f.shape.size ≤ f.padded.shape.size :=
    Extent.le_aligned (Nat.lt_of_lt_of_le h.align_pos (Nat.le_max_left ..))
  exact {
    read_write := h.read_write
    write_outside := fun v m offset a ha => h.write_outside v m offset a (by omega)
    read_congr := fun m m' offset hbytes =>
      h.read_congr m m' offset fun a hl hr => hbytes a hl (by omega)
    read_zero := h.read_zero
    align_dvd := by
      change max f.shape.align Limits.cacheLine ∣ _
      rw [hcover]
      exact Nat.dvd_refl _ }

/-! Items of an array are written one after the other, each beside those before it. -/

section

variable {count : Nat} {v : Vector ρ count} {m : Memory} {offset : Nat}

theorem items_apart (size : Nat) {i j : Nat} (h : i ≠ j) :
    offset + i * size + size ≤ offset + j * size ∨
      offset + j * size + size ≤ offset + i * size := by
  rcases Nat.lt_or_gt_of_ne h with h | h
  · have hle := Nat.mul_le_mul_right size h
    rw [Nat.succ_mul] at hle
    omega
  · have hle := Nat.mul_le_mul_right size h
    rw [Nat.succ_mul] at hle
    omega

theorem item_fits (size : Nat) (i : Fin count) : i * size + size ≤ size * count := by
  have hle := Nat.mul_le_mul_right size i.isLt
  rwa [Nat.succ_mul, Nat.mul_comm count] at hle

theorem read_items_beside (h : Flat f fresh) {is : List (Fin count)} {j : Fin count}
    (hj : j ∉ is) :
    f.read (is.foldl (f.writeItem v offset) m) (offset + j * f.shape.size) =
      f.read m (offset + j * f.shape.size) := by
  induction is generalizing m with
  | nil => rfl
  | cons i is ih =>
    rw [List.mem_cons, not_or] at hj
    obtain ⟨hne, hj⟩ := hj
    rw [List.foldl_cons, ih hj]
    exact h.read_beside h (items_apart _ fun e => hne (Fin.ext e))

theorem read_items (h : Flat f fresh) {is : List (Fin count)} (hnodup : is.Nodup) {j : Fin count}
    (hj : j ∈ is) :
    f.read (is.foldl (f.writeItem v offset) m) (offset + j * f.shape.size) = v.get j := by
  induction is generalizing m with
  | nil => cases hj
  | cons i is ih =>
    obtain ⟨hnot, hnodup⟩ := List.nodup_cons.1 hnodup
    rw [List.foldl_cons]
    by_cases e : j = i
    · subst e
      rw [read_items_beside h hnot]
      exact h.read_write ..
    · exact ih hnodup ((List.mem_cons.1 hj).resolve_left e)

theorem items_outside (h : Flat f fresh) {is : List (Fin count)} {a : Nat}
    (ha : a < offset ∨ offset + f.shape.size * count ≤ a) :
    is.foldl (f.writeItem v offset) m a = m a := by
  induction is generalizing m with
  | nil => rfl
  | cons i is ih =>
    have hfits := item_fits f.shape.size i
    rw [List.foldl_cons, ih]
    exact h.write_outside _ _ _ _ (by omega)

end

theorem array (h : Flat f fresh) (count : Nat) :
    Flat (f.array count) (Vector.replicate count fresh) where
  read_write v m offset := by
    refine Vector.ext fun i hi => ?_
    exact (Vector.getElem_ofFn hi).trans
      (h.read_items (List.nodup_finRange _) (List.mem_finRange ⟨i, hi⟩))
  write_outside v m offset a ha := h.items_outside ha
  read_congr m m' offset hbytes := by
    refine Vector.ext fun i hi => ?_
    have hfits := item_fits f.shape.size ⟨i, hi⟩
    have hbytes : ∀ a, offset ≤ a → a < offset + f.shape.size * count → m a = m' a := hbytes
    rw [Format.array, Vector.getElem_ofFn, Vector.getElem_ofFn]
    exact h.read_congr _ _ _ fun a hl hr => hbytes a (by omega) (by omega)
  read_zero offset := by
    refine Vector.ext fun i hi => ?_
    rw [Format.array, Vector.getElem_ofFn, Vector.getElem_replicate]
    exact h.read_zero _
  align_dvd := h.align_dvd

theorem word {bytes : Nat} (align_dvd : bytes ∣ Limits.segmentAlignment) :
    Flat (word bytes) 0 where
  read_write v m offset := by
    have hfits : v.toNat < 1 <<< (8 * bytes) := by
      rw [Nat.one_shiftLeft]
      exact v.isLt
    dsimp only [Format.word]
    rw [Memory.readWord_writeWord hfits, BitVec.ofNat_toNat, BitVec.setWidth_eq]
  write_outside _ _ _ _ ha := Memory.writeWord_outside ha
  read_congr _ _ _ hbytes := congrArg (BitVec.ofNat _) (Memory.readWord_congr hbytes)
  read_zero _ := congrArg (BitVec.ofNat _) Memory.readWord_zero
  align_dvd := align_dvd

theorem word32 : Flat word32 0 where
  read_write v _ _ :=
    (congrArg UInt32.ofNat (Memory.readWord_writeWord v.toNat_lt)).trans UInt32.ofNat_toNat
  write_outside _ _ _ _ ha := Memory.writeWord_outside ha
  read_congr _ _ _ hbytes := congrArg UInt32.ofNat (Memory.readWord_congr hbytes)
  read_zero _ := congrArg UInt32.ofNat Memory.readWord_zero
  align_dvd := by decide

theorem word64 : Flat word64 0 where
  read_write v _ _ :=
    (congrArg UInt64.ofNat (Memory.readWord_writeWord v.toNat_lt)).trans UInt64.ofNat_toNat
  write_outside _ _ _ _ ha := Memory.writeWord_outside ha
  read_congr _ _ _ hbytes := congrArg UInt64.ofNat (Memory.readWord_congr hbytes)
  read_zero _ := congrArg UInt64.ofNat Memory.readWord_zero
  align_dvd := by decide

theorem lock : Flat lock {} :=
  (pair word32 word32 (by decide) (by decide) (by decide)).as fun _ => rfl

theorem signal : Flat signal {} :=
  (pair word32 word32 (by decide) (by decide) (by decide)).as fun _ => rfl

theorem guardedWord : Flat guardedWord ({}, 0) :=
  pair lock word64 (by decide) (by decide) (by decide)

theorem twoCursors : Flat twoCursors (0, 0) :=
  pair word64.padded word64.padded (by decide) (by decide) (by decide)

theorem threeCursors : Flat threeCursors ((0, 0), 0) :=
  pair twoCursors word64.padded (by decide) (by decide) (by decide)

theorem max_dvd {m n k : Nat} (hm : m ∣ k) (hn : n ∣ k) : max m n ∣ k := by
  rcases Nat.le_total m n with h | h
  · rwa [Nat.max_eq_right h]
  · rwa [Nat.max_eq_left h]

theorem slot (h : Flat f fresh) : Flat (slot f) ⟨0, fresh⟩ := by
  have halign : (Shape.slot f.shape).align ∣ Limits.segmentAlignment :=
    max_dvd (by decide) h.align_dvd
  refine (pair word64 h (Extent.le_aligned h.align_pos) ?_ halign).as fun _ => rfl
  exact Extent.le_aligned (Nat.pos_of_dvd_of_pos halign (by decide))

theorem ring [Inhabited ρ] (h : Flat f default) (c : Capacity) : Flat (ring f c) Ring.empty := by
  have halign : (Shape.ring f.shape c.size).align ∣ Limits.segmentAlignment :=
    max_dvd (by decide) h.align_dvd
  refine (pair twoCursors (h.array c.size) ?_ ?_ halign).as fun _ => rfl
  · exact Extent.le_aligned h.align_pos
  · exact Extent.le_aligned (Nat.pos_of_dvd_of_pos halign (by decide))

theorem queue [Inhabited ρ] (h : Flat f default) (c : Capacity) :
    Flat (queue f c) TicketQueue.empty := by
  have halign : (Shape.queue f.shape c.size).align ∣ Limits.segmentAlignment :=
    max_dvd (by decide) h.slot.align_dvd
  refine (pair threeCursors (h.slot.array c.size) ?_ ?_ halign).as fun _ => rfl
  · exact Extent.le_aligned h.slot.align_pos
  · exact Extent.le_aligned (Nat.pos_of_dvd_of_pos halign (by decide))

end Flat

/-- The records that are used in place, each with its fresh value. -/
inductive Placeable : {ρ : Type} → Format ρ → ρ → Prop where
  | word (bytes : Nat) (align_dvd : bytes ∣ Limits.segmentAlignment) : Placeable (word bytes) 0
  | padded {ρ : Type} {f : Format ρ} {fresh : ρ} (inner : Placeable f fresh) :
      Placeable f.padded fresh
  | array {ρ : Type} {f : Format ρ} {fresh : ρ} (inner : Placeable f fresh) (count : Nat) :
      Placeable (f.array count) (Vector.replicate count fresh)
  | lock : Placeable lock {}
  | guardedWord : Placeable guardedWord ({}, 0)
  | signal : Placeable signal {}
  | ring {ρ : Type} [Inhabited ρ] {item : Format ρ} (flat : Flat item default) (c : Capacity) :
      Placeable (ring item c) Ring.empty
  | queue {ρ : Type} [Inhabited ρ] {item : Format ρ} (flat : Flat item default) (c : Capacity) :
      Placeable (queue item c) TicketQueue.empty

theorem Placeable.flat {f : Format ρ} {fresh : ρ} (h : Placeable f fresh) : Flat f fresh := by
  induction h with
  | word bytes align_dvd => exact .word align_dvd
  | padded inner ih => exact ih.padded
  | array inner count ih => exact ih.array count
  | lock => exact .lock
  | guardedWord => exact .guardedWord
  | signal => exact .signal
  | ring flat c => exact flat.ring c
  | queue flat c => exact flat.queue c

end Cadence.Record.Format
