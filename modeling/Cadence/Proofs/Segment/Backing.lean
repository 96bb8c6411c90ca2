import Cadence.Proofs.Segment.Traffic

/-!
What handles have behind them. Names lead to objects that are there, no two names to one object; a
handle has a segment of its own length behind it from its first moment to its last, whatever becomes
of the name; and no two handles have made the same object.
-/

namespace Cadence

open SharedSpace (Mode)

namespace SharedSpace

variable {s s' : SharedSpace} {name n : String} {object : Shared} {id : ObjectId} {size : Nat}

structure Sound (s : SharedSpace) : Prop where
  found : ∀ n id, s.find? n = some id → id < s.objects.size
  plain : ∀ n id, s.find? n = some id → isDot n = false
  single : ∀ n n' id, s.find? n = some id → s.find? n' = some id → n = n'
  fits : ∀ n id size memory, s.find? n = some id → s.object? id = some (.segment size memory) →
    size < UInt64.size

theorem sound_empty : Sound {} := ⟨nofun, nofun, nofun, nofun⟩

theorem Sound.push (h : s.Sound) (object : Shared) :
    Sound { s with objects := s.objects.push object } where
  found n id hn := by
    rw [Array.size_push]
    exact Nat.lt_succ_of_lt (h.found n id hn)
  plain := h.plain
  single := h.single
  fits n id size memory hn hid := by
    have hlt := h.found n id hn
    rw [object?, Array.getElem?_push, if_neg (Nat.ne_of_lt hlt)] at hid
    exact h.fits n id size memory hn hid

theorem Sound.add (h : s.Sound) (free : s.isTaken name = false)
    (hfits : ∀ size memory, object = .segment size memory → size < UInt64.size) :
    Sound (s.add name object).1 where
  found n id hn := by
    change id < (s.objects.push object).size
    rw [Array.size_push]
    rw [find?_add] at hn
    split at hn
    · cases hn
      exact Nat.lt_succ_self _
    · exact Nat.lt_succ_of_lt (h.found n id hn)
  plain n id hn := by
    rw [find?_add] at hn
    split at hn
    · subst n
      exact (isTaken_eq_false.1 free).1
    · exact h.plain n id hn
  single n n' id hn hn' := by
    rw [find?_add] at hn hn'
    split at hn
    · cases hn
      split at hn'
      · rename_i e e'
        rw [e, e']
      · exact absurd (h.found n' _ hn') (Nat.lt_irrefl _)
    · split at hn'
      · cases hn'
        exact absurd (h.found n _ hn) (Nat.lt_irrefl _)
      · exact h.single n n' id hn hn'
  fits n id size memory hn hid := by
    rw [find?_add] at hn
    rw [object?_add] at hid
    split at hn
    · cases hn
      rw [if_pos rfl] at hid
      exact hfits size memory (Option.some.inj hid)
    · rw [if_neg (Nat.ne_of_lt (h.found n id hn))] at hid
      exact h.fits n id size memory hn hid

theorem Sound.without (h : s.Sound) (name : String) : Sound (s.without name) := by
  have hback : ∀ n id, (s.without name).find? n = some id → s.find? n = some id := by
    intro n id hn
    rw [find?_without] at hn
    split at hn
    · cases hn
    · exact hn
  exact ⟨fun n id hn => h.found n id (hback n id hn), fun n id hn => h.plain n id (hback n id hn),
    fun n n' id hn hn' => h.single n n' id (hback n id hn) (hback n' id hn'),
    fun n id size memory hn => h.fits n id size memory (hback n id hn)⟩

theorem Sound.unlinked (h : s.Sound) (name : String) : Sound (s.unlinked name) := by
  rcases unlinked_eq s name with e | e <;> rw [e]
  · exact h
  · exact h.without name

theorem Sound.store {memory old : Memory} (h : s.Sound)
    (hid : s.object? id = some (.segment size old)) : Sound (s.store id memory) where
  found n i hn := by
    change i < (Array.modify ..).size
    rw [Array.size_modify]
    exact h.found n i hn
  plain := h.plain
  single := h.single
  fits n i len m hn hi := by
    rw [object?_store hid] at hi
    split at hi
    · cases hi
      subst i
      exact h.fits n id size old hn hid
    · exact h.fits n i len m hn hi

/-- No segment goes away or changes its size, and a name that is new leads to an object that is. -/
structure Later (s s' : SharedSpace) : Prop where
  kept : ∀ id size memory, s.object? id = some (.segment size memory) →
    ∃ memory', s'.object? id = some (.segment size memory')
  fresh : ∀ n id, s'.find? n = some id → s.find? n = some id ∨ s.objects.size ≤ id

theorem Later.refl (s : SharedSpace) : Later s s :=
  ⟨fun _ _ memory h => ⟨memory, h⟩, fun _ _ h => .inl h⟩

theorem later_push (s : SharedSpace) (object : Shared) :
    Later s { s with objects := s.objects.push object } where
  kept id size memory h := by
    refine ⟨memory, ?_⟩
    rw [object?, Array.getElem?_push, if_neg (Nat.ne_of_lt (lt_of_object? h))]
    exact h
  fresh _ _ h := .inl h

theorem later_add (s : SharedSpace) (name : String) (object : Shared) :
    Later s (s.add name object).1 where
  kept id size memory h := by
    refine ⟨memory, ?_⟩
    rw [object?_add, if_neg (Nat.ne_of_lt (lt_of_object? h))]
    exact h
  fresh n id h := by
    rw [find?_add] at h
    split at h
    · cases h
      exact .inr (Nat.le_refl _)
    · exact .inl h

theorem later_without (s : SharedSpace) (name : String) : Later s (s.without name) where
  kept _ _ memory h := ⟨memory, h⟩
  fresh n id h := by
    rw [find?_without] at h
    split at h
    · cases h
    · exact .inl h

theorem later_unlinked (s : SharedSpace) (name : String) : Later s (s.unlinked name) := by
  rcases unlinked_eq s name with e | e <;> rw [e]
  · exact .refl s
  · exact later_without s name

theorem later_store {memory old : Memory} (h : s.object? id = some (.segment size old)) :
    Later s (s.store id memory) where
  kept i len m hi := by
    rw [object?_store h]
    split
    · subst i
      cases h.symm.trans hi
      exact ⟨memory, rfl⟩
    · exact ⟨m, hi⟩
  fresh _ _ hn := .inl hn

end SharedSpace

namespace SegmentHandle

variable {s s' : SharedSpace} {h : SegmentHandle}

structure Backed (s : SharedSpace) (h : SegmentHandle) : Prop where
  object : s.object? h.object = some (.segment h.len (s.memory h.object))
  pos : 0 < h.len
  fits : h.len < UInt64.size
  aligned : h.base.toNat % Limits.segmentAlignment = 0
  /-- If a name leads to what is mapped, it is the handle's. -/
  named : ∀ n, s.find? n = some h.object → h.name.text = n

theorem Backed.later (hb : Backed s h) (hl : s.Later s') : Backed s' h where
  object := by
    obtain ⟨memory, hobject⟩ := hl.kept _ _ _ hb.object
    rw [SharedSpace.memory_eq hobject]
    exact hobject
  pos := hb.pos
  fits := hb.fits
  aligned := hb.aligned
  named n hn := by
    rcases hl.fresh n _ hn with hold | hnew
    · exact hb.named n hold
    · exact absurd (SharedSpace.lt_of_object? hb.object) (Nat.not_lt_of_le hnew)

theorem Backed.len_eq (hb : Backed s h) {len : Nat} {memory : Memory}
    (hobject : s.object? h.object = some (.segment len memory)) : h.len = len := by
  rw [hb.object, Option.some.injEq, Shared.segment.injEq] at hobject
  exact hobject.1

/-- How far a place is off does not depend on where the segment is mapped. -/
theorem Backed.add_mod (hb : Backed s h) {align : Nat}
    (align_dvd : align ∣ Limits.segmentAlignment) (offset : Nat) :
    (h.base.toNat + offset) % align = offset % align := by
  have hbase : h.base.toNat % align = 0 :=
    Nat.mod_eq_zero_of_dvd (Nat.dvd_trans align_dvd (Nat.dvd_of_mod_eq_zero hb.aligned))
  rw [Nat.add_mod, hbase, Nat.zero_add, Nat.mod_mod]

theorem later_drop (s : SharedSpace) (h : SegmentHandle) : s.Later (h.drop s) := by
  rw [SegmentHandle.drop]
  split
  · exact SharedSpace.later_unlinked ..
  · exact .refl s

theorem sound_drop (hs : s.Sound) (h : SegmentHandle) : (h.drop s).Sound := by
  rw [SegmentHandle.drop]
  split
  · exact hs.unlinked _
  · exact hs

theorem Attached.backed {given : String} {mode : Mode} (hs : s.Sound)
    (ha : Attached s given mode h) : Backed s h :=
  ⟨ha.object, ha.pos, hs.fits _ _ _ _ ha.found ha.object, ha.aligned,
    fun n hn => hs.single _ n _ ha.found hn⟩

theorem backed_ofMaker {name : SegmentName} {size : Nat} {base : UInt64}
    (hs : (s.add name.text (.segment size .zero)).1.Sound) (pos : 0 < size)
    (fits : size < UInt64.size) (aligned : base.toNat % Limits.segmentAlignment = 0) :
    Backed (s.add name.text (.segment size .zero)).1 (ofMaker s name size base) where
  object := by
    have hobject : (s.add name.text (.segment size .zero)).1.object? s.objects.size =
        some (.segment size .zero) := SharedSpace.object?_add.trans (if_pos rfl)
    rw [ofMaker, SharedSpace.memory_eq hobject]
    exact hobject
  pos := pos
  fits := fits
  aligned := aligned
  named n hn := hs.single _ n _ (SharedSpace.find?_add.trans (if_pos rfl)) hn

end SegmentHandle

theorem Foreign.size_lt (object : Foreign) (size : Nat) (memory : Memory)
    (h : object.shared = .segment size memory) : size < UInt64.size := by
  cases object with
  | file len content =>
    cases h
    exact len.toNat_lt
  | symlink | directory => cases h

namespace SegmentSession

variable {s s' : SegmentSession} {move : Move} {answer : Except Fault Unit}

structure Orderly (s : SegmentSession) : Prop where
  sound : s.space.Sound
  backed : ∀ k h, s.handle? k = some h → h.Backed s.space
  sole : ∀ k k' h h', s.handle? k = some h → s.handle? k' = some h' → h.isCreator = true →
    h'.isCreator = true → h.object = h'.object → k = k'

theorem orderly_empty : Orderly {} := ⟨SharedSpace.sound_empty, nofun, nofun⟩

theorem handle?_cons {space : SharedSpace} {number k : Nat} {h : SegmentHandle}
    {handles : List (Nat × SegmentHandle)} :
    ({ space, handles := (number, h) :: handles } : SegmentSession).handle? k =
      if k = number then some h else handles.lookup k :=
  lookup_cons_fst ..

theorem handle?_filter {space : SharedSpace} {number k : Nat}
    {handles : List (Nat × SegmentHandle)} :
    ({ space, handles := handles.filter (·.1 != number) } : SegmentSession).handle? k =
      if k = number then none else handles.lookup k :=
  lookup_filter_fst ..

/-- The space moves on under the same handles. -/
theorem Orderly.of_space (h : s.Orderly) {space : SharedSpace} (hs : space.Sound)
    (hl : s.space.Later space) : Orderly { s with space } :=
  ⟨hs, fun k x hk => (h.backed k x hk).later hl, h.sole⟩

/-- A new handle that is no maker's, or the maker's of an object that no handle maps. -/
theorem Orderly.keep (h : s.Orderly) {number : Nat} {x : SegmentHandle} (hx : x.Backed s.space)
    (hsole : x.isCreator = true → ∀ k y, s.handle? k = some y → y.object ≠ x.object) :
    Orderly { s with handles := (number, x) :: s.handles } where
  sound := h.sound
  backed k y hk := by
    rw [handle?_cons] at hk
    split at hk
    · cases hk
      exact hx
    · exact h.backed k y hk
  sole k k' y y' hk hk' hy hy' he := by
    rw [handle?_cons] at hk hk'
    split at hk
    · cases hk
      split at hk'
      · rename_i e e'
        rw [e, e']
      · exact absurd he.symm (hsole hy k' y' hk')
    · split at hk'
      · cases hk'
        exact absurd he (hsole hy' k y hk)
      · exact h.sole k k' y y' hk hk' hy hy' he

theorem Orderly.object_lt (h : s.Orderly) {k : Nat} {x : SegmentHandle}
    (hk : s.handle? k = some x) : x.object < s.space.objects.size :=
  SharedSpace.lt_of_object? (h.backed k x hk).object

/-- What a move makes of the space. -/
theorem space_turn (h : s.Orderly) (turn : s.Turn move s' answer) :
    s'.space.Sound ∧ s.space.Later s'.space := by
  have fits {size : Nat} {memory : Memory} (le : size ≤ Limits.segmentBytes) :
      ∀ size' memory', Shared.segment size memory = .segment size' memory' →
        size' < UInt64.size := by
    rintro _ _ ⟨⟩
    exact Nat.lt_of_le_of_lt le (by decide)
  cases turn with
  | refuse | forgo | attach => exact ⟨h.sound, .refl _⟩
  | retract => exact ⟨h.sound.push _, SharedSpace.later_push ..⟩
  | orphan number given size mishaps name known free le =>
    exact ⟨h.sound.add free (fits le), SharedSpace.later_add ..⟩
  | create number given size mishaps name base unused known free pos le aligned =>
    exact ⟨h.sound.add free (fits le), SharedSpace.later_add ..⟩
  | remove => exact ⟨h.sound.without _, SharedSpace.later_without ..⟩
  | drop number x here => exact ⟨SegmentHandle.sound_drop h.sound x, SegmentHandle.later_drop ..⟩
  | write number offset bytes x here writable within =>
    have hobject := (h.backed number x here).object
    exact ⟨h.sound.store hobject, SharedSpace.later_store hobject⟩
  | plant given object name known free =>
    exact ⟨h.sound.add free object.size_lt, SharedSpace.later_add ..⟩

theorem orderly_turn (h : s.Orderly) (turn : s.Turn move s' answer) : s'.Orderly := by
  obtain ⟨hs, hl⟩ := space_turn h turn
  cases turn with
  | refuse | forgo | retract | orphan | remove | write | plant => exact h.of_space hs hl
  | create number given size mishaps name base unused known free pos le aligned =>
    have fits : size < UInt64.size := Nat.lt_of_le_of_lt le (by decide)
    exact (h.of_space hs hl).keep (SegmentHandle.backed_ofMaker hs pos fits aligned)
      fun _ k y hk => Nat.ne_of_lt (h.object_lt hk)
  | attach number given mode mishaps x unused attached =>
    refine h.keep (attached.backed h.sound) fun hx => ?_
    cases attached.opener.symm.trans hx
  | drop number x here =>
    have hback : ∀ k y, (s.handles.filter (·.1 != number)).lookup k = some y →
        s.handle? k = some y := by
      intro k y hk
      rw [lookup_filter_fst] at hk
      split at hk
      · cases hk
      · exact hk
    exact ⟨hs, fun k y hk => (h.backed k y (hback k y hk)).later hl,
      fun k k' y y' hk hk' => h.sole k k' y y' (hback k y hk) (hback k' y' hk')⟩

/-- Whatever the handles go through, each has its segment behind it. -/
theorem orderly_run {moves : List Move} (h : s.Orderly) (hrun : s.run moves = some s') :
    s'.Orderly :=
  run_keeps (fun _ _ _ hk hm => orderly_turn hk (turn_of_fire hm)) h hrun

end SegmentSession

end Cadence
