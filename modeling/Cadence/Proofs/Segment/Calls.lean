import Cadence.Segment.Handle

/-!
What the calls on shared names come to. Making a segment either leaves the names alone, or gives the
name to a fresh object of zeros; only a mapping without an address is answered with a fault and keeps
the name. Whatever else a call answers, the objects that were there before are what they were.
-/

namespace Cadence

open SharedSpace (Mode)

theorem Fault.ofErrno_ne_notFound (call : String) (e : Errno) (name : FaultName) :
    ofErrno call e ≠ .notFound name := by
  rw [ofErrno]
  split
  · exact nofun
  · split
    · exact nofun
    · split
      · exact nofun
      · exact nofun

theorem Fault.ofErrno_ne_alreadyExists (call : String) (e : Errno) (name : FaultName) :
    ofErrno call e ≠ .alreadyExists name := by
  rw [ofErrno]
  split
  · exact nofun
  · split
    · exact nofun
    · split
      · exact nofun
      · exact nofun

/-- Every step succeeds, and yet the mapping is nowhere. -/
structure Mishaps.Nowhere (m : Mishaps) : Prop where
  opens : m.openFails = none
  sizes : m.sizeFails = none
  maps : m.mapFails = none
  base : m.base = 0

namespace SegmentHandle

variable {s s' : SharedSpace} {given : String} {name : SegmentName} {size : Nat}
  {mishaps : Mishaps} {mode : Mode}

/-- The handle of whoever made the last object. -/
def ofMaker (s : SharedSpace) (name : SegmentName) (size : Nat) (base : UInt64) : SegmentHandle :=
  { name, object := s.objects.size, len := size, mode := .readWrite, isCreator := true, base }

/-- What making a segment can come to. -/
inductive Making (s : SharedSpace) (given : String) (size : Nat) (mishaps : Mishaps) :
    SharedSpace → Except Fault SegmentHandle → Prop where
  /-- Nothing has happened. -/
  | refuse (e : Fault) : Making s given size mishaps s (.error e)
  /-- The object is there, and its name has been taken back. -/
  | retract (len : Nat) (e : Fault) :
      Making s given size mishaps { s with objects := s.objects.push (.segment len .zero) }
        (.error e)
  /-- The mapping has no address, and the name is kept. -/
  | orphan (name : SegmentName) (known : SegmentName.normalize given = .ok name)
      (free : s.isTaken name.text = false) (le : size ≤ Limits.segmentBytes)
      (nowhere : mishaps.Nowhere) :
      Making s given size mishaps (s.add name.text (.segment size .zero)).1 (.error noAddress)
  | make (name : SegmentName) (known : SegmentName.normalize given = .ok name)
      (free : s.isTaken name.text = false) (pos : 0 < size) (le : size ≤ Limits.segmentBytes)
      (aligned : mishaps.base.toNat % Limits.segmentAlignment = 0) :
      Making s given size mishaps (s.add name.text (.segment size .zero)).1
        (.ok (ofMaker s name size mishaps.base))

theorem unlinked_add (free : s.isTaken name.text = false) :
    (s.add name.text (.segment size .zero)).1.unlinked name.text =
      { s with objects := s.objects.push (.segment size .zero) } := by
  obtain ⟨hdot, hfind⟩ := SharedSpace.isTaken_eq_false.1 free
  have hname : (s.add name.text (.segment size .zero)).1.find? name.text = some s.objects.size := by
    rw [SharedSpace.find?_add, if_pos rfl]
  have hobject : (s.add name.text (.segment size .zero)).1.object? s.objects.size =
      some (.segment size .zero) := by
    rw [SharedSpace.object?_add, if_pos rfl]
  rw [SharedSpace.unlinked_of_segment hdot hname hobject, SharedSpace.without_add hfind]

theorem create_of_malformed {e : Fault} (h : SegmentName.normalize given = .error e) :
    create s given size mishaps = (s, .error e) := by
  simp only [create, h]

theorem create_of_size (known : SegmentName.normalize given = .ok name)
    (h : size = 0 ∨ size > Limits.segmentBytes) :
    create s given size mishaps = (s, .error (.invalidArgument "segment size out of range")) := by
  simp only [create, known, if_pos h]

theorem create_of_openFails {e : Errno} (known : SegmentName.normalize given = .ok name)
    (hsize : ¬ (size = 0 ∨ size > Limits.segmentBytes)) (h : mishaps.openFails = some e) :
    create s given size mishaps = (s, .error (nameFault "shm_open" name e)) := by
  simp only [create, known, if_neg hsize, h]
  rfl

theorem create_of_isTaken (known : SegmentName.normalize given = .ok name)
    (hsize : ¬ (size = 0 ∨ size > Limits.segmentBytes)) (hopen : mishaps.openFails = none)
    (taken : s.isTaken name.text = true) :
    create s given size mishaps = (s, .error (.alreadyExistsAs name.text)) := by
  simp only [create, known, if_neg hsize, hopen, SharedSpace.create, if_pos taken]
  rfl

/-- What happens once the name is the caller's. -/
theorem create_of_free (known : SegmentName.normalize given = .ok name)
    (hsize : ¬ (size = 0 ∨ size > Limits.segmentBytes)) (hopen : mishaps.openFails = none)
    (free : s.isTaken name.text = false) :
    create s given size mishaps = match mishaps.sizeFails, mishaps.mapFails with
      | some e, _ => ({ s with objects := s.objects.push (.segment 0 .zero) },
          .error (.ofErrno "ftruncate" e))
      | none, some e => ({ s with objects := s.objects.push (.segment size .zero) },
          .error (.ofErrno "mmap" e))
      | none, none =>
        if mishaps.base = 0 then
          ((s.add name.text (.segment size .zero)).1, .error noAddress)
        else if mishaps.base.toNat % Limits.segmentAlignment = 0 then
          ((s.add name.text (.segment size .zero)).1, .ok (ofMaker s name size mishaps.base))
        else ({ s with objects := s.objects.push (.segment size .zero) },
          .error (.invalidArgument "mapping not aligned to a cache line")) := by
  have hcreate : s.create name.text = .ok (s.add name.text (.segment 0 .zero)) := by
    rw [SharedSpace.create, free]
    rfl
  have hresize : ∀ len, (s.add name.text (.segment 0 .zero)).1.resize
      (s.add name.text (.segment 0 .zero)).2 len = (s.add name.text (.segment len .zero)).1 :=
    fun _ => SharedSpace.resize_add
  simp only [create, known, if_neg hsize, hopen, Option.elim_none, hcreate, hresize]
  cases hs : mishaps.sizeFails with
  | some e =>
    simp only [Option.isSome_some, ↓reduceIte, unlinked_add free]
  | none =>
    cases hm : mishaps.mapFails with
    | some e => simp only [Option.isSome_none, Bool.false_eq_true, ↓reduceIte, unlinked_add free]
    | none =>
      by_cases hnone : mishaps.base = 0
      · simp only [Option.isSome_none, Bool.false_eq_true, ↓reduceIte, if_pos hnone]
      · by_cases haligned : mishaps.base.toNat % Limits.segmentAlignment = 0
        · simp only [Option.isSome_none, Bool.false_eq_true, ↓reduceIte, if_neg hnone, checkBase,
            if_pos haligned]
          rfl
        · simp only [Option.isSome_none, Bool.false_eq_true, ↓reduceIte, if_neg hnone, checkBase,
            if_neg haligned, drop, unlinked_add free]

/-- Only the names and objects of before, and one more. -/
theorem making_of_create (s : SharedSpace) (given : String) (size : Nat) (mishaps : Mishaps) :
    Making s given size mishaps (create s given size mishaps).1
      (create s given size mishaps).2 := by
  cases known : SegmentName.normalize given with
  | error e =>
    rw [create_of_malformed known]
    exact .refuse e
  | ok name =>
    by_cases hsize : size = 0 ∨ size > Limits.segmentBytes
    · rw [create_of_size known hsize]
      exact .refuse _
    cases hopen : mishaps.openFails with
    | some e =>
      rw [create_of_openFails known hsize hopen]
      exact .refuse _
    | none =>
      cases free : s.isTaken name.text with
      | true =>
        rw [create_of_isTaken known hsize hopen free]
        exact .refuse _
      | false =>
        rw [create_of_free known hsize hopen free]
        split
        · exact .retract 0 _
        · exact .retract size _
        · split
          · exact .orphan name known free (by omega) ⟨hopen, ‹_›, ‹_›, ‹_›⟩
          · split
            · exact .make name known free (by omega) (by omega) ‹_›
            · exact .retract size _

/-! Opening asks for the object behind the name and does nothing to the space. -/

theorem reach_eq_segment {name : String} {id : ObjectId}
    (h : s.reach name mode = .ok (.segment id size)) :
    SharedSpace.isDot name = false ∧ s.find? name = some id ∧
      s.object? id = some (.segment size (s.memory id)) := by
  rw [SharedSpace.reach] at h
  split at h
  · cases mode <;> cases h
  · rename_i hdot
    split at h
    · cases h
    · rename_i id' hfind
      split at h
      · rename_i hobject
        cases h
        exact ⟨Bool.eq_false_iff.2 hdot, hfind, SharedSpace.memory_eq hobject ▸ hobject⟩
      · cases h
      · cases mode <;> cases h
      · cases h

theorem attach_of_malformed {e : Fault} (h : SegmentName.normalize given = .error e) :
    attach s given mode mishaps = .error e := by
  rw [attach, h]
  rfl

theorem attach_of_error {e : Errno} (known : SegmentName.normalize given = .ok name)
    (h : mishaps.openFails.elim (s.reach name.text mode) .error = .error e) :
    attach s given mode mishaps = .error (nameFault "shm_open" name e) := by
  simp only [attach, known, h, bind, Except.bind]
  rfl

theorem attach_of_directory (known : SegmentName.normalize given = .ok name)
    (h : mishaps.openFails.elim (s.reach name.text mode) .error = .ok .directory) :
    attach s given mode mishaps = match mishaps.sizeFails with
      | some e => .error (.ofErrno "fstat" e)
      | none => .error (.ofErrno "mmap" .noDevice) := by
  simp only [attach, known, h, bind, Except.bind]
  cases mishaps.sizeFails <;> rfl

theorem attach_of_segment {object : ObjectId} {len : Nat}
    (known : SegmentName.normalize given = .ok name)
    (h : mishaps.openFails.elim (s.reach name.text mode) .error = .ok (.segment object len)) :
    attach s given mode mishaps = match mishaps.sizeFails with
      | some e => .error (.ofErrno "fstat" e)
      | none =>
        if len = 0 then .error (.invalidArgument "shared memory object has zero size")
        else match mishaps.mapFails with
          | some e => .error (.ofErrno "mmap" e)
          | none =>
            if mishaps.base = 0 then .error noAddress
            else if mishaps.base.toNat % Limits.segmentAlignment = 0 then
              .ok { name, object, len, mode, isCreator := false, base := mishaps.base }
            else .error (.invalidArgument "mapping not aligned to a cache line") := by
  have hreached := congrArg (Except.mapError (nameFault "shm_open" name)) h
  change _ = Except.ok (SharedSpace.Reached.segment object len) at hreached
  simp only [attach, known, hreached, bind, Except.bind]
  cases mishaps.sizeFails with
  | some e => rfl
  | none =>
    by_cases hlen : len = 0
    · simp only [if_pos hlen]
      rfl
    · simp only [if_neg hlen]
      cases mishaps.mapFails with
      | some e => rfl
      | none =>
        by_cases hnone : mishaps.base = 0
        · simp only [if_pos hnone]
          rfl
        · by_cases haligned : mishaps.base.toNat % Limits.segmentAlignment = 0
          · simp only [if_neg hnone, checkBase, if_pos haligned]
            rfl
          · simp only [if_neg hnone, checkBase, if_neg haligned]

/-- What an opened handle has behind it. -/
structure Attached (s : SharedSpace) (given : String) (mode : Mode) (h : SegmentHandle) : Prop where
  known : SegmentName.normalize given = .ok h.name
  plain : SharedSpace.isDot h.name.text = false
  found : s.find? h.name.text = some h.object
  object : s.object? h.object = some (.segment h.len (s.memory h.object))
  pos : 0 < h.len
  aligned : h.base.toNat % Limits.segmentAlignment = 0
  mode : h.mode = mode
  opener : h.isCreator = false

theorem attached_of_attach {h : SegmentHandle} (ha : attach s given mode mishaps = .ok h) :
    Attached s given mode h := by
  cases known : SegmentName.normalize given with
  | error e =>
    rw [attach_of_malformed known] at ha
    cases ha
  | ok name =>
    cases hreach : mishaps.openFails.elim (s.reach name.text mode) .error with
    | error e =>
      rw [attach_of_error known hreach] at ha
      cases ha
    | ok reached =>
      cases reached with
      | directory =>
        rw [attach_of_directory known hreach] at ha
        split at ha <;> cases ha
      | segment object len =>
        rw [attach_of_segment known hreach] at ha
        split at ha
        · cases ha
        split at ha
        · cases ha
        split at ha
        · cases ha
        split at ha
        · cases ha
        split at ha
        · rename_i hlen _ _ _ haligned
          cases ha
          cases hopen : mishaps.openFails with
          | some e =>
            rw [hopen] at hreach
            cases hreach
          | none =>
            rw [hopen] at hreach
            obtain ⟨hdot, hfind, hobject⟩ := reach_eq_segment hreach
            exact ⟨known, hdot, hfind, hobject, Nat.pos_of_ne_zero hlen, haligned, rfl, rfl⟩
        · cases ha

/-- What is dropped takes no object along. -/
theorem object?_drop (h : SegmentHandle) (id : ObjectId) :
    (h.drop s).object? id = s.object? id := by
  rw [drop]
  split
  · exact SharedSpace.object?_unlinked
  · rfl

/-! Bytes are copied within the mapping, and in only where it may be written. -/

section

variable {h : SegmentHandle} {offset count : Nat} {bytes : List UInt8}

theorem checkRange_eq_ok : h.checkRange offset count = .ok () ↔ offset + count ≤ h.len := by
  rw [checkRange]
  split
  · exact iff_of_true rfl ‹_›
  · exact iff_of_false nofun ‹_›

theorem checkWritable_eq_ok {operation : String} :
    h.checkWritable operation = .ok () ↔ h.mode = .readWrite := by
  rw [checkWritable]
  split
  · exact iff_of_true rfl ‹_›
  · exact iff_of_false nofun ‹_›

/-- A check in front of something passes first. -/
theorem check_bind_eq_ok {α : Type} {check : Except Fault Unit} {next : Except Fault α} {a : α} :
    (check >>= fun _ => next) = .ok a ↔ check = .ok () ∧ next = .ok a := by
  cases check with
  | error e => exact iff_of_false nofun fun h => nomatch h.1
  | ok _ => exact (and_iff_right rfl).symm

theorem readAt_eq_ok : h.readAt s offset count = .ok bytes ↔
    offset + count ≤ h.len ∧ bytes = (s.memory h.object).read offset count := by
  rw [readAt, check_bind_eq_ok, checkRange_eq_ok]
  exact and_congr_right fun _ =>
    ⟨fun e => (Except.ok.inj e).symm, fun e => congrArg Except.ok e.symm⟩

theorem writeAt_eq_ok : h.writeAt s offset bytes = .ok s' ↔
    h.mode = .readWrite ∧ offset + bytes.length ≤ h.len ∧
      s' = s.store h.object ((s.memory h.object).write offset bytes) := by
  rw [writeAt, check_bind_eq_ok, check_bind_eq_ok, checkWritable_eq_ok, checkRange_eq_ok]
  exact and_congr_right fun _ => and_congr_right fun _ =>
    ⟨fun e => (Except.ok.inj e).symm, fun e => congrArg Except.ok e.symm⟩

theorem checkPlace_eq_ok {shape : Record.Shape} : h.checkPlace shape offset = .ok () ↔
    h.mode = .readWrite ∧ offset + shape.size ≤ h.len ∧
      (h.base.toNat + offset) % shape.align = 0 := by
  rw [checkPlace, check_bind_eq_ok, check_bind_eq_ok, checkWritable_eq_ok, checkRange_eq_ok]
  refine and_congr_right fun _ => and_congr_right fun _ => ?_
  by_cases hplace : (h.base.toNat + offset) % shape.align = 0
  · rw [ite_not, if_pos hplace]
    exact iff_of_true rfl hplace
  · rw [ite_not, if_neg hplace]
    exact iff_of_false nofun hplace

variable {ρ α : Type} {format : Record.Format ρ} {use : ρ → ρ × α}

theorem withRecord_of_ok (placed : h.checkPlace format.shape offset = .ok ()) :
    h.withRecord s format offset use =
      .ok (s.store h.object (format.write (use (format.read (s.memory h.object) offset)).1
        (s.memory h.object) offset), (use (format.read (s.memory h.object) offset)).2) := by
  rw [withRecord, placed]
  rfl

theorem withRecord_of_error {e : Fault} (refused : h.checkPlace format.shape offset = .error e) :
    h.withRecord s format offset use = .error e := by
  rw [withRecord, refused]
  rfl

end

/-! Taking a name away by hand. -/

theorem remove_of_error {e : Errno} (known : SegmentName.normalize given = .ok name)
    (h : s.unlink name.text = .error e) :
    remove s given = (s, .error (nameFault "shm_unlink" name e)) := by
  simp only [remove, known, h]

theorem remove_of_ok (known : SegmentName.normalize given = .ok name)
    (h : s.unlink name.text = .ok s') : remove s given = (s', .ok ()) := by
  simp only [remove, known, h]

theorem remove_of_malformed {e : Fault} (h : SegmentName.normalize given = .error e) :
    remove s given = (s, .error e) := by
  simp only [remove, h]

end SegmentHandle

end Cadence
