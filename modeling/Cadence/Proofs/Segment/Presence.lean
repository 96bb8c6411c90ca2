import Cadence.Proofs.Segment.Backing
import Cadence.Proofs.Segment.Naming

/-!
Whether a name is there. Four calls look at a name, each in its own way and with its own faults;
they agree on whether it is there, whatever stands behind it: a segment, an empty file, a link to
nowhere or a directory. A call that fails leaves every name there or not there, unless it made a
segment and was then given a mapping without an address: that name is there from then on.
-/

namespace Cadence

open SharedSpace (Mode)

namespace SharedSpace

variable {s : SharedSpace} {name : String} {mode : Mode}

theorem openDirectory_ne : openDirectory mode ≠ .error .noEntry := by
  cases mode with
  | readOnly => exact nofun
  | readWrite => exact fun e => absurd (Except.error.inj e) (by decide)

/-- Only what no name leads to is missing. -/
theorem reach_eq_noEntry (hs : s.Sound) (mode : Mode) :
    s.reach name mode = .error .noEntry ↔ s.isTaken name = false := by
  rw [reach]
  split
  · rename_i hdot
    rw [isTaken_of_isDot hdot]
    exact iff_of_false openDirectory_ne (by decide)
  · rename_i hdot
    split
    · rename_i hfind
      exact iff_of_true rfl (isTaken_eq_false.2 ⟨Bool.eq_false_iff.2 hdot, hfind⟩)
    · rename_i id hfind
      rw [isTaken_of_find? hfind]
      refine iff_of_false ?_ (by decide)
      split
      · exact fun e => by cases e
      · exact fun e => absurd (Except.error.inj e) (by decide)
      · exact openDirectory_ne
      · rename_i hnone
        exact absurd (object?_eq_none.1 hnone) (Nat.not_le_of_lt (hs.found name id hfind))

theorem isTaken_add {object : Shared} {other : String} :
    (s.add name object).1.isTaken other = true ↔ s.isTaken other = true ∨ other = name := by
  rw [isTaken, isTaken, find?_add]
  split
  · rename_i heq
    exact iff_of_true (Bool.or_true _) (.inr heq)
  · rename_i hne
    exact (or_iff_left hne).symm

theorem unlink_eq_noEntry : s.unlink name = .error .noEntry ↔ s.isTaken name = false := by
  rw [unlink]
  split
  · rename_i hdot
    rw [isTaken_of_isDot hdot]
    exact iff_of_false (fun e => absurd (Except.error.inj e) (by decide)) (by decide)
  · rename_i hdot
    split
    · rename_i hfind
      exact iff_of_true rfl (isTaken_eq_false.2 ⟨Bool.eq_false_iff.2 hdot, hfind⟩)
    · rename_i id hfind
      rw [isTaken_of_find? hfind]
      refine iff_of_false ?_ (by decide)
      split
      · exact fun e => absurd (Except.error.inj e) (by decide)
      · exact fun e => by cases e

end SharedSpace

namespace SegmentHandle

variable {s : SharedSpace} {given : String} {name : SegmentName} {size : Nat} {mishaps : Mishaps}
  {mode : Mode} {f : FaultName}

theorem nameFault_eq_notFound {call : String} {e : Errno} :
    nameFault call name e = .notFound f ↔ e = .noEntry ∧ .ofString name.text = f := by
  rw [nameFault]
  split
  · rename_i he
    rw [he]
    exact iff_of_false nofun fun h => absurd h.1 (by decide)
  · split
    · rename_i he
      rw [Fault.notFoundAs, Fault.notFound.injEq, and_iff_right he]
    · rename_i he
      refine iff_of_false ?_ fun h => he h.1
      split
      · exact nofun
      · exact Fault.ofErrno_ne_notFound _ _ _

theorem isPresent_of_known (hs : s.Sound) (known : SegmentName.normalize given = .ok name) :
    isPresent s given = s.isTaken name.text := by
  rw [isPresent, known]
  cases taken : s.isTaken name.text with
  | false =>
    dsimp only
    rw [(SharedSpace.reach_eq_noEntry hs _).2 taken]
    rfl
  | true =>
    have hreach : s.reach name.text .readOnly ≠ .error .noEntry := fun h => by
      rw [(SharedSpace.reach_eq_noEntry hs _).1 h] at taken
      cases taken
    dsimp only
    split
    · rfl
    · rename_i e he
      rw [bne_iff_ne]
      rintro rfl
      exact hreach he

theorem isPresent_of_malformed {e : Fault} (h : SegmentName.normalize given = .error e) :
    isPresent s given = false := by
  rw [isPresent, h]

theorem create_eq_alreadyExists (known : SegmentName.normalize given = .ok name) (pos : 0 < size)
    (le : size ≤ Limits.segmentBytes) (opens : mishaps.openFails = none) :
    (create s given size mishaps).2 = .error (.alreadyExists f) ↔
      s.isTaken name.text = true ∧ .ofString name.text = f := by
  have hsize : ¬ (size = 0 ∨ size > Limits.segmentBytes) := by omega
  cases taken : s.isTaken name.text with
  | true =>
    rw [create_of_isTaken known hsize opens taken, Fault.alreadyExistsAs, Except.error.injEq,
      Fault.alreadyExists.injEq, and_iff_right rfl]
  | false =>
    rw [create_of_free known hsize opens taken]
    refine iff_of_false ?_ fun h => nomatch h.1
    split
    · exact fun e => Fault.ofErrno_ne_alreadyExists _ _ _ (Except.error.inj e)
    · exact fun e => Fault.ofErrno_ne_alreadyExists _ _ _ (Except.error.inj e)
    · split
      · exact nofun
      · split <;> exact nofun

theorem attach_eq_notFound (hs : s.Sound) (known : SegmentName.normalize given = .ok name)
    (opens : mishaps.openFails = none) (mode : Mode) :
    attach s given mode mishaps = .error (.notFound f) ↔
      s.isTaken name.text = false ∧ .ofString name.text = f := by
  rw [← SharedSpace.reach_eq_noEntry hs mode]
  have hreach :
      mishaps.openFails.elim (s.reach name.text mode) .error = s.reach name.text mode := by
    rw [opens]
    rfl
  cases reached : s.reach name.text mode with
  | error e =>
    rw [attach_of_error known (hreach.trans reached), Except.error.injEq, Except.error.injEq,
      nameFault_eq_notFound]
  | ok reached' =>
    refine iff_of_false ?_ fun h => nomatch h.1
    cases reached' with
    | directory =>
      rw [attach_of_directory known (hreach.trans reached)]
      split
      · exact fun e => Fault.ofErrno_ne_notFound _ _ _ (Except.error.inj e)
      · exact fun e => Fault.ofErrno_ne_notFound _ _ _ (Except.error.inj e)
    | segment id len =>
      rw [attach_of_segment known (hreach.trans reached)]
      split
      · exact fun e => Fault.ofErrno_ne_notFound _ _ _ (Except.error.inj e)
      · split
        · exact nofun
        · split
          · exact fun e => Fault.ofErrno_ne_notFound _ _ _ (Except.error.inj e)
          · split
            · exact nofun
            · split <;> exact nofun

theorem remove_eq_notFound (known : SegmentName.normalize given = .ok name) :
    (remove s given).2 = .error (.notFound f) ↔
      s.isTaken name.text = false ∧ .ofString name.text = f := by
  rw [← SharedSpace.unlink_eq_noEntry]
  cases unlinked : s.unlink name.text with
  | error e =>
    rw [remove_of_error known unlinked, Except.error.injEq, Except.error.injEq,
      nameFault_eq_notFound]
  | ok s' =>
    rw [remove_of_ok known unlinked]
    exact iff_of_false nofun fun h => nomatch h.1

/-- A name that is free is made if nothing fails on the way. -/
theorem create_of_free_of_well (known : SegmentName.normalize given = .ok name) (pos : 0 < size)
    (le : size ≤ Limits.segmentBytes) (free : s.isTaken name.text = false)
    (opens : mishaps.openFails = none) (sizes : mishaps.sizeFails = none)
    (maps : mishaps.mapFails = none) (somewhere : mishaps.base ≠ 0)
    (aligned : mishaps.base.toNat % Limits.segmentAlignment = 0) :
    create s given size mishaps = ((s.add name.text (.segment size .zero)).1,
      .ok (ofMaker s name size mishaps.base)) := by
  rw [create_of_free known (by omega) opens free, sizes, maps, if_neg somewhere, if_pos aligned]

/-- A malformed name is an argument's fault. -/
theorem normalize_error {e : Fault} (h : SegmentName.normalize given = .error e) :
    ∃ reason, e = .invalidArgument reason := by
  rw [SegmentName.normalize] at h
  split at h
  · exact ⟨_, (Except.error.inj h).symm⟩
  split at h
  · exact ⟨_, (Except.error.inj h).symm⟩
  split at h
  · exact ⟨_, (Except.error.inj h).symm⟩
  · cases h

/-- What a fault about a name spells: as much of the name as a fault has room for. -/
theorem text_of_carried (known : SegmentName.normalize given = .ok name)
    (carried : .ofString name.text = f) :
    f.text = .ofList (Text.fitting Limits.faultNameBytes ('/' :: SegmentName.bare given)) := by
  rw [← carried, BoundedText.text_of_bytes (BoundedText.bytes_ofString (by decide) _),
    SegmentName.text_of_normalize known, String.toList_ofList]

end SegmentHandle

namespace SegmentSession

variable {s s' : SegmentSession} {move : Move} {given : String} {name : SegmentName}
  {number size : Nat} {mode : Mode} {mishaps : Mishaps} {f : FaultName}

theorem create_eq_alreadyExists (known : SegmentName.normalize given = .ok name) (pos : 0 < size)
    (le : size ≤ Limits.segmentBytes) (opens : mishaps.openFails = none) :
    (s.create number given size mishaps).2 = .error (.alreadyExists f) ↔
      s.space.isTaken name.text = true ∧ .ofString name.text = f := by
  rw [SegmentSession.create]
  generalize hm :
    (if s.hasRoom size then mishaps else { mishaps with mapFails := some .noMemory }) = m
  have opens : m.openFails = none := by
    rw [← hm]
    split <;> exact opens
  rw [← SegmentHandle.create_eq_alreadyExists known pos le opens]
  split
  · rename_i made
    rw [made]
  · rename_i failed
    rw [failed]

theorem attach_eq_notFound (ho : s.Orderly) (known : SegmentName.normalize given = .ok name)
    (opens : mishaps.openFails = none) :
    (s.attach number given mode mishaps).2 = .error (.notFound f) ↔
      s.space.isTaken name.text = false ∧ .ofString name.text = f := by
  rw [SegmentSession.attach, ← SegmentHandle.attach_eq_notFound ho.sound known opens mode]
  split
  · rename_i he
    rw [he]
    refine iff_of_false ?_ fun e => by cases e
    split
    · exact fun e => by cases e
    · exact fun e => Fault.ofErrno_ne_notFound _ _ _ (Except.error.inj e)
  · rename_i he
    rw [he]

/-- Presence hangs on the names alone. -/
theorem isPresent_congr (hs : s.space.Sound) (hs' : s'.space.Sound)
    (names : s'.space.names = s.space.names) (given : String) :
    SegmentHandle.isPresent s'.space given = SegmentHandle.isPresent s.space given := by
  cases known : SegmentName.normalize given with
  | error e =>
    rw [SegmentHandle.isPresent_of_malformed known, SegmentHandle.isPresent_of_malformed known]
  | ok name =>
    rw [SegmentHandle.isPresent_of_known hs known, SegmentHandle.isPresent_of_known hs' known,
      SharedSpace.isTaken, SharedSpace.isTaken, SharedSpace.find?, SharedSpace.find?, names]

/-- One more name is there, and the others are as they were. -/
theorem isPresent_add {object : Shared} (hs : s.space.Sound) (hs' : s'.space.Sound)
    (known : SegmentName.normalize given = .ok name)
    (added : s'.space = (s.space.add name.text object).1) (other : String) :
    SegmentHandle.isPresent s'.space other = true ↔
      SegmentHandle.isPresent s.space other = true ∨ SegmentName.normalize other = .ok name := by
  cases known' : SegmentName.normalize other with
  | error e =>
    rw [SegmentHandle.isPresent_of_malformed known', SegmentHandle.isPresent_of_malformed known']
    exact iff_of_false nofun (by rintro (h | h) <;> cases h)
  | ok name' =>
    rw [SegmentHandle.isPresent_of_known hs known', SegmentHandle.isPresent_of_known hs' known',
      added, SharedSpace.isTaken_add, SegmentName.text_inj known' known, Except.ok.injEq]

def cut (given : String) : String :=
  .ofList (Text.fitting Limits.faultNameBytes ('/' :: SegmentName.bare given))

/-- How the calls on names agree, as long as the system opens names at all. What fails later, such as
the mapping, does not matter. -/
structure Agreed (s : SegmentSession) : Prop where
  created : ∀ given name number size mishaps, SegmentName.normalize given = .ok name →
    0 < size → size ≤ Limits.segmentBytes → mishaps.openFails = none →
    (SegmentHandle.isPresent s.space given = true ↔
      ∃ f, (s.create number given size mishaps).2 = .error (.alreadyExists f)) ∧
    ∀ f, (s.create number given size mishaps).2 = .error (.alreadyExists f) → f.text = cut given
  attached : ∀ given name number mode mishaps, SegmentName.normalize given = .ok name →
    mishaps.openFails = none →
    (SegmentHandle.isPresent s.space given = true ↔
      ∀ f, (s.attach number given mode mishaps).2 ≠ .error (.notFound f)) ∧
    ∀ f, (s.attach number given mode mishaps).2 = .error (.notFound f) → f.text = cut given
  removed : ∀ given name, SegmentName.normalize given = .ok name →
    (SegmentHandle.isPresent s.space given = true ↔
      ∀ f, (s.remove given).2 ≠ .error (.notFound f)) ∧
    ∀ f, (s.remove given).2 = .error (.notFound f) → f.text = cut given
  /-- What is not there can be made, and is there then. -/
  absent : ∀ given name number size mishaps s', SegmentName.normalize given = .ok name →
    SegmentHandle.isPresent s.space given = false → 0 < size → size ≤ Limits.segmentBytes →
    s.hasRoom size = true → mishaps.openFails = none → mishaps.sizeFails = none →
    mishaps.mapFails = none → mishaps.base ≠ 0 →
    mishaps.base.toNat % Limits.segmentAlignment = 0 →
    s.fire (.create number given size mishaps) = some s' →
    (∃ h, (s.create number given size mishaps).2 = .ok h) ∧
      SegmentHandle.isPresent s'.space given = true
  /-- What fails leaves every name there or not there, or else it made a segment that was mapped
  nowhere, and that name is there now. -/
  kept : ∀ move s' e, s.fire move = some s' → (s.serve move).2 = .error e →
    (∀ given, SegmentHandle.isPresent s'.space given = SegmentHandle.isPresent s.space given) ∨
    ∃ number given size mishaps name, move = .create number given size mishaps ∧
      s.hasRoom size = true ∧ mishaps.Nowhere ∧ e = SegmentHandle.noAddress ∧
      SegmentName.normalize given = .ok name ∧ SegmentHandle.isPresent s.space given = false ∧
      ∀ other, SegmentHandle.isPresent s'.space other = true ↔
        SegmentHandle.isPresent s.space other = true ∨ SegmentName.normalize other = .ok name
  malformed : ∀ given e, SegmentName.normalize given = .error e →
    (∃ reason, e = .invalidArgument reason) ∧
    (∀ number size mishaps, (s.create number given size mishaps).2 = .error e) ∧
    (∀ number mode mishaps, (s.attach number given mode mishaps).2 = .error e) ∧
    (s.remove given).2 = .error e ∧ SegmentHandle.isPresent s.space given = false

theorem created_absent (ho : s.Orderly) (known : SegmentName.normalize given = .ok name)
    (free : s.space.isTaken name.text = false) (pos : 0 < size) (le : size ≤ Limits.segmentBytes)
    (room : s.hasRoom size = true) (opens : mishaps.openFails = none)
    (sizes : mishaps.sizeFails = none) (maps : mishaps.mapFails = none)
    (somewhere : mishaps.base ≠ 0) (aligned : mishaps.base.toNat % Limits.segmentAlignment = 0)
    (hfire : s.fire (.create number given size mishaps) = some s') :
    (∃ h, (s.create number given size mishaps).2 = .ok h) ∧
      SegmentHandle.isPresent s'.space given = true := by
  have hmade := SegmentHandle.create_of_free_of_well known pos le free opens sizes maps somewhere
    aligned
  have hcreate : s.create number given size mishaps =
      ({ s with space := (s.space.add name.text (.segment size .zero)).1 }.keep number
        (.ofMaker s.space name size mishaps.base),
        .ok (.ofMaker s.space name size mishaps.base)) := by
    rw [SegmentSession.create, room, if_pos rfl, hmade]
  have hok : (s.serve (.create number given size mishaps)).2 = .ok () := by
    rw [serve, hcreate]
    rfl
  refine ⟨⟨_, congrArg Prod.snd hcreate⟩, ?_⟩
  have turn := turn_of_fire hfire
  rw [SegmentHandle.isPresent_of_known (orderly_turn ho turn).sound known]
  rw [hok] at turn
  cases turn with
  | create _ _ _ _ name' _ _ known' =>
    cases known.symm.trans known'
    exact SharedSpace.isTaken_of_find? (SharedSpace.find?_add.trans (if_pos rfl))

theorem kept_of_failure {e : Fault} (ho : s.Orderly) (turn : s.Turn move s' (.error e)) :
    (∀ given, SegmentHandle.isPresent s'.space given = SegmentHandle.isPresent s.space given) ∨
    ∃ number given size mishaps name, move = .create number given size mishaps ∧
      s.hasRoom size = true ∧ mishaps.Nowhere ∧ e = SegmentHandle.noAddress ∧
      SegmentName.normalize given = .ok name ∧ SegmentHandle.isPresent s.space given = false ∧
      ∀ other, SegmentHandle.isPresent s'.space other = true ↔
        SegmentHandle.isPresent s.space other = true ∨ SegmentName.normalize other = .ok name := by
  have hs' := (orderly_turn ho turn).sound
  cases turn with
  | refuse | retract => exact .inl (isPresent_congr ho.sound hs' rfl)
  | orphan number given size mishaps name known free le room nowhere =>
    exact .inr ⟨number, given, size, mishaps, name, rfl, room, nowhere, rfl, known,
      (SegmentHandle.isPresent_of_known ho.sound known).trans free,
      isPresent_add ho.sound hs' known rfl⟩

theorem agreed_run {moves : List Move} {s : SegmentSession}
    (hrun : ({} : SegmentSession).run moves = some s) : s.Agreed := by
  have ho := orderly_run orderly_empty hrun
  have present {given : String} {name : SegmentName}
      (known : SegmentName.normalize given = .ok name) :
      SegmentHandle.isPresent s.space given = s.space.isTaken name.text :=
    SegmentHandle.isPresent_of_known ho.sound known
  -- what is missing for a call is missing indeed
  have missing {given : String} {name : SegmentName} {answer : FaultName → Prop}
      (known : SegmentName.normalize given = .ok name)
      (h : ∀ f, answer f ↔ s.space.isTaken name.text = false ∧ .ofString name.text = f) :
      (SegmentHandle.isPresent s.space given = true ↔ ∀ f, ¬ answer f) ∧
        ∀ f, answer f → f.text = cut given := by
    rw [present known]
    refine ⟨⟨fun taken f hf => ?_, fun hall => ?_⟩, fun f hf =>
      SegmentHandle.text_of_carried known ((h f).1 hf).2⟩
    · cases taken.symm.trans ((h f).1 hf).1
    · rw [← Bool.not_eq_false]
      exact fun free => hall _ ((h _).2 ⟨free, rfl⟩)
  exact {
    created := fun given name number size mishaps known pos le opens => by
      have h (f : FaultName) : (s.create number given size mishaps).2 = .error (.alreadyExists f) ↔
          s.space.isTaken name.text = true ∧ .ofString name.text = f :=
        create_eq_alreadyExists known pos le opens
      rw [present known]
      exact ⟨⟨fun taken => ⟨_, (h _).2 ⟨taken, rfl⟩⟩, fun ⟨f, hf⟩ => ((h f).1 hf).1⟩,
        fun f hf => SegmentHandle.text_of_carried known ((h f).1 hf).2⟩
    attached := fun given name number mode mishaps known opens =>
      missing known fun f => attach_eq_notFound ho known opens
    removed := fun given name known =>
      missing known fun f => SegmentHandle.remove_eq_notFound known
    absent := fun given name number size mishaps s' known gone pos le room opens sizes maps
        somewhere aligned hfire =>
      created_absent ho known ((present known).symm.trans gone) pos le room opens sizes maps
        somewhere aligned hfire
    kept := fun move s' e hfire failed => kept_of_failure ho (failed ▸ turn_of_fire hfire)
    malformed := fun given e known => by
      refine ⟨SegmentHandle.normalize_error known, fun number size mishaps => ?_,
        fun number mode mishaps => ?_, ?_, SegmentHandle.isPresent_of_malformed known⟩
      · rw [SegmentSession.create, SegmentHandle.create_of_malformed known]
      · rw [SegmentSession.attach, SegmentHandle.attach_of_malformed known]
      · rw [SegmentSession.remove, SegmentHandle.remove_of_malformed known] }

/-- What other programs have put there, and a segment whose maker is gone. -/
def populated : List Move :=
  [.plant "d" .directory, .plant "l" .symlink, .plant "z" (.file 0 .zero), .create 0 "a" 64 {},
    .drop 0]

theorem agreed_run_populated : ∃ s, ({} : SegmentSession).run populated = some s ∧
    ["d", "l", "z", "a"].map (SegmentHandle.isPresent s.space) = [true, true, true, false] ∧
    s.Agreed := by
  have hstate : (({} : SegmentSession).run populated).any (fun s =>
      ["d", "l", "z", "a"].map (SegmentHandle.isPresent s.space) = [true, true, true, false]) =
        true := by
    decide +kernel
  simp only [Option.any_eq_true, decide_eq_true_eq] at hstate
  obtain ⟨s, hrun, hpresent⟩ := hstate
  exact ⟨s, hrun, hpresent, agreed_run hrun⟩

/-- A first call that makes a segment and is given no address for it: it fails, and its name, which
was not there, is there. -/
theorem failed_create_makes_present : ¬ ∀ (moves : List Move) (s s' : SegmentSession) (move : Move)
    (e : Fault), ({} : SegmentSession).run moves = some s → s.fire move = some s' →
    (s.serve move).2 = .error e → ∀ given,
      SegmentHandle.isPresent s'.space given = SegmentHandle.isPresent s.space given := by
  intro hall
  obtain ⟨hfails, hthere, hnot⟩ :
      (({} : SegmentSession).serve (.create 0 "a" 64 { base := 0 })).2.toOption = none ∧
      SegmentHandle.isPresent
        (({} : SegmentSession).serve (.create 0 "a" 64 { base := 0 })).1.space "a" = true ∧
      SegmentHandle.isPresent ({} : SegmentSession).space "a" = false := by
    decide +kernel
  rcases hserve : ({} : SegmentSession).serve (.create 0 "a" 64 { base := 0 }) with ⟨s', e | made⟩
  · have hsame := hall [] {} s' (.create 0 "a" 64 { base := 0 }) e rfl
      (fire_eq_some.2 ⟨rfl, by rw [hserve]⟩) (by rw [hserve]) "a"
    rw [hserve] at hthere
    rw [hthere, hnot] at hsame
    cases hsame
  · rw [hserve] at hfails
    cases hfails

end SegmentSession

end Cadence
