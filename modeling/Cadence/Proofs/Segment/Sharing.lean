import Cadence.Proofs.Segment.Backing

/-!
Bytes that handles share. What stands in an object is what was put there: by the program that planted
it, and then by whoever has written through a handle. Every handle of the object reads just that,
under whatever name, and nothing else that is done or refused changes a byte of any object.
-/

namespace Cadence

inductive Deed where
  | planted (object : ObjectId) (memory : Memory)
  | wrote (object : ObjectId) (offset : Nat) (bytes : List UInt8)

/-- What a deed leaves at a place, if it gets there. -/
def Deed.byte? (id : ObjectId) (a : Nat) : Deed → Option UInt8
  | planted object memory => if id = object then some (memory a) else none
  | wrote object offset bytes => if id = object ∧ offset ≤ a then bytes[a - offset]? else none

/-- What was last left at a place, the newest deed first. -/
def lastByte (deeds : List Deed) (id : ObjectId) (a : Nat) : UInt8 :=
  (deeds.findSome? (·.byte? id a)).getD 0

def Foreign.memory : Foreign → Memory
  | file _ memory => memory
  | _ => .zero

theorem Foreign.memory_shared (object : Foreign) : object.shared.memory = object.memory := by
  cases object <;> rfl

namespace SegmentSession

open SharedSpace (Mode)

def deed? (s : SegmentSession) : Move → Except Fault Unit → Option Deed
  | .write number offset bytes, .ok () =>
    (s.handle? number).map fun h => .wrote h.object offset bytes
  | .plant given object, .ok () =>
    match SegmentName.normalize given with
    | .ok name =>
      if s.space.isTaken name.text then none
      else some (.planted s.space.objects.size object.memory)
    | .error _ => none
  | _, _ => none

/-- What the moves of a run put into objects, the newest first. -/
def deeds (s : SegmentSession) : List Move → List Deed
  | [] => []
  | move :: moves => (s.serve move).1.deeds moves ++ (s.deed? move (s.serve move).2).toList

/-- The moves that can change a byte: writing there, and putting a new object there. -/
inductive Touches (s : SegmentSession) (id : ObjectId) (a : Nat) : Move → Prop where
  | write (number offset : Nat) (bytes : List UInt8) (h : SegmentHandle)
      (here : s.handle? number = some h) (writable : h.mode = .readWrite) (object : id = h.object)
      (above : offset ≤ a) (below : a < offset + bytes.length) :
      Touches s id a (.write number offset bytes)
  | plant (given : String) (object : Foreign) (new : id = s.space.objects.size) :
      Touches s id a (.plant given object)

variable {s s' : SegmentSession} {move : Move} {answer : Except Fault Unit} {id : ObjectId}
  {a : Nat}

theorem deed?_error (e : Fault) : s.deed? move (.error e) = none := by
  cases move <;> rfl

theorem deed?_write {number offset : Nat} {bytes : List UInt8} {h : SegmentHandle}
    (here : s.handle? number = some h) :
    s.deed? (.write number offset bytes) (.ok ()) = some (.wrote h.object offset bytes) := by
  rw [deed?, here]
  rfl

theorem deed?_plant {given : String} {object : Foreign} {name : SegmentName}
    (known : SegmentName.normalize given = .ok name) : s.deed? (.plant given object) (.ok ()) =
      if s.space.isTaken name.text then none
      else some (.planted s.space.objects.size object.memory) := by
  rw [deed?, known]

theorem deed?_forgo {given : String} {object : Foreign}
    (taken : ∀ name, SegmentName.normalize given = .ok name → s.space.isTaken name.text = true) :
    s.deed? (.plant given object) (.ok ()) = none := by
  cases known : SegmentName.normalize given with
  | ok name => rw [deed?_plant known, if_pos (taken name known)]
  | error e => rw [deed?, known]

theorem memory_write (id : ObjectId) {offset : Nat} {bytes : List UInt8} {memory : Memory} :
    memory.write offset bytes a =
      ((Deed.wrote id offset bytes).byte? id a).getD (memory a) := by
  rw [Memory.write_apply, Deed.byte?]
  simp only [true_and]

theorem memory_turn (ho : s.Orderly) (turn : s.Turn move s' answer) : s'.space.memory id a =
    ((s.deed? move answer).bind (·.byte? id a)).getD (s.space.memory id a) := by
  have hzero : ∀ object : Shared, object.memory = .zero →
      (if id = s.space.objects.size then object.memory else s.space.memory id) =
        s.space.memory id := by
    intro object hobject
    split
    · rename_i hid
      rw [hobject, hid, SharedSpace.memory_fresh]
    · rfl
  cases turn with
  | refuse move e =>
    rw [deed?_error]
    rfl
  | forgo given object taken =>
    rw [deed?_forgo taken]
    rfl
  | retract number given size len mishaps e =>
    rw [SharedSpace.memory_push rfl, hzero _ rfl]
    rfl
  | orphan =>
    rw [SharedSpace.memory_add, hzero _ rfl]
    rfl
  | create number given size mishaps name base unused known free pos le aligned =>
    rw [SharedSpace.memory_add, hzero _ rfl]
    rfl
  | attach => rfl
  | remove => rfl
  | drop number h here =>
    change (h.drop s.space).memory id a = s.space.memory id a
    rw [SharedSpace.memory, SegmentHandle.object?_drop, SharedSpace.memory]
  | write number offset bytes h here writable fits =>
    rw [SharedSpace.memory_store (ho.backed number h here).object, deed?_write here,
      Option.bind_some]
    split
    · rename_i hid
      rw [memory_write id, hid]
    · rename_i hid
      rw [Deed.byte?, if_neg fun e => hid e.1]
      rfl
  | plant given object name known free =>
    rw [SharedSpace.memory_add, deed?_plant known, free, if_neg Bool.false_ne_true,
      Foreign.memory_shared]
    dsimp only [Option.bind_some, Deed.byte?]
    split <;> rfl

theorem memory_run {moves : List Move} (ho : s.Orderly) (hrun : s.run moves = some s') :
    s'.space.memory id a =
      ((s.deeds moves).findSome? (·.byte? id a)).getD (s.space.memory id a) := by
  induction moves generalizing s with
  | nil =>
    obtain rfl : s = s' := Option.some.inj hrun
    rfl
  | cons move moves ih =>
    obtain ⟨s₁, hfire, hrun⟩ := foldlM_cons_eq_some.1 hrun
    have turn := turn_of_fire hfire
    rw [ih (orderly_turn ho turn) hrun, memory_turn ho turn, deeds, (fire_eq_some.1 hfire).2,
      List.findSome?_append, Option.getD_or]
    cases s.deed? move (s.serve move).2 with
    | none => rfl
    | some deed => rw [Option.toList_some, List.findSome?_singleton, Option.bind_some]

/-- What is refused changes no byte, and what changes one is a write that gets there, or an object
that was not there before. -/
theorem touches_of_turn (ho : s.Orderly) (turn : s.Turn move s' answer)
    (changed : s'.space.memory id a ≠ s.space.memory id a) :
    answer = .ok () ∧ s.Touches id a move := by
  rw [memory_turn ho turn] at changed
  have still (hdeed : s.deed? move answer = none) : False := by
    rw [hdeed] at changed
    exact changed rfl
  cases turn with
  | refuse move e => exact (still (deed?_error e)).elim
  | forgo given object taken => exact (still (deed?_forgo taken)).elim
  | retract | orphan | create | attach | remove | drop => exact (still rfl).elim
  | write number offset bytes h here writable fits =>
    rw [deed?_write here, Option.bind_some, Deed.byte?] at changed
    split at changed
    · rename_i hid
      refine ⟨rfl, .write number offset bytes h here writable hid.1 hid.2 ?_⟩
      rcases Nat.lt_or_ge a (offset + bytes.length) with below | beyond
      · exact below
      · rw [List.getElem?_eq_none (by omega)] at changed
        exact (changed rfl).elim
    · exact (changed rfl).elim
  | plant given object name known free =>
    rw [deed?_plant known, free, if_neg Bool.false_ne_true, Option.bind_some, Deed.byte?] at changed
    split at changed
    · exact ⟨rfl, .plant given object ‹_›⟩
    · exact (changed rfl).elim

end SegmentSession

namespace SegmentHandle

variable {s space : SharedSpace} {h h' : SegmentHandle} {offset count : Nat} {bytes : List UInt8}

theorem len_alike (hb : Backed s h) (hb' : Backed s h') (same : h.object = h'.object) :
    h.len = h'.len :=
  hb.len_eq (same ▸ hb'.object)

theorem readAt_alike (hb : Backed s h) (hb' : Backed s h') (same : h.object = h'.object) :
    h.readAt s offset count = h'.readAt s offset count := by
  simp only [readAt, checkRange, same, len_alike hb hb' same]

/-- What is written through one handle is read through another of the same object. -/
theorem readAt_writeAt (hb : Backed s h) (hb' : Backed s h') (same : h.object = h'.object)
    (hwrite : h.writeAt s offset bytes = .ok space) :
    h'.readAt space offset bytes.length = .ok bytes := by
  obtain ⟨-, fits, rfl⟩ := writeAt_eq_ok.1 hwrite
  rw [readAt_eq_ok, ← len_alike hb hb' same, ← same, SharedSpace.memory_store hb.object, if_pos rfl]
  exact ⟨fits, (Memory.read_write rfl).symm⟩

/-- A write through a handle of another object leaves the bytes that a handle reads. -/
theorem readAt_other (hb : Backed s h) (apart : h'.object ≠ h.object)
    (hwrite : h.writeAt s offset bytes = .ok space) {from_ : Nat} :
    h'.readAt space from_ count = h'.readAt s from_ count := by
  obtain ⟨-, -, rfl⟩ := writeAt_eq_ok.1 hwrite
  simp only [readAt, SharedSpace.memory_store hb.object, if_neg apart]

theorem shares_iff (hb : Backed s h) (hb' : Backed s h') (writable : h.mode = .readWrite) :
    h.object = h'.object ↔ ∀ offset bytes space, h.writeAt s offset bytes = .ok space →
      h'.readAt space offset bytes.length = .ok bytes := by
  refine ⟨fun same _ _ _ => readAt_writeAt hb hb' same, fun hall => ?_⟩
  by_cases apart : h'.object = h.object
  · exact apart.symm
  -- a byte that is not the one in front of the other object
  have hwrite : h.writeAt s 0 [s.memory h'.object 0 + 1] = .ok _ :=
    writeAt_eq_ok.2 ⟨writable, hb.pos, rfl⟩
  have hread := hall _ _ _ hwrite
  rw [readAt_other hb apart hwrite, readAt_eq_ok] at hread
  have hbyte : s.memory h'.object 0 + 1 = s.memory h'.object 0 := (List.cons.inj hread.2).1
  exact absurd hbyte (by simp)

theorem withRecord_readOnly {ρ α : Type} {format : Record.Format ρ} {use : ρ → ρ × α}
    (readOnly : h.mode = .readOnly) : h.withRecord s format offset use =
      .error (.permissionDenied "place on read-only segment") := by
  refine withRecord_of_error ?_
  rw [checkPlace, checkWritable, readOnly]
  rfl

end SegmentHandle

namespace SegmentSession

open SharedSpace (Mode)

/-- How handles and bytes stand after a run, given what was put into objects. -/
structure Sharing (s : SegmentSession) (deeds : List Deed) : Prop where
  sized : ∀ k h, s.handle? k = some h →
    0 < h.len ∧ ∃ memory, s.space.object? h.object = some (.segment h.len memory)
  last : ∀ k h offset count bytes, s.handle? k = some h →
    h.readAt s.space offset count = .ok bytes →
    bytes = (List.range count).map fun i => lastByte deeds h.object (offset + i)
  readable : ∀ k h offset count, s.handle? k = some h →
    ((∃ bytes, h.readAt s.space offset count = .ok bytes) ↔
      offset + count < UInt64.size ∧ offset + count ≤ h.len)
  writable : ∀ k h offset bytes, s.handle? k = some h →
    ((∃ space, h.writeAt s.space offset bytes = .ok space) ↔ h.mode = .readWrite ∧
      offset + bytes.length < UInt64.size ∧ offset + bytes.length ≤ h.len)
  alike : ∀ k k' h h' offset count, s.handle? k = some h → s.handle? k' = some h' →
    h.object = h'.object → h.readAt s.space offset count = h'.readAt s.space offset count
  shares : ∀ k k' h h', s.handle? k = some h → s.handle? k' = some h' → h.mode = .readWrite →
    (h.object = h'.object ↔ ∀ offset bytes space, h.writeAt s.space offset bytes = .ok space →
      h'.readAt space offset bytes.length = .ok bytes)
  /-- Every other byte stays what it is, and all of them do if the move is refused. -/
  still : ∀ move s', s.fire move = some s' → ∀ id a,
    s'.space.memory id a ≠ s.space.memory id a →
    (s.serve move).2 = .ok () ∧ s.Touches id a move
  /-- Nor is a record used through a handle that may not write. -/
  unplaced : ∀ k h, s.handle? k = some h → h.mode = .readOnly →
    ∀ {ρ α : Type} (format : Record.Format ρ) (offset : Nat) (use : ρ → ρ × α),
      s.withRecord h format offset use =
        (s, .error (.permissionDenied "place on read-only segment"))
  /-- Whoever creates has an object that was not there before, and the name leads to it. -/
  made : ∀ number given size mishaps s', s.fire (.create number given size mishaps) = some s' →
    (s.serve (.create number given size mishaps)).2 = .ok () →
    ∃ name h, SegmentName.normalize given = .ok name ∧ s'.handle? number = some h ∧
      h.len = size ∧ h.mode = .readWrite ∧ s.space.object? h.object = none ∧
      s.space.find? name.text = none ∧ s'.space.find? name.text = some h.object ∧
      s'.space.memory h.object = .zero
  /-- Whoever opens has the object that the name leads to. -/
  bound : ∀ number given mode mishaps s', s.fire (.attach number given mode mishaps) = some s' →
    (s.serve (.attach number given mode mishaps)).2 = .ok () →
    ∃ name h, SegmentName.normalize given = .ok name ∧ s'.handle? number = some h ∧
      h.mode = mode ∧ s.space.find? name.text = some h.object
  /-- A handle stays what it is until it is dropped. -/
  steady : ∀ move s' k h, s.fire move = some s' → s.handle? k = some h → move ≠ .drop k →
    s'.handle? k = some h

variable {s s' : SegmentSession} {move : Move} {answer : Except Fault Unit}

theorem made_of_turn {number : Nat} {given : String} {size : Nat} {mishaps : Mishaps}
    (turn : s.Turn (.create number given size mishaps) s' (.ok ())) :
    ∃ name h, SegmentName.normalize given = .ok name ∧ s'.handle? number = some h ∧
      h.len = size ∧ h.mode = .readWrite ∧ s.space.object? h.object = none ∧
      s.space.find? name.text = none ∧ s'.space.find? name.text = some h.object ∧
      s'.space.memory h.object = .zero := by
  cases turn with
  | create _ _ _ _ name base unused known free pos le aligned =>
    exact ⟨name, _, known, handle?_cons.trans (if_pos rfl), rfl, rfl,
      SharedSpace.object?_eq_none.2 (Nat.le_refl _), (SharedSpace.isTaken_eq_false.1 free).2,
      SharedSpace.find?_add.trans (if_pos rfl), SharedSpace.memory_add.trans (if_pos rfl)⟩

theorem bound_of_turn {number : Nat} {given : String} {mode : Mode} {mishaps : Mishaps}
    (turn : s.Turn (.attach number given mode mishaps) s' (.ok ())) :
    ∃ name h, SegmentName.normalize given = .ok name ∧ s'.handle? number = some h ∧
      h.mode = mode ∧ s.space.find? name.text = some h.object := by
  cases turn with
  | attach _ _ _ _ h unused attached =>
    exact ⟨h.name, h, attached.known, handle?_cons.trans (if_pos rfl), attached.mode,
      attached.found⟩

theorem handle?_turn {k : Nat} {h : SegmentHandle} (turn : s.Turn move s' answer)
    (here : s.handle? k = some h) (other : move ≠ .drop k) : s'.handle? k = some h := by
  have ne_of_unused {number : Nat} (unused : s.handle? number = none) : k ≠ number := by
    rintro rfl
    cases here.symm.trans unused
  cases turn with
  | refuse | forgo | retract | orphan | remove | write | plant => exact here
  | create number _ _ _ _ _ unused | attach number _ _ _ _ unused =>
    exact handle?_cons.trans ((if_neg (ne_of_unused unused)).trans here)
  | drop number x _ =>
    have hne : k ≠ number := fun e => other (e ▸ rfl)
    exact handle?_filter.trans ((if_neg hne).trans here)

theorem shared_run {moves : List Move} {s : SegmentSession}
    (hrun : ({} : SegmentSession).run moves = some s) :
    s.Sharing (({} : SegmentSession).deeds moves) := by
  have ho := orderly_run orderly_empty hrun
  have hbyte : ∀ id, s.space.memory id = lastByte (({} : SegmentSession).deeds moves) id :=
    fun id => funext fun a => memory_run orderly_empty hrun
  exact {
    sized := fun k h here => ⟨(ho.backed k h here).pos, _, (ho.backed k h here).object⟩
    last := fun k h offset count bytes here hread => by
      rw [(SegmentHandle.readAt_eq_ok.1 hread).2, hbyte]
      rfl
    readable := fun k h offset count here => by
      have hfits := (ho.backed k h here).fits
      simp only [SegmentHandle.readAt_eq_ok]
      exact ⟨fun ⟨_, hrange, _⟩ => ⟨by omega, hrange⟩, fun ⟨_, hrange⟩ => ⟨_, hrange, rfl⟩⟩
    writable := fun k h offset bytes here => by
      have hfits := (ho.backed k h here).fits
      simp only [SegmentHandle.writeAt_eq_ok]
      exact ⟨fun ⟨_, hmode, hrange, _⟩ => ⟨hmode, by omega, hrange⟩,
        fun ⟨hmode, _, hrange⟩ => ⟨_, hmode, hrange, rfl⟩⟩
    alike := fun k k' h h' offset count here here' =>
      SegmentHandle.readAt_alike (ho.backed k h here) (ho.backed k' h' here')
    shares := fun k k' h h' here here' =>
      SegmentHandle.shares_iff (ho.backed k h here) (ho.backed k' h' here')
    still := fun move s' hfire id a => touches_of_turn ho (turn_of_fire hfire)
    unplaced := fun k h here readOnly ρ α format offset use => by
      rw [SegmentSession.withRecord, SegmentHandle.withRecord_readOnly readOnly]
    made := fun number given size mishaps s' hfire hok =>
      made_of_turn (hok ▸ turn_of_fire hfire)
    bound := fun number given mode mishaps s' hfire hok =>
      bound_of_turn (hok ▸ turn_of_fire hfire)
    steady := fun move s' k h hfire here => handle?_turn (turn_of_fire hfire) here }

/-- A segment is read under a name that has been removed and made anew. -/
def outlived : List Move :=
  [.create 0 "a" 8 {}, .attach 1 "/a" .readOnly {}, .write 0 2 [1, 2], .remove "a",
    .create 2 "a" 8 {}, .write 2 0 [9], .drop 0]

theorem shared_run_outlived : ∃ s h, ({} : SegmentSession).run outlived = some s ∧
    s.handle? 1 = some h ∧ (h.readAt s.space 0 5).toOption = some [0, 0, 1, 2, 0] ∧
    s.Sharing (({} : SegmentSession).deeds outlived) := by
  have hstate : (({} : SegmentSession).run outlived).any (fun s =>
      (s.handle? 1).any fun h => (h.readAt s.space 0 5).toOption = some [0, 0, 1, 2, 0]) =
        true := by
    decide +kernel
  simp only [Option.any_eq_true, decide_eq_true_eq] at hstate
  obtain ⟨s, hrun, h, here, hread⟩ := hstate
  exact ⟨s, h, hrun, here, hread, shared_run hrun⟩

end SegmentSession

end Cadence
