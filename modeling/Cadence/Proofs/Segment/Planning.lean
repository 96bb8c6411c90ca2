import Cadence.Proofs.Rounding
import Cadence.Proofs.Segment.Placing

/-!
A plan and the segment that is made for it. The records of a plan lie one behind the other, each on a
cache line of its own, and the whole is as long as the plan says in the end; so each can be placed
where the plan put it, through every handle that may write and wherever that handle maps the segment.
-/

namespace Cadence

open Record (Extent Shape)

/-- A record that exists fits into memory, and a cache line suits it. -/
structure Record.Shape.Placeable (shape : Shape) : Prop where
  align_dvd : shape.align ∣ Limits.cacheLine
  size_le : shape.size ≤ Limits.allocationBytes

structure Berth where
  shape : Shape
  offset : UInt64

namespace Plan

variable {p q : Plan} {shape : Shape} {shapes : List Shape} {offset : UInt64} {berths : List Berth}

def addEach (p : Plan) : List Shape → Except Fault (List Berth × Plan)
  | [] => .ok ([], p)
  | shape :: shapes => do
    let (offset, p) ← p.add shape
    let (berths, p) ← p.addEach shapes
    return (⟨shape, offset⟩ :: berths, p)

theorem add_eq_ok (h : shape.Placeable) : p.add shape = .ok (offset, q) ↔
    offset.toNat = Extent.aligned p.used.toNat Limits.cacheLine ∧
      q.used.toNat = offset.toNat + shape.size := by
  have halign : max shape.align Limits.cacheLine = Limits.cacheLine :=
    Nat.max_eq_right (Nat.le_of_dvd (by decide) h.align_dvd)
  have hsize : (UInt64.ofNat shape.size).toNat = shape.size :=
    UInt64.toNat_ofNat_of_lt' (Nat.lt_of_le_of_lt h.size_le (by decide))
  rw [add, halign, reserve_eq_ok, hsize]
  exact and_iff_right ⟨6, rfl⟩

theorem addEach_cons_eq_ok {all : List Berth} : p.addEach (shape :: shapes) = .ok (all, q) ↔
    ∃ offset p' berths, p.add shape = .ok (offset, p') ∧ p'.addEach shapes = .ok (berths, q) ∧
      all = ⟨shape, offset⟩ :: berths := by
  rw [addEach, bind_eq_ok]
  refine ⟨?_, ?_⟩
  · rintro ⟨⟨offset, p'⟩, hadd, hrest⟩
    obtain ⟨⟨berths, q'⟩, hrest, ⟨⟩⟩ := bind_eq_ok.1 hrest
    exact ⟨offset, p', berths, hadd, hrest, rfl⟩
  · rintro ⟨offset, p', berths, hadd, hrest, rfl⟩
    exact ⟨(offset, p'), hadd, bind_eq_ok.2 ⟨(berths, q), hrest, rfl⟩⟩

structure Laid (start stop : Nat) (berths : List Berth) : Prop where
  within : ∀ b ∈ berths, start ≤ b.offset.toNat ∧ b.offset.toNat + b.shape.size ≤ stop
  aligned : ∀ b ∈ berths, Limits.cacheLine ∣ b.offset.toNat
  apart : berths.Pairwise fun a b => a.offset.toNat + a.shape.size ≤ b.offset.toNat
  le : start ≤ stop

theorem laid_addEach (placeable : ∀ shape ∈ shapes, shape.Placeable)
    (h : p.addEach shapes = .ok (berths, q)) : Laid p.used.toNat q.used.toNat berths := by
  induction shapes generalizing p berths with
  | nil =>
    cases h
    exact ⟨nofun, nofun, .nil, Nat.le_refl _⟩
  | cons shape shapes ih =>
    obtain ⟨offset, p', rest, hadd, hrest, rfl⟩ := addEach_cons_eq_ok.1 h
    obtain ⟨hoffset, hused⟩ := (add_eq_ok (placeable _ (.head _))).1 hadd
    have hlaid := ih (fun s hs => placeable s (.tail _ hs)) hrest
    have hle : p.used.toNat ≤ offset.toNat := hoffset ▸ Extent.le_aligned (by decide)
    have hdvd : Limits.cacheLine ∣ offset.toNat := hoffset ▸ Extent.dvd_aligned
    have hstop := hlaid.le
    refine ⟨?_, ?_, ?_, by omega⟩
    · rw [List.forall_mem_cons]
      refine ⟨⟨hle, by dsimp only; omega⟩, fun b hb => ?_⟩
      have := hlaid.within b hb
      omega
    · exact List.forall_mem_cons.2 ⟨hdvd, hlaid.aligned⟩
    · refine List.pairwise_cons.2 ⟨fun b hb => ?_, hlaid.apart⟩
      have := hlaid.within b hb
      dsimp only
      omega

theorem map_shape_addEach (h : p.addEach shapes = .ok (berths, q)) :
    berths.map (·.shape) = shapes := by
  induction shapes generalizing p berths with
  | nil =>
    cases h
    rfl
  | cons shape shapes ih =>
    obtain ⟨offset, p', rest, -, hrest, rfl⟩ := addEach_cons_eq_ok.1 h
    rw [List.map_cons, ih hrest]

/-- A segment as long as the plan says reaches behind the last record. -/
theorem used_le_of_finish {size : UInt64} (h : p.finish = .ok size) : p.used.toNat ≤ size.toNat := by
  have hsize := ((roundUp_eq_ok ⟨6, rfl⟩).1 h).2
  rw [hsize]
  exact Extent.le_aligned (by decide)

end Plan

namespace SegmentHandle

variable {s : SharedSpace} {h : SegmentHandle} {shape : Shape} {offset : Nat}

/-- When a record may be used in place, and what is wrong when it may not. -/
structure Judges (h : SegmentHandle) (shape : Shape) (offset : Nat) : Prop where
  accepts : h.checkPlace shape offset = .ok () ↔ h.mode = .readWrite ∧
    offset + shape.size ≤ h.len ∧ offset + shape.size < UInt64.size ∧ shape.align ∣ offset
  denies : h.mode ≠ .readWrite →
    h.checkPlace shape offset = .error (.permissionDenied "place on read-only segment")
  faults : h.mode = .readWrite → ∀ e, h.checkPlace shape offset = .error e →
    e = .invalidArgument (if offset + shape.size ≤ h.len then "offset misaligned for record type"
      else "range exceeds segment size")

theorem Backed.judges (hb : h.Backed s) (align_dvd : shape.align ∣ Limits.cacheLine) (offset : Nat) :
    h.Judges shape offset where
  accepts := by
    have hfits := hb.fits
    rw [checkPlace_eq_ok, hb.add_mod align_dvd, Nat.dvd_iff_mod_eq_zero]
    refine and_congr_right fun _ => ⟨?_, ?_⟩
    · rintro ⟨hle, hmod⟩
      exact ⟨hle, by omega, hmod⟩
    · rintro ⟨hle, -, hmod⟩
      exact ⟨hle, hmod⟩
  denies hmode := by
    unfold checkPlace checkWritable
    rw [if_neg hmode]
    rfl
  faults hmode e he := by
    unfold checkPlace at he
    rw [checkWritable_eq_ok.2 hmode] at he
    by_cases hrange : offset + shape.size ≤ h.len
    · rw [checkRange_eq_ok.2 hrange] at he
      by_cases hplace : (h.base.toNat + offset) % shape.align = 0
      · rw [ite_not, if_pos hplace] at he
        cases he
      · rw [ite_not, if_neg hplace] at he
        cases he
        rw [if_pos hrange]
    · rw [checkRange, if_neg hrange] at he
      cases he
      rw [if_neg hrange]

end SegmentHandle

namespace SegmentSession

variable {s s' : SegmentSession}

/-- What moves and the use of records lead to from here on. -/
inductive Onward (s : SegmentSession) : SegmentSession → Prop where
  | here : Onward s s
  | move {s' s'' : SegmentSession} {move : Move} (onward : Onward s s')
      (fired : s'.fire move = some s'') : Onward s s''
  | use {s' : SegmentSession} {number : Nat} {h : SegmentHandle} {ρ α : Type} {format : Record.Format ρ}
      {fresh : ρ} (onward : Onward s s') (here : s'.handle? number = some h)
      (placeable : format.Placeable fresh) (offset : Nat) (use : ρ → ρ × α) :
      Onward s (s'.withRecord h format offset use).1

/-- Segments stay, and keep their length. -/
theorem Onward.kept (ho : s.Orderly) (h : s.Onward s') {id : ObjectId} {len : Nat} {memory : Memory}
    (hid : s.space.object? id = some (.segment len memory)) :
    s'.Orderly ∧ ∃ memory', s'.space.object? id = some (.segment len memory') := by
  induction h with
  | here => exact ⟨ho, memory, hid⟩
  | move onward fired ih =>
    obtain ⟨ho', memory', hid'⟩ := ih
    have turn := turn_of_fire fired
    exact ⟨orderly_turn ho' turn, (space_turn ho' turn).2.kept _ _ _ hid'⟩
  | use onward here placeable offset use ih =>
    obtain ⟨ho', memory', hid'⟩ := ih
    obtain ⟨ho'', later, -⟩ := withRecord_keeps ho' here placeable.flat offset use
    exact ⟨ho'', later.kept _ _ _ hid'⟩

theorem kept_of_create {number : Nat} {given : String} {size : Nat} {mishaps : Mishaps}
    {made : SegmentHandle} (h : s.create number given size mishaps = (s', .ok made)) :
    s'.handle? number = some made ∧ made.len = size := by
  rw [SegmentSession.create] at h
  generalize (if s.hasRoom size then mishaps
    else { mishaps with mapFails := some .noMemory }) = m at h
  have making := SegmentHandle.making_of_create s.space given size m
  generalize SegmentHandle.create s.space given size m = result at making h
  obtain ⟨space, answer⟩ := result
  dsimp only at making
  cases making with
  | refuse | retract | orphan => cases h
  | make name known free pos le aligned =>
    cases h
    exact ⟨handle?_cons.trans (if_pos rfl), rfl⟩

/-- How the records of a plan lie in the segment of an object, and what else is placed in segments. -/
structure Accommodates (s : SegmentSession) (object : ObjectId) (berths : List Berth) : Prop where
  placed : ∀ number h, s.handle? number = some h → h.object = object → h.mode = .readWrite →
    ∀ b ∈ berths, h.checkPlace b.shape b.offset.toNat = .ok ()
  apart : berths.Pairwise fun a b => a.offset.toNat + a.shape.size ≤ b.offset.toNat
  lines : berths.Pairwise fun a b => 0 < a.shape.size → 0 < b.shape.size →
    a.offset.toNat / Limits.cacheLine ≠ b.offset.toNat / Limits.cacheLine
  judged : ∀ number h, s.handle? number = some h → ∀ shape : Shape, shape.Placeable →
    ∀ offset, h.Judges shape offset

/-- A segment is made as long as a plan says, which takes a length that is not zero and not too large.
Whatever is done from then on, by this program or others, the records can be placed where the plan put
them. -/
theorem accommodates_run {s₁ s₂ : SegmentSession} {shapes : List Shape} {berths : List Berth}
    {plan : Plan} {size : UInt64} {number : Nat} {given : String} {mishaps : Mishaps}
    {made : SegmentHandle} (placeable : ∀ shape ∈ shapes, shape.Placeable)
    (planned : Plan.empty.addEach shapes = .ok (berths, plan)) (finished : plan.finish = .ok size)
    (reached : s.Reached) (unused : s.handle? number = none)
    (created : s.create number given size.toNat mishaps = (s₁, .ok made)) (onward : s₁.Onward s₂) :
    s₂.Accommodates made.object berths := by
  have fired : s.fire (.create number given size.toNat mishaps) = some s₁ := by
    refine fire_eq_some.2 ⟨Option.isNone_iff_eq_none.2 unused, ?_⟩
    rw [serve, created]
  have ho₁ := (reached.move fired).orderly
  obtain ⟨here, hlen⟩ := kept_of_create created
  have hmade := (ho₁.backed number made here).object
  obtain ⟨ho₂, memory, hobject⟩ := onward.kept ho₁ hmade
  have hlaid := Plan.laid_addEach placeable planned
  refine ⟨?_, hlaid.apart, ?_, ?_⟩
  · intro k h hk maps writable b hb
    have hback := ho₂.backed k h hk
    have hsame : h.len = made.len := hback.len_eq (maps ▸ hobject)
    have hshape : b.shape ∈ shapes :=
      Plan.map_shape_addEach planned ▸ List.mem_map_of_mem hb
    have hdvd := (placeable _ hshape).align_dvd
    have hwithin := (hlaid.within b hb).2
    have hused := Plan.used_le_of_finish finished
    have hfits := hback.fits
    refine (hback.judges hdvd _).accepts.2 ⟨writable, by omega, by omega, ?_⟩
    exact Nat.dvd_trans hdvd (hlaid.aligned b hb)
  · refine hlaid.apart.imp_of_mem fun ha hb hapart hsize _ hline => ?_
    have ha' := Nat.div_mul_cancel (hlaid.aligned _ ha)
    have hb' := Nat.div_mul_cancel (hlaid.aligned _ hb)
    rw [hline] at ha'
    omega
  · intro k h hk shape hshape offset
    exact (ho₂.backed k h hk).judges hshape.align_dvd offset

/-- Bytes that reach into a second cache line, a word, and a word behind its lock. -/
def threeRecords : List Shape := [.array (.word 1) 65, .word 8, .guarded (.word 8)]

def threeBerths : List Berth :=
  [⟨.array (.word 1) 65, 0⟩, ⟨.word 8, 128⟩, ⟨.guarded (.word 8), 192⟩]

/-- The segment is opened again, elsewhere in memory, and then its name is taken away. -/
theorem accommodates_run_openedAgain :
    Plan.empty.addEach threeRecords = .ok (threeBerths, ⟨208⟩) ∧ Plan.finish ⟨208⟩ = .ok 256 ∧
    ∃ s₁ s₂ made h, ({} : SegmentSession).create 0 "a" 256 {} = (s₁, .ok made) ∧
      s₁.run [.attach 1 "/a" .readWrite { base := 8256 }, .remove "a"] = some s₂ ∧
      s₂.handle? 1 = some h ∧ h.object = made.object ∧ h.checkPlace (.word 8) 128 = .ok () ∧
      s₂.Accommodates made.object threeBerths := by
  have planned : Plan.empty.addEach threeRecords = .ok (threeBerths, ⟨208⟩) := by rfl
  have finished : Plan.finish ⟨208⟩ = .ok 256 := by rfl
  have placeable : ∀ shape ∈ threeRecords, shape.Placeable := by
    intro shape h
    simp only [threeRecords, List.mem_cons, List.not_mem_nil, or_false] at h
    rcases h with rfl | rfl | rfl <;> exact ⟨by decide, by decide⟩
  have hmade : (({} : SegmentSession).create 0 "a" 256 {}).2.toOption.any fun made =>
      ((({} : SegmentSession).create 0 "a" 256 {}).1.run
        [.attach 1 "/a" .readWrite { base := 8256 }, .remove "a"]).any fun s =>
          (s.handle? 1).any fun h => h.object = made.object ∧ h.mode = .readWrite := by
    decide +kernel
  rcases created : ({} : SegmentSession).create 0 "a" 256 {} with ⟨s₁, e | made⟩
  · rw [created] at hmade
    cases hmade
  rw [created] at hmade
  simp only [Except.toOption, Option.any_some, Option.any_eq_true, decide_eq_true_eq] at hmade
  obtain ⟨s₂, hrun, h, here, maps, writable⟩ := hmade
  have onward : s₁.Onward s₂ := run_keeps (fun _ _ _ h fired => h.move fired) .here hrun
  have hfits := accommodates_run placeable planned finished .start rfl created onward
  refine ⟨planned, finished, s₁, s₂, made, h, rfl, hrun, here, maps, ?_, hfits⟩
  exact hfits.placed 1 h here maps writable ⟨.word 8, 128⟩ (.tail _ (.head _))

end SegmentSession

end Cadence
