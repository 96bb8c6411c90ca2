import Cadence.Proofs.Segment.Traffic

/-!
What calls on shared names leave behind. Opening a segment does nothing to the names. Making one
adds its name and nothing else; if a step fails on the way, the name is taken back, with one
exception: a mapping without an address is answered with a fault, and the name stays behind without
a handle that could let go of it.
-/

namespace Cadence

open SharedSpace (Mode)

namespace SharedSpace

variable {s : SharedSpace} {name : String} {object : Shared} {size : Nat}

/-- The same names lead to the same objects, and these are what they were. -/
structure SameNames (s s' : SharedSpace) : Prop where
  names : s'.names = s.names
  objects : ∀ id object, s.object? id = some object → s'.object? id = some object

/-- One more name, which leads to zeros that were not there before. -/
structure Gained (s s' : SharedSpace) (name : String) (id : ObjectId) (size : Nat) : Prop where
  free : s.isTaken name = false
  names : s'.names = (name, id) :: s.names
  absent : s.object? id = none
  zeros : s'.object? id = some (.segment size .zero)
  objects : ∀ i object, s.object? i = some object → s'.object? i = some object

theorem SameNames.refl (s : SharedSpace) : s.SameNames s := ⟨rfl, fun _ _ h => h⟩

theorem sameNames_push (s : SharedSpace) (object : Shared) :
    s.SameNames { s with objects := s.objects.push object } := by
  refine ⟨rfl, fun id old hold => ?_⟩
  rw [object?, Array.getElem?_push, if_neg (Nat.ne_of_lt (lt_of_object? hold))]
  exact hold

theorem gained_add (free : s.isTaken name = false) :
    s.Gained (s.add name (.segment size .zero)).1 name s.objects.size size where
  free := free
  names := rfl
  absent := object?_eq_none.2 (Nat.le_refl _)
  zeros := object?_add.trans (if_pos rfl)
  objects i old hold := by
    rw [object?_add, if_neg (Nat.ne_of_lt (lt_of_object? hold))]
    exact hold

end SharedSpace

namespace SegmentHandle

variable {s s' : SharedSpace} {given : String} {name : SegmentName} {size : Nat}
  {mishaps : Mishaps} {h : SegmentHandle} {e : Fault}

theorem gained_of_create (made : create s given size mishaps = (s', .ok h)) :
    SegmentName.normalize given = .ok h.name ∧ s.Gained s' h.name.text h.object size := by
  have making := making_of_create s given size mishaps
  rw [made] at making
  cases making with
  | make name known free => exact ⟨known, SharedSpace.gained_add free⟩

theorem sameNames_of_create (failed : create s given size mishaps = (s', .error e))
    (somewhere : ¬ mishaps.Nowhere) : s.SameNames s' := by
  have making := making_of_create s given size mishaps
  rw [failed] at making
  cases making with
  | refuse => exact .refl _
  | retract => exact SharedSpace.sameNames_push _ _
  | orphan name known free le nowhere => exact absurd nowhere somewhere

theorem create_of_nowhere (known : SegmentName.normalize given = .ok name) (pos : 0 < size)
    (le : size ≤ Limits.segmentBytes) (free : s.isTaken name.text = false)
    (nowhere : mishaps.Nowhere) : create s given size mishaps =
      ((s.add name.text (.segment size .zero)).1, .error noAddress) := by
  rw [create_of_free known (by omega) nowhere.opens free, nowhere.sizes, nowhere.maps,
    if_pos nowhere.base]

end SegmentHandle

namespace SegmentSession

variable {s s' : SegmentSession} {given : String} {number size : Nat} {mode : Mode}
  {mishaps : Mishaps} {h : SegmentHandle} {e : Fault}

theorem create_eq_ok (unused : s.handle? number = none)
    (made : s.create number given size mishaps = (s', .ok h)) :
    SegmentHandle.create s.space given size (s.amid size mishaps) = (s'.space, .ok h) ∧
      s'.handles = (number, h) :: s.handles := by
  rw [SegmentSession.create, ← amid] at made
  split at made
  · rename_i space h' hcreate
    rw [keep_of_unused unused] at made
    cases made
    exact ⟨hcreate, rfl⟩
  · cases made

theorem create_eq_error (failed : s.create number given size mishaps = (s', .error e)) :
    SegmentHandle.create s.space given size (s.amid size mishaps) = (s'.space, .error e) ∧
      s'.handles = s.handles := by
  rw [SegmentSession.create, ← amid] at failed
  split at failed
  · cases failed
  · rename_i space e' hcreate
    cases failed
    exact ⟨hcreate, rfl⟩

/-- What a call with a number that is free leaves behind. -/
structure Retracts (s : SegmentSession) (number : Nat) (given : String) (mishaps : Mishaps) :
    Prop where
  made : ∀ size s' h, s.create number given size mishaps = (s', .ok h) →
    SegmentName.normalize given = .ok h.name ∧
      s.space.Gained s'.space h.name.text h.object size ∧ s'.handles = (number, h) :: s.handles
  retracted : ∀ size s' e, s.create number given size mishaps = (s', .error e) →
    ¬ (s.hasRoom size = true ∧ mishaps.Nowhere) →
    s.space.SameNames s'.space ∧ s'.handles = s.handles
  /-- A mapping without an address keeps it, and there is no handle to let go of it. -/
  orphaned : ∀ size name, SegmentName.normalize given = .ok name → 0 < size →
    size ≤ Limits.segmentBytes → s.space.isTaken name.text = false → s.hasRoom size = true →
    mishaps.Nowhere → ∃ s',
      s.create number given size mishaps = (s', .error SegmentHandle.noAddress) ∧
      s.space.Gained s'.space name.text s.space.objects.size size ∧ s'.handles = s.handles
  opened : ∀ mode s' h, s.attach number given mode mishaps = (s', .ok h) →
    s'.space = s.space ∧ s'.handles = (number, h) :: s.handles
  unopened : ∀ mode s' e, s.attach number given mode mishaps = (s', .error e) → s' = s

theorem retracts_unused (s : SegmentSession) (number : Nat) (given : String) (mishaps : Mishaps)
    (unused : s.handle? number = none) : s.Retracts number given mishaps where
  made size s' h made := by
    obtain ⟨hcreate, handles⟩ := create_eq_ok unused made
    obtain ⟨known, gained⟩ := SegmentHandle.gained_of_create hcreate
    exact ⟨known, gained, handles⟩
  retracted size s' e failed somewhere := by
    obtain ⟨hcreate, handles⟩ := create_eq_error failed
    exact ⟨SegmentHandle.sameNames_of_create hcreate (mt nowhere_amid.1 somewhere), handles⟩
  orphaned size name known pos le free room nowhere := by
    have hcreate := SegmentHandle.create_of_nowhere known pos le free
      (nowhere_amid.2 ⟨room, nowhere⟩)
    refine ⟨{ s with space := (s.space.add name.text (.segment size .zero)).1 }, ?_,
      SharedSpace.gained_add free, rfl⟩
    rw [SegmentSession.create, ← amid, hcreate]
  opened mode s' h opened := by
    rw [SegmentSession.attach] at opened
    split at opened
    · split at opened
      · rw [show s.keep number _ = _ from keep_of_unused unused] at opened
        cases opened
        exact ⟨rfl, rfl⟩
      · cases opened
    · cases opened
  unopened mode s' e failed := by
    rw [SegmentSession.attach] at failed
    split at failed
    · split at failed
      · cases failed
      · exact (congrArg Prod.fst failed).symm
    · exact (congrArg Prod.fst failed).symm

/-- A program that has one segment, and the next one is mapped beside a cache line. -/
theorem retracts_unused_misaligned :
    (({} : SegmentSession).create 5 "a" 64).1.handle? 0 = none ∧
      (({} : SegmentSession).create 5 "a" 64).1.Retracts 0 "b" { base := 4097 } :=
  have unused : (({} : SegmentSession).create 5 "a" 64).1.handle? 0 = none :=
    Option.isNone_iff_eq_none.1 (by decide +kernel)
  ⟨unused, retracts_unused _ 0 "b" { base := 4097 } unused⟩

/-- Not every call that fails takes its name back. -/
theorem nowhere_keeps_name : ¬ ∀ (s s' : SegmentSession) (number : Nat) (given : String)
    (size : Nat) (mishaps : Mishaps) (e : Fault), s.handle? number = none →
    s.create number given size mishaps = (s', .error e) → s.space.SameNames s'.space := by
  intro hall
  have hstate : (({} : SegmentSession).create 0 "a" 64 { base := 0 }).2.toOption.isNone = true ∧
      (({} : SegmentSession).create 0 "a" 64 { base := 0 }).1.space.names.length = 1 := by
    decide +kernel
  rcases hcreate : ({} : SegmentSession).create 0 "a" 64 { base := 0 } with ⟨s', e | h⟩
  · rw [hcreate, (hall {} s' 0 "a" 64 { base := 0 } e rfl hcreate).names] at hstate
    exact absurd hstate.2 (by decide)
  · rw [hcreate] at hstate
    cases hstate.1

end SegmentSession

end Cadence
