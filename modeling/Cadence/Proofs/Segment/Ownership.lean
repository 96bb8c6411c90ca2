import Cadence.Proofs.Segment.Backing

/-!
Who takes a name away. A name that leads to what a live handle has made stays until somebody removes
it by hand or drops a handle that has made a segment under it. Usually that is the same handle; but
dropping goes by the name, so a handle whose own name has been removed takes the name of whoever has
made it anew.
-/

namespace Cadence

namespace SegmentSession

variable {s s' : SegmentSession} {move : Move} {answer : Except Fault Unit} {n : String}
  {id : ObjectId}

def Move.removes (n : String) : Move → Bool
  | .remove given => (SegmentName.normalize given).toOption.any (·.text == n)
  | _ => false

def takes (s : SegmentSession) (n : String) : Move → Bool
  | .drop number => (s.handle? number).any fun h => h.isCreator && h.name.text == n
  | move => move.removes n

theorem takes_remove {given : String} {name : SegmentName}
    (known : SegmentName.normalize given = .ok name) :
    s.takes n (.remove given) = (name.text == n) := by
  change (Move.remove given).removes n = _
  rw [Move.removes, known]
  rfl

theorem takes_remove_malformed {given : String} {e : Fault}
    (malformed : SegmentName.normalize given = .error e) : s.takes n (.remove given) = false := by
  change (Move.remove given).removes n = _
  rw [Move.removes, malformed]
  rfl

theorem takes_drop {number : Nat} {h : SegmentHandle} (here : s.handle? number = some h) :
    s.takes n (.drop number) = (h.isCreator && h.name.text == n) := by
  rw [takes, here]
  rfl

theorem ne_of_free {name : String} (hn : s.space.find? n = some id)
    (free : s.space.isTaken name = false) : n ≠ name := by
  rintro rfl
  cases hn.symm.trans (SharedSpace.isTaken_eq_false.1 free).2

/-- Every other move leaves the name leading where it led. -/
theorem find?_turn (turn : s.Turn move s' answer) (hn : s.space.find? n = some id)
    (stays : s.takes n move = false) : s'.space.find? n = some id := by
  cases turn with
  | refuse | forgo | retract | attach | write => exact hn
  | orphan _ _ _ _ name _ free | create _ _ _ _ name _ _ _ free | plant _ _ name _ free =>
    rw [SharedSpace.find?_add, if_neg (ne_of_free hn free)]
    exact hn
  | remove given name known =>
    have hne : name.text ≠ n := by
      rw [takes_remove known] at stays
      exact beq_eq_false_iff_ne.1 stays
    rw [SharedSpace.find?_without, if_neg hne.symm]
    exact hn
  | drop number h here =>
    rw [takes_drop here, Bool.and_eq_false_iff, beq_eq_false_iff_ne] at stays
    change (h.drop s.space).find? n = some id
    rw [SegmentHandle.drop]
    split
    · rename_i maker
      have hne : h.name.text ≠ n := stays.resolve_left (by rw [maker]; decide)
      rcases SharedSpace.unlinked_eq s.space h.name.text with e | e <;> rw [e]
      · exact hn
      · rw [SharedSpace.find?_without, if_neg hne.symm]
        exact hn
    · exact hn

/-- A name that leads to a segment is gone once it is taken. -/
theorem find?_taken {size : Nat} {memory : Memory} (plain : SharedSpace.isDot n = false)
    (hn : s.space.find? n = some id) (hid : s.space.object? id = some (.segment size memory))
    (hfire : s.fire move = some s') (taken : s.takes n move = true) : s'.space.find? n = none := by
  have hgone : (s.space.without n).find? n = none := SharedSpace.find?_without.trans (if_pos rfl)
  obtain ⟨permitted, rfl⟩ := fire_eq_some.1 hfire
  cases move with
  | remove given =>
    cases known : SegmentName.normalize given with
    | error e =>
      rw [takes_remove_malformed known] at taken
      cases taken
    | ok name =>
      rw [takes_remove known, beq_iff_eq] at taken
      subst taken
      rw [serve, SegmentSession.remove,
        SegmentHandle.remove_of_ok known (SharedSpace.unlink_of_segment plain hn hid)]
      exact hgone
  | drop number =>
    obtain ⟨h, here⟩ := Option.isSome_iff_exists.1 permitted
    rw [takes_drop here, Bool.and_eq_true, beq_iff_eq] at taken
    obtain ⟨maker, rfl⟩ := taken
    rw [serve, SegmentSession.drop, here]
    change (h.drop s.space).find? h.name.text = none
    rw [SegmentHandle.drop, if_pos maker, SharedSpace.unlinked_of_segment plain hn hid]
    exact hgone
  | create | attach | write | plant => cases taken

/-- Whoever has made a segment under the name has the name. -/
def Registered (s : SegmentSession) (n : String) : Prop :=
  ∀ k h, s.handle? k = some h → h.isCreator = true → h.name.text = n →
    s.space.find? n = some h.object

theorem registered_turn (ho : s.Orderly) (h : s.Registered n) (turn : s.Turn move s' answer)
    (kept : move.removes n = false) : s'.Registered n := by
  -- a maker that was there before keeps the name as long as nobody takes it
  have hold : ∀ k x, s.handle? k = some x → x.isCreator = true → x.name.text = n →
      s.takes n move = false → s'.space.find? n = some x.object :=
    fun k x hk maker named stays => find?_turn turn (h k x hk maker named) stays
  cases turn with
  | refuse | forgo | retract | write => exact h
  | orphan =>
    exact fun k x hk maker named => hold k x hk maker named kept
  | create number given size mishaps name base unused known free pos le aligned =>
    intro k x hk maker named
    rw [handle?_cons] at hk
    split at hk
    · cases hk
      exact SharedSpace.find?_add.trans (if_pos named.symm)
    · exact hold k x hk maker named kept
  | attach number given mode mishaps y unused attached =>
    intro k x hk maker named
    rw [handle?_cons] at hk
    split at hk
    · cases hk
      cases attached.opener.symm.trans maker
    · exact hold k x hk maker named kept
  | remove given name known id found other =>
    exact fun k x hk maker named => hold k x hk maker named kept
  | drop number y here =>
    intro k x hk maker named
    rw [handle?_filter] at hk
    split at hk
    · cases hk
    · rename_i hne
      -- two makers under the name would have made the same object
      refine hold k x hk maker named (Bool.eq_false_iff.2 fun htakes => hne ?_)
      rw [takes_drop here, Bool.and_eq_true, beq_iff_eq] at htakes
      have hsame := (h number y here htakes.1 htakes.2).symm.trans (h k x hk maker named)
      exact ho.sole k number x y hk here maker htakes.1 (Option.some.inj hsame).symm
  | plant given object name known free =>
    exact fun k x hk maker named => hold k x hk maker named kept

theorem registered_run {moves : List Move} (ho : s.Orderly) (h : s.Registered n)
    (kept : ∀ move ∈ moves, move.removes n = false) (hrun : s.run moves = some s') :
    s'.Registered n := by
  have hboth : s'.Orderly ∧ s'.Registered n :=
    run_keeps_of_mem (P := fun s => s.Orderly ∧ s.Registered n)
      (fun m hm s s' hs hfire => ⟨orderly_turn hs.1 (turn_of_fire hfire),
        registered_turn hs.1 hs.2 (turn_of_fire hfire) (kept m hm)⟩) ⟨ho, h⟩ hrun
  exact hboth.2

/-- How a name stands that leads to what a live handle has made. -/
structure Owned (s : SegmentSession) (moves : List Move) (n : String) (k : Nat)
    (h : SegmentHandle) : Prop where
  named : h.name.text = n
  /-- What takes the name, and that nothing else moves it. -/
  taken : ∀ move s', s.fire move = some s' →
    s'.space.find? n = if s.takes n move then none else some h.object
  /-- Other makers under the name have made something else, and are there only because the name
  has once been removed by hand. -/
  rival : ∀ k' h', s.handle? k' = some h' → h'.isCreator = true → h'.name.text = n → k' ≠ k →
    h'.object ≠ h.object ∧ ∃ move ∈ moves, move.removes n = true

theorem owned_run {moves : List Move} {s : SegmentSession} {n : String} {k : Nat}
    {h : SegmentHandle} (hrun : ({} : SegmentSession).run moves = some s)
    (here : s.handle? k = some h) (maker : h.isCreator = true)
    (led : s.space.find? n = some h.object) : s.Owned moves n k h := by
  have ho := orderly_run orderly_empty hrun
  have hb := ho.backed k h here
  refine ⟨hb.named n led, fun move s' hfire => ?_, fun k' h' here' maker' named hne => ?_⟩
  · cases htakes : s.takes n move with
    | false => exact find?_turn (turn_of_fire hfire) led htakes
    | true => exact find?_taken (ho.sound.plain n _ led) led hb.object hfire htakes
  · have hother : h'.object ≠ h.object := fun e => hne (ho.sole k' k h' h here' here maker' maker e)
    refine ⟨hother, ?_⟩
    by_cases hremoved : ∃ move ∈ moves, move.removes n = true
    · exact hremoved
    · have kept : ∀ move ∈ moves, move.removes n = false := fun move hmem =>
        Bool.eq_false_iff.2 fun e => hremoved ⟨move, hmem, e⟩
      have hled := registered_run orderly_empty nofun kept hrun k' h' here' maker' named
      exact absurd (Option.some.inj (hled.symm.trans led)) hother

/-- A segment whose name is removed and made anew while its maker lives on. -/
def madeAnew : List Move := [.create 0 "a" 64 {}, .remove "a", .create 1 "a" 64 {}]

theorem madeAnew_state : ∃ s h s', ({} : SegmentSession).run madeAnew = some s ∧
    s.handle? 1 = some h ∧ h.isCreator = true ∧ s.space.find? "/a" = some h.object ∧
    s.fire (.drop 0) = some s' ∧ s'.space.find? "/a" = none := by
  have hstate : (({} : SegmentSession).run madeAnew).any (fun s =>
      (s.handle? 1).any fun h => (s.fire (.drop 0)).any fun s' =>
        h.isCreator ∧ s.space.find? "/a" = some h.object ∧ s'.space.find? "/a" = none) = true := by
    decide +kernel
  simp only [Option.any_eq_true, decide_eq_true_eq] at hstate
  obtain ⟨s, hrun, h, here, s', hfire, maker, led, gone⟩ := hstate
  exact ⟨s, h, s', hrun, here, maker, led, hfire, gone⟩

theorem owned_run_madeAnew : ∃ s h, ({} : SegmentSession).run madeAnew = some s ∧
    s.handle? 1 = some h ∧ h.isCreator = true ∧ s.space.find? "/a" = some h.object ∧
    s.Owned madeAnew "/a" 1 h := by
  obtain ⟨s, h, -, hrun, here, maker, led, -⟩ := madeAnew_state
  exact ⟨s, h, hrun, here, maker, led, owned_run hrun here maker led⟩

/-- A name is not its maker's alone: it can go with another handle. -/
theorem drop_takes_another : ¬ ∀ (moves : List Move) (s s' : SegmentSession) (n : String) (k : Nat)
    (h : SegmentHandle) (move : Move), ({} : SegmentSession).run moves = some s →
    s.handle? k = some h → h.isCreator = true → s.space.find? n = some h.object →
    s.fire move = some s' → move.removes n = false → move ≠ .drop k →
    s'.space.find? n = some h.object := by
  intro hall
  obtain ⟨s, h, s', hrun, here, maker, led, hfire, gone⟩ := madeAnew_state
  cases gone.symm.trans
    (hall madeAnew s s' "/a" 1 h (.drop 0) hrun here maker led hfire rfl (by simp))

end SegmentSession

end Cadence
