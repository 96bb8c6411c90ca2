import Cadence.Proofs.Pool.Traffic
import Cadence.Proofs.Word
import Mathlib.Data.Fintype.Card
import Mathlib.Data.List.Nodup

/-!
What the count of a frame pool counts: the room that is given away and not yet given back, and the
writes that were refused and are still in it. A thread can be refused once at a time, however deep
its writes are nested, since only the innermost of them is outside the caller's own code; that is
what keeps the count from running over.
-/

namespace Cadence.FramePool

variable {len : Nat} {c : Capacity} {n : Nat} {ε : Type}

namespace Write

def isReserved : Write len ε → Bool
  | reserved _ => true
  | _ => false

def isRefused : Write len ε → Bool
  | refused _ => true
  | _ => false

end Write

namespace Read

def hasRead : Read len ε → Bool
  | leaving _ _ | cleared _ _ | advanced _ => true
  | _ => false

def hasReleased : Read len ε → Bool
  | cleared _ _ | advanced _ => true
  | _ => false

def hasAdvanced : Read len ε → Bool
  | advanced _ => true
  | _ => false

theorem hasReleased_of_hasAdvanced {pc : Read len ε} (h : pc.hasAdvanced = true) :
    pc.hasReleased = true := by
  cases pc with
  | advanced => rfl
  | _ => cases h

theorem hasRead_of_hasReleased {pc : Read len ε} (h : pc.hasReleased = true) :
    pc.hasRead = true := by
  cases pc with
  | cleared | advanced => rfl
  | _ => cases h

end Read

def standing (kind : Write len ε → Bool) (calls : List (Call len n ε)) : Nat :=
  calls.countP (kind ·.pc)

theorem standing_cons (kind : Write len ε → Bool) (x : Call len n ε) (calls : List (Call len n ε)) :
    standing kind (x :: calls) = standing kind calls + (kind x.pc).toNat := by
  rw [standing, List.countP_cons]
  cases kind x.pc <;> rfl

theorem standing_middle (kind : Write len ε → Bool) (inner outer : List (Call len n ε))
    (x : Call len n ε) : standing kind (inner ++ x :: outer) =
      standing kind (inner ++ outer) + (kind x.pc).toNat := by
  rw [← standing_cons]
  exact List.perm_middle.countP_eq _

def Nested (calls : List (Call len n ε)) : Prop :=
  calls.Pairwise fun y x => y.thread = x.thread → x.pc.isInside = true

namespace Nested

variable {inner outer calls : List (Call len n ε)} {x x' : Call len n ε}

theorem begin (h : Nested calls)
    (hfree : ∀ y ∈ calls, y.thread = x.thread → y.pc.isInside = true) : Nested (x :: calls) :=
  List.pairwise_cons.2 ⟨fun y hy e => hfree y hy e.symm, h⟩

/-- A step of a call that is its thread's innermost one. -/
theorem goOn (h : Nested (inner ++ x :: outer)) (hfirst : ∀ y ∈ inner, y.thread ≠ x.thread)
    (hthread : x'.thread = x.thread) : Nested (inner ++ x' :: outer) := by
  obtain ⟨hinner, hcons, hacross⟩ := List.pairwise_append.1 h
  obtain ⟨hx, houter⟩ := List.pairwise_cons.1 hcons
  refine List.pairwise_append.2 ⟨hinner, List.pairwise_cons.2 ⟨?_, houter⟩, ?_⟩
  · intro z hz e
    exact hx z hz (hthread.symm.trans e)
  · intro y hy z hz e
    rcases List.mem_cons.1 hz with rfl | hz
    · exact absurd (e.trans hthread) (hfirst y hy)
    · exact hacross y hy z (.tail _ hz) e

theorem comeBack (h : Nested (inner ++ x :: outer)) : Nested (inner ++ outer) :=
  List.Pairwise.sublist ((List.sublist_cons_self x outer).append_left inner) h

/-- Those outside their own code are on different threads. -/
theorem outside_le (h : Nested calls) : calls.countP (!·.pc.isInside) ≤ n + 1 := by
  have hnodup : ((calls.filter (!·.pc.isInside)).map Call.thread).Nodup := by
    refine List.pairwise_map.2 ((h.filter _).imp_of_mem fun {y z} _ hz hyz e => ?_)
    have hinside := hyz e
    rw [List.mem_filter, hinside] at hz
    exact absurd hz.2 (by decide)
  have hcard := hnodup.length_le_card
  rwa [List.length_map, ← List.countP_eq_length_filter, Fintype.card_fin] at hcard

theorem standing_isRefused_le (calls : List (Call len n ε)) :
    standing Write.isRefused calls ≤ calls.countP (!·.pc.isInside) := by
  refine List.countP_mono_left fun x _ hx => ?_
  cases hpc : x.pc <;> rw [hpc] at hx
  case refused => rfl
  all_goals cases hx

theorem standing_isRefused_le_succ (h : Nested calls) : standing Write.isRefused calls ≤ n + 1 :=
  Nat.le_trans (standing_isRefused_le calls) h.outside_le

/-- Beside a call that has not asked for room yet, one thread fewer can be refused. -/
theorem standing_isRefused_le_of_start (h : Nested (inner ++ x :: outer))
    (hinside : x.pc.isInside = false) (hrefused : x.pc.isRefused = false) :
    standing Write.isRefused (inner ++ x :: outer) ≤ n := by
  have hle := h.outside_le
  have hmono := standing_isRefused_le (inner ++ outer)
  rw [List.perm_middle.countP_eq, List.countP_cons_of_pos (by rw [hinside]; rfl)] at hle
  rw [standing_middle, hrefused, Bool.toNat_false]
  omega

end Nested

namespace Traffic

variable {t t' : Traffic len c n ε} {inner outer : List (Call len n ε)} {x : Call len n ε}

/-- A thread that is free to write has no call outside its own code. -/
theorem isInside_of_isFree {p : Fin (n + 1)} (h : Nested t.calls) (hfree : t.isFree p = true) :
    ∀ y ∈ t.calls, y.thread = p → y.pc.isInside = true := by
  rw [isFree] at hfree
  split at hfree
  · rename_i inner x outer hx
    obtain ⟨here, rfl, first⟩ := innermost?_eq_some hx
    rw [here] at h ⊢
    intro y hy e
    rcases List.mem_append.1 hy with hy | hy
    · exact absurd e (first y hy)
    · rcases List.mem_cons.1 hy with rfl | hy
      · exact hfree
      · exact (List.pairwise_cons.1 (List.pairwise_append.1 h).2.1).1 y hy e.symm
  · rename_i hx
    exact fun y hy e => absurd e (innermost?_eq_none hx y hy)

theorem nested_turn (h : Nested t.calls) (turn : Turn t t') : Nested t'.calls := by
  cases turn with
  | offer p writer free => exact h.begin (isInside_of_isFree h free)
  | refuse inner outer x w here | reserve inner outer x w here | draw inner outer x w here
  | enter inner outer x w ticket here | finish inner outer x w ticket frame ending here =>
    exact (here.here ▸ h).goOn here.first rfl
  | reject inner outer x w here | clash inner outer x w ticket here
  | publish inner outer x ticket ending here => exact (here.here ▸ h).comeBack
  | touch | ask | locate | admitted | dismiss | perceive | release | advance | leave => exact h

/-- The room that is given away and not yet given back. -/
def outstanding (t : Traffic len c n ε) : Nat :=
  t.drawn + standing Write.isReserved t.calls - t.taken.length

def refusing (t : Traffic len c n ε) : Nat := standing Write.isRefused t.calls

def released (t : Traffic len c n ε) : Nat :=
  t.taken.length + (t.reading.any (·.pc.hasReleased)).toNat

def passed (t : Traffic len c n ε) : Nat :=
  t.taken.length + (t.reading.any (·.pc.hasAdvanced)).toNat

structure Accounted (t : Traffic len c n ε) : Prop where
  count : t.pool.count = .ofNat (t.outstanding + t.refusing)
  room : t.outstanding ≤ c.size

theorem accounted_start {pool : FramePool len c} (h : pool.count = 0) :
    Accounted (start n pool : Traffic len c n ε) :=
  ⟨h, Nat.zero_le _⟩

/-- What the count says to a write that asks for room. -/
theorem Accounted.toNat_count (h : Accounted t) (hn : n + c.size < UInt64.size)
    (hnested : Nested t.calls) {w : Writer len ε} (here : t.Innermost inner outer x (.start w)) :
    t.pool.count.toNat = t.outstanding + t.refusing := by
  have hrefused : t.refusing ≤ n := by
    rw [refusing, here.here]
    rw [here.here] at hnested
    exact hnested.standing_isRefused_le_of_start (by rw [here.pc]; rfl) (by rw [here.pc]; rfl)
  have hroom := h.room
  rw [h.count]
  exact UInt64.toNat_ofNat_of_lt' (by omega)

/-- A step that neither gains room nor gives any up. -/
theorem Accounted.of_same (h : Accounted t) (hcount : t'.pool.count = t.pool.count)
    (houtstanding : t'.outstanding = t.outstanding) (hrefusing : t'.refusing = t.refusing) :
    Accounted t' := by
  refine ⟨?_, ?_⟩
  · rw [hcount, houtstanding, hrefusing]
    exact h.count
  · rw [houtstanding]
    exact h.room

/-- A step that one more is counted in by. -/
theorem Accounted.of_in (h : Accounted t) (hcount : t'.pool.count = t.pool.count + 1)
    (hsum : t'.outstanding + t'.refusing = t.outstanding + t.refusing + 1)
    (hroom : t'.outstanding ≤ c.size) : Accounted t' := by
  refine ⟨?_, hroom⟩
  rw [hcount, hsum, UInt64.ofNat_add_one, h.count]

theorem Accounted.of_out (h : Accounted t) (hcount : t'.pool.count = t.pool.count - 1)
    (hsum : t'.outstanding + t'.refusing + 1 = t.outstanding + t.refusing)
    (hroom : t'.outstanding ≤ c.size) : Accounted t' := by
  refine ⟨?_, hroom⟩
  rw [hcount, h.count, ← hsum, UInt64.ofNat_add_one_sub_one]

theorem standing_goOn {pc : Write len ε} (here : t.Innermost inner outer x pc)
    (kind : Write len ε → Bool) (x' : Call len n ε) :
    standing kind (inner ++ x' :: outer) + (kind pc).toNat =
      standing kind t.calls + (kind x'.pc).toNat := by
  rw [here.here, standing_middle, standing_middle, here.pc]
  omega

theorem standing_comeBack {pc : Write len ε} (here : t.Innermost inner outer x pc)
    (kind : Write len ε → Bool) :
    standing kind (inner ++ outer) + (kind pc).toNat = standing kind t.calls := by
  rw [here.here, standing_middle, here.pc]

theorem accounted_turn (hn : n + c.size < UInt64.size) (h : Accounted t) (hnested : Nested t.calls)
    (hreleased : t.released ≤ t.drawn)
    (hgiven : ∀ x, t.reading = some x → x.pc.hasRead = true → x.given.isSome = true)
    (turn : Turn t t') : Accounted t' := by
  have htaken : t.taken.length ≤ t.drawn := Nat.le_trans (Nat.le_add_right _ _) hreleased
  have hroom := h.room
  cases turn with
  | offer p writer free =>
    refine h.of_same rfl ?_ ?_
    · rw [outstanding, standing_cons]
      rfl
    · exact standing_cons ..
  | refuse inner outer x w here full =>
    have h1 := standing_goOn here Write.isReserved { x with pc := .refused w }
    have h2 := standing_goOn here Write.isRefused { x with pc := .refused w }
    simp only [Write.isReserved, Write.isRefused, Bool.toNat_true, Bool.toNat_false,
      Nat.add_zero] at h1 h2
    refine h.of_in rfl ?_ ?_
    · simp only [outstanding, refusing, h1, h2, Nat.add_assoc]
    · simpa only [outstanding, h1] using hroom
  | reserve inner outer x w here room =>
    have h1 := standing_goOn here Write.isReserved { x with pc := .reserved w }
    have h2 := standing_goOn here Write.isRefused { x with pc := .reserved w }
    simp only [Write.isReserved, Write.isRefused, Bool.toNat_true, Bool.toNat_false,
      Nat.add_zero] at h1 h2
    rw [h.toNat_count hn hnested here, outstanding] at room
    refine h.of_in rfl ?_ ?_
    · simp only [outstanding, refusing, h1, h2]
      omega
    · simp only [outstanding, h1]
      omega
  | reject inner outer x w here =>
    have h1 := standing_comeBack here Write.isReserved
    have h2 := standing_comeBack here Write.isRefused
    simp only [Write.isReserved, Write.isRefused, Bool.toNat_true, Bool.toNat_false,
      Nat.add_zero] at h1 h2
    refine h.of_out rfl ?_ ?_
    · simp only [outstanding, refusing, h1, ← h2, Nat.add_assoc]
    · simpa only [outstanding, h1] using hroom
  | draw inner outer x w here =>
    have h1 := standing_goOn here Write.isReserved
      { x with pc := .ticketed w t.pool.head, number := t.drawn }
    have h2 := standing_goOn here Write.isRefused
      { x with pc := .ticketed w t.pool.head, number := t.drawn }
    simp only [Write.isReserved, Write.isRefused, Bool.toNat_true, Bool.toNat_false,
      Nat.add_zero] at h1 h2
    refine h.of_same rfl ?_ h2
    simp only [outstanding, ← h1]
    omega
  | enter inner outer x w ticket here clear =>
    exact h.of_same rfl
      (congrArg (t.drawn + · - t.taken.length) (standing_goOn here Write.isReserved _))
      (standing_goOn here Write.isRefused _)
  | clash inner outer x w ticket here set =>
    exact h.of_same rfl
      (congrArg (t.drawn + · - t.taken.length) (standing_comeBack here Write.isReserved))
      (standing_comeBack here Write.isRefused)
  | finish inner outer x w ticket frame ending here code =>
    exact h.of_same rfl
      (congrArg (t.drawn + · - t.taken.length) (standing_goOn here Write.isReserved _))
      (standing_goOn here Write.isRefused _)
  | publish inner outer x ticket ending here =>
    exact h.of_same rfl
      (congrArg (t.drawn + · - t.taken.length) (standing_comeBack here Write.isReserved))
      (standing_comeBack here Write.isRefused)
  | touch | ask | locate | admitted | dismiss | perceive | release | advance =>
    exact h.of_same rfl rfl rfl
  | leave x ending here pc =>
    -- The frame was given back before, so there is a ticket whose room is still in the count.
    have hleft : t.taken.length + 1 ≤ t.drawn := by
      simpa only [released, here, pc, Read.hasReleased, Option.any_some, Bool.toNat_true]
        using hreleased
    obtain ⟨frame, hframe⟩ := Option.isSome_iff_exists.1 (hgiven x here (by rw [pc]; rfl))
    have hlength : (t.taken ++ x.given.toList).length = t.taken.length + 1 := by
      rw [hframe, Option.toList_some, List.length_append, List.length_singleton]
    refine h.of_out rfl ?_ ?_
    · simp only [outstanding, refusing, hlength]
      omega
    · simp only [outstanding, hlength] at hroom ⊢
      omega

end Traffic

end Cadence.FramePool
