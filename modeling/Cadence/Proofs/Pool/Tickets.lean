import Cadence.Proofs.Pool.Room
import Cadence.Proofs.Position

/-!
Whose frame it is and what lies in it. A flag says nothing about the lap, so what it means follows
from the numbers of the tickets alone: from the first one whose frame is not given back, one
capacity of them has frames of its own each, and of these the flag tells the published ones from
the others. A frame that no code has been in since it was given back holds what the ticket one lap
before left there.
-/

namespace Cadence.FramePool

variable {len : Nat} {c : Capacity} {n : Nat} {ε : Type}

/-- The ticket that a call has drawn and not yet published. -/
def Write.ticket? : Write len ε → Option UInt64
  | ticketed _ ticket | inside _ ticket | leaving ticket _ => some ticket
  | _ => none

def Call.number? (x : Call len n ε) : Option Nat := x.pc.ticket?.map fun _ => x.number

theorem Call.number?_eq_some {x : Call len n ε} (h : x.pc.ticket?.isSome = true) :
    x.number? = some x.number := by
  obtain ⟨ticket, hticket⟩ := Option.isSome_iff_exists.1 h
  rw [number?, hticket, Option.map_some]

theorem Call.number?_eq_none {x : Call len n ε} (h : x.pc.ticket? = none) : x.number? = none := by
  rw [number?, h, Option.map_none]

def pending (calls : List (Call len n ε)) : List Nat := calls.filterMap Call.number?

theorem pending_middle (inner outer : List (Call len n ε)) (x : Call len n ε) :
    (pending (inner ++ x :: outer)).Perm (x.number?.toList ++ pending (inner ++ outer)) := by
  refine (List.perm_middle.filterMap _).trans ?_
  rw [List.filterMap_cons]
  cases x.number? <;> exact .refl _

theorem mem_pending {calls : List (Call len n ε)} {k : Nat} :
    k ∈ pending calls ↔ ∃ x ∈ calls, x.number? = some k :=
  List.mem_filterMap

theorem pending_goOn (inner outer : List (Call len n ε)) {x x' : Call len n ε}
    (h : x'.number? = x.number?) :
    (pending (inner ++ x' :: outer)).Perm (pending (inner ++ x :: outer)) := by
  refine (pending_middle inner outer x').trans ?_
  rw [h]
  exact (pending_middle inner outer x).symm

/-- The flags agree with the tickets drawn, of which the first `released` have left theirs. -/
structure Placed (s : UInt64) (ready : Vector Bool c.size) (pending : List Nat)
    (drawn released : Nat) : Prop where
  bounds : ∀ k ∈ pending, released ≤ k ∧ k < drawn
  once : pending.Nodup
  free : ∀ k, released ≤ k → k < released + c.size → drawn ≤ k ∨ k ∈ pending →
    ready.get (c.slot (position s k)) = false
  full : ∀ k, released ≤ k → k < drawn → k ∉ pending → ready.get (c.slot (position s k)) = true

variable {s : UInt64} {ready : Vector Bool c.size} {frames : Vector (Frame len) c.size}
  {owned owned' : List Nat} {drawn released k : Nat} {found left : Nat → Option (Frame len)}

namespace Placed

theorem of_perm (h : Placed s ready owned drawn released) (hperm : owned'.Perm owned) :
    Placed s ready owned' drawn released where
  bounds j hj := h.bounds j (hperm.mem_iff.1 hj)
  once := hperm.nodup_iff.2 h.once
  free j hj hj' hor := h.free j hj hj' (hor.imp_right hperm.mem_iff.1)
  full j hj hj' hnot := h.full j hj hj' fun hmem => hnot (hperm.mem_iff.2 hmem)

theorem draw (h : Placed s ready owned drawn released) (hle : released ≤ drawn) :
    Placed s ready (drawn :: owned) (drawn + 1) released where
  bounds j hj := by
    rcases List.mem_cons.1 hj with rfl | hj
    · exact ⟨hle, Nat.lt_succ_self _⟩
    · exact (h.bounds j hj).imp_right Nat.lt_succ_of_lt
  once := List.nodup_cons.2 ⟨fun hmem => Nat.lt_irrefl _ (h.bounds drawn hmem).2, h.once⟩
  free j hj hj' hor := by
    refine h.free j hj hj' ?_
    rcases hor with hlt | hmem
    · exact .inl (Nat.le_of_succ_le hlt)
    · exact (List.mem_cons.1 hmem).imp_left fun e => Nat.le_of_eq e.symm
  full j hj hj' hnot := by
    obtain ⟨hne, hnot⟩ := not_or.1 (mt List.mem_cons.2 hnot)
    exact h.full j hj (by omega) hnot

theorem publish (h : Placed s ready (k :: owned) drawn released)
    (hroom : drawn ≤ released + c.size) :
    Placed s (replaceAt ready (c.slot (position s k)) true) owned drawn released := by
  obtain ⟨hk, hk'⟩ := h.bounds k (.head _)
  obtain ⟨hnot, hnodup⟩ := List.nodup_cons.1 h.once
  refine ⟨fun j hj => h.bounds j (.tail _ hj), hnodup, ?_, ?_⟩
  · intro j hj hj' hor
    have hjk : j ≠ k := by
      rintro rfl
      exact hor.elim (fun hle => absurd hk' (Nat.not_lt.2 hle)) hnot
    rw [get_replaceAt_of_ne _ _ (Capacity.slot_position_ne hj hj' hk (by omega) hjk)]
    exact h.free j hj hj' (hor.imp_right (.tail _))
  · intro j hj hj' hmem
    by_cases hjk : j = k
    · rw [hjk, get_replaceAt_self]
    · rw [get_replaceAt_of_ne _ _
        (Capacity.slot_position_ne hj (by omega) hk (by omega) hjk)]
      exact h.full j hj hj' fun hcons => (List.mem_cons.1 hcons).elim hjk hmem

/-- The first frame is given back, and the stretch moves on by one. -/
theorem release (h : Placed s ready owned drawn released) (hroom : drawn ≤ released + c.size)
    (hnot : released ∉ owned) :
    Placed s (replaceAt ready (c.slot (position s released)) false) owned drawn (released + 1) := by
  have hpos := c.size_pos
  have hbounds : ∀ j ∈ owned, released + 1 ≤ j ∧ j < drawn := by
    intro j hj
    have hne : j ≠ released := fun e => hnot (e ▸ hj)
    have := h.bounds j hj
    omega
  refine ⟨hbounds, h.once, ?_, ?_⟩
  · intro j hj hj' hor
    by_cases hlast : j = released + c.size
    · rw [hlast, Capacity.slot_position_add_size, get_replaceAt_self]
    · rw [get_replaceAt_of_ne _ _ (Capacity.slot_position_ne (Nat.le_of_succ_le hj)
        (by omega) (Nat.le_refl _) (by omega) (by omega))]
      exact h.free j (by omega) (by omega) hor
  · intro j hj hj' hmem
    rw [get_replaceAt_of_ne _ _ (Capacity.slot_position_ne (Nat.le_of_succ_le hj)
      (by omega) (Nat.le_refl _) (by omega) (by omega))]
    exact h.full j (by omega) hj' hmem

end Placed

/-- What the code of the `k`-th ticket has to find: what the last one in the same frame left. -/
def inherited (c : Capacity) (left : Nat → Option (Frame len)) (k : Nat) : Option (Frame len) :=
  if k < c.size then some (.replicate len 0) else left (k - c.size)

/-- The frames agree with what was found in them and left there. -/
structure Filled (s : UInt64) (frames : Vector (Frame len) c.size) (pending : List Nat)
    (drawn released : Nat) (found left : Nat → Option (Frame len)) : Prop where
  undrawn : ∀ k, drawn ≤ k → found k = none ∧ left k = none
  published : ∀ k < drawn, k ∉ pending → found k ≠ none ∧ left k ≠ none
  fresh : ∀ k, released ≤ k → k < released + c.size → found k = none →
    inherited c left k = some (frames.get (c.slot (position s k)))
  kept : ∀ k frame, released ≤ k → left k = some frame →
    frames.get (c.slot (position s k)) = frame
  handed : ∀ k frame, found k = some frame → inherited c left k = some frame

namespace Filled

theorem lt_of_found (h : Filled s frames owned drawn released found left) (hk : found k ≠ none) :
    k < drawn :=
  Nat.lt_of_not_le fun hle => hk (h.undrawn k hle).1

theorem lt_of_left (h : Filled s frames owned drawn released found left) (hk : left k ≠ none) :
    k < drawn :=
  Nat.lt_of_not_le fun hle => hk (h.undrawn k hle).2

theorem of_perm (h : Filled s frames owned drawn released found left)
    (hperm : owned'.Perm owned) : Filled s frames owned' drawn released found left where
  undrawn := h.undrawn
  published j hj hnot := h.published j hj fun hmem => hnot (hperm.mem_iff.2 hmem)
  fresh := h.fresh
  kept := h.kept
  handed := h.handed

theorem draw (h : Filled s frames owned drawn released found left) :
    Filled s frames (drawn :: owned) (drawn + 1) released found left where
  undrawn j hj := h.undrawn j (Nat.le_of_succ_le hj)
  published j hj hnot := by
    obtain ⟨hne, hnot⟩ := not_or.1 (mt List.mem_cons.2 hnot)
    exact h.published j (by omega) hnot
  fresh := h.fresh
  kept := h.kept
  handed := h.handed

/-- The code of the `k`-th ticket begins. -/
theorem enter (h : Filled s frames owned drawn released found left)
    (hroom : drawn ≤ released + c.size) (hk : released ≤ k) (hk' : k < drawn)
    (hfound : found k = none) :
    Filled s frames owned drawn released
      (Function.update found k (some (frames.get (c.slot (position s k))))) left := by
  have hother : ∀ j, Function.update found k (some (frames.get (c.slot (position s k)))) j = none →
      found j = none := by
    intro j hj
    by_cases hjk : j = k
    · rw [hjk, hfound]
    · rwa [Function.update_of_ne hjk] at hj
  refine ⟨?_, ?_, fun j hj hj' hnone => h.fresh j hj hj' (hother j hnone), h.kept, ?_⟩
  · intro j hj
    rw [Function.update_of_ne (by omega)]
    exact h.undrawn j hj
  · intro j hj hnot
    exact ⟨fun hnone => (h.published j hj hnot).1 (hother j hnone), (h.published j hj hnot).2⟩
  · intro j frame hj
    by_cases hjk : j = k
    · subst hjk
      rw [Function.update_self] at hj
      exact (h.fresh j hk (by omega) hfound).trans hj
    · rw [Function.update_of_ne hjk] at hj
      exact h.handed j frame hj

/-- The code of the `k`-th ticket lays something over its frame. -/
theorem touch (h : Filled s frames owned drawn released found left)
    (hroom : drawn ≤ released + c.size) (hk : released ≤ k) (hk' : k < drawn)
    (hfound : found k ≠ none) (hleft : left k = none) (frame : Frame len) :
    Filled s (replaceAt frames (c.slot (position s k)) frame) owned drawn released found left := by
  have hother : ∀ j, released ≤ j → j < released + c.size → j ≠ k →
      (replaceAt frames (c.slot (position s k)) frame).get (c.slot (position s j)) =
        frames.get (c.slot (position s j)) := fun j hj hj' hjk =>
    get_replaceAt_of_ne _ _ (Capacity.slot_position_ne hj hj' hk (by omega) hjk)
  refine ⟨h.undrawn, h.published, ?_, ?_, h.handed⟩
  · intro j hj hj' hnone
    rw [hother j hj hj' (by rintro rfl; exact hfound hnone)]
    exact h.fresh j hj hj' hnone
  · intro j f hj hf
    have hlt := h.lt_of_left (k := j) (by rw [hf]; exact Option.some_ne_none f)
    rw [hother j hj (by omega) (by rintro rfl; cases hleft.symm.trans hf)]
    exact h.kept j f hj hf

/-- The code of the `k`-th ticket is left. -/
theorem leave (h : Filled s frames owned drawn released found left)
    (hroom : drawn ≤ released + c.size) (hk : released ≤ k) (hk' : k < drawn) :
    Filled s frames owned drawn released found
      (Function.update left k (some (frames.get (c.slot (position s k))))) := by
  -- the ticket one lap on has not been drawn, so nobody has found this frame yet
  have hinherited : ∀ j < released + c.size,
      inherited c (Function.update left k (some (frames.get (c.slot (position s k))))) j =
        inherited c left j := by
    intro j hj
    rw [inherited, inherited]
    split
    · rfl
    · rw [Function.update_of_ne (by omega)]
  refine ⟨?_, ?_, ?_, ?_, ?_⟩
  · intro j hj
    rw [Function.update_of_ne (by omega)]
    exact h.undrawn j hj
  · intro j hj hnot
    refine ⟨(h.published j hj hnot).1, ?_⟩
    by_cases hjk : j = k
    · rw [hjk, Function.update_self]
      exact Option.some_ne_none _
    · rw [Function.update_of_ne hjk]
      exact (h.published j hj hnot).2
  · intro j hj hj' hnone
    rw [hinherited j hj']
    exact h.fresh j hj hj' hnone
  · intro j f hj hf
    by_cases hjk : j = k
    · subst hjk
      rw [Function.update_self] at hf
      exact Option.some.inj hf
    · rw [Function.update_of_ne hjk] at hf
      exact h.kept j f hj hf
  · intro j f hf
    have hlt := h.lt_of_found (k := j) (by rw [hf]; exact Option.some_ne_none f)
    rw [hinherited j (by omega)]
    exact h.handed j f hf

theorem publish (h : Filled s frames (k :: owned) drawn released found left)
    (hfound : found k ≠ none) (hleft : left k ≠ none) :
    Filled s frames owned drawn released found left := by
  refine ⟨h.undrawn, ?_, h.fresh, h.kept, h.handed⟩
  intro j hj hnot
  by_cases hjk : j = k
  · rw [hjk]
    exact ⟨hfound, hleft⟩
  · exact h.published j hj fun hmem => (List.mem_cons.1 hmem).elim hjk hnot

/-- The first frame is given back. What lies in it is for the ticket one lap on. -/
theorem release (h : Filled s frames owned drawn released found left) (hlt : released < drawn)
    (hnot : released ∉ owned) :
    Filled s frames owned drawn (released + 1) found left := by
  refine ⟨h.undrawn, h.published, ?_, fun j f hj => h.kept j f (Nat.le_of_succ_le hj), h.handed⟩
  intro j hj hj' hnone
  by_cases hlast : j = released + c.size
  · obtain ⟨f, hf⟩ := Option.ne_none_iff_exists'.1 (h.published released hlt hnot).2
    rw [hlast, inherited, if_neg (by omega), Nat.add_sub_cancel, Capacity.slot_position_add_size,
      h.kept released f (Nat.le_refl _) hf, hf]
  · exact h.fresh j (by omega) (by omega) hnone

end Filled

namespace Write

/-- How far a call has come with the frame of its ticket, which is the `k`-th. -/
def Tells (s : UInt64) (found left : Nat → Option (Frame len)) (k : Nat) : Write len ε → Prop
  | ticketed _ ticket => ticket = position s k ∧ found k = none ∧ left k = none
  | inside _ ticket => ticket = position s k ∧ found k ≠ none ∧ left k = none
  | leaving ticket _ => ticket = position s k ∧ found k ≠ none ∧ left k ≠ none
  | _ => True

variable {pc : Write len ε}

theorem tells_of_none (h : pc.ticket? = none) : pc.Tells s found left k := by
  cases pc with
  | ticketed | inside | leaving => cases h
  | start | refused | reserved => trivial

theorem Tells.ticket_eq {ticket : UInt64} (h : pc.Tells s found left k)
    (hticket : pc.ticket? = some ticket) : ticket = position s k := by
  cases pc with
  | ticketed | inside | leaving =>
    cases hticket
    exact h.1
  | start | refused | reserved => cases hticket

theorem Tells.eq_ticketed (h : pc.Tells s found left k) (hticket : pc.ticket?.isSome = true)
    (hfound : found k = none) : ∃ w, pc = ticketed w (position s k) := by
  cases pc with
  | ticketed w ticket => exact ⟨w, by rw [h.1]⟩
  | inside | leaving => exact absurd hfound h.2.1
  | start | refused | reserved => cases hticket

/-- What happens to one ticket is no matter for the call of another. -/
theorem Tells.of_agree {found' left' : Nat → Option (Frame len)} (h : pc.Tells s found left k)
    (hsame : pc.ticket?.isSome = true → found' k = found k ∧ left' k = left k) :
    pc.Tells s found' left' k := by
  cases pc with
  | ticketed | inside | leaving =>
    rw [Tells, (hsame rfl).1, (hsame rfl).2]
    exact h
  | start | refused | reserved => trivial

end Write

end Cadence.FramePool
