import Cadence.Proofs.Fifo
import Cadence.Proofs.Rounding
import Mathlib.Order.Bounds.Basic
import Mathlib.Order.Interval.Set.Defs

/-!
A plan that is asked for room again and again. What it grants begins at the least multiple of the
alignment that is not taken yet, so the stretches lie one behind the other; it refuses only what the
words cannot tell, and then the plan is as if it had not been asked.
-/

namespace Cadence

open Record (Extent Shape)

theorem Record.Extent.isLeast_aligned (offset : Nat) {align : Nat} (h : 0 < align) :
    IsLeast {m | align ∣ m ∧ offset ≤ m} (aligned offset align) := by
  refine ⟨⟨dvd_aligned, le_aligned h⟩, ?_⟩
  rintro m ⟨⟨k, rfl⟩, hle⟩
  rw [aligned, Nat.mul_comm align k]
  -- what is divided falls short of the multiple behind `m`
  refine Nat.mul_le_mul_right align (Nat.le_of_lt_succ ?_)
  rw [Nat.div_lt_iff_lt_mul h, Nat.succ_mul, Nat.mul_comm k]
  omega

namespace Plan

/-- What a plan can be asked for: bytes, or a record, whose size and alignment words can tell. -/
inductive Request where
  | bytes (size align : UInt64)
  | record (shape : Shape) (size_lt : shape.size < UInt64.size)
      (align_lt : shape.align < UInt64.size)

namespace Request

def size : Request → Nat
  | bytes size _ => size.toNat
  | record shape _ _ => shape.size

def align : Request → Nat
  | bytes _ align => align.toNat
  | record shape _ _ => max shape.align Limits.cacheLine

theorem size_lt (r : Request) : r.size < UInt64.size := by
  cases r with
  | bytes size _ => exact size.toNat_lt
  | record _ size_lt _ => exact size_lt

theorem align_lt (r : Request) : r.align < UInt64.size := by
  cases r with
  | bytes _ align => exact align.toNat_lt
  | record _ _ align_lt => exact Nat.max_lt.2 ⟨align_lt, by decide⟩

end Request

def grant (p : Plan) : Request → Except Fault (UInt64 × Plan)
  | .bytes size align => p.reserve size align
  | .record shape _ _ => p.add shape

def answer (p : Plan) (r : Request) : Plan × Except Fault UInt64 :=
  match p.grant r with
  | .ok (start, q) => (q, .ok start)
  | .error fault => (p, .error fault)

/-- The steps of a reservation, each with a check that it does not leave the words. -/
def reserveStepwise (p : Plan) (size align : UInt64) :
    Except WordFault (Except Fault (UInt64 × Plan)) := do
  if !isSingleBit align then
    return .error (.invalidArgument "alignment must be a power of two")
  let below ← (checkedDifference align 1).elim (.error .difference) .ok
  match checkedSum p.used below with
  | none => return .error tooLong
  | some last =>
    let mask ← (checkedDifference align 1).elim (.error .difference) .ok
    match checkedSum (clearBelow last mask) size with
    | none => return .error tooLong
    | some stop => return .ok (clearBelow last mask, ⟨stop⟩)

structure Span where
  start : Nat
  size : Nat

def Span.offsets (s : Span) : Set Nat := Set.Ico s.start (s.start + s.size)

def granted? : Request × Except Fault UInt64 → Option Span
  | (r, .ok start) => some ⟨start.toNat, r.size⟩
  | (_, .error _) => none

/-- What the requests were granted, in the order of the requests. -/
def spans (p : Plan) (requests : List Request) : List Span :=
  (requests.zip (replies answer p requests)).filterMap granted?

variable {p q : Plan} {r : Request} {requests : List Request} {size align start : UInt64}

theorem reserveStepwise_eq (p : Plan) (size align : UInt64) :
    p.reserveStepwise size align = .ok (p.reserve size align) := by
  rw [reserveStepwise, reserve]
  cases halign : isSingleBit align with
  | false => rfl
  | true =>
    have hpos : 0 < align.toNat := Nat.pos_of_isPowerOfTwo (isSingleBit_iff.1 halign)
    have hbelow : checkedDifference align 1 = some (align - 1) :=
      if_pos (UInt64.le_iff_toNat_le.2 (show UInt64.toNat 1 ≤ align.toNat from hpos))
    simp only [Bool.not_true, Bool.false_eq_true, ↓reduceIte, bind, Except.bind, pure, Except.pure,
      hbelow, Option.elim_some]
    cases checkedSum p.used (align - 1) with
    | none => rfl
    | some last =>
      simp only [Option.elim_some]
      cases checkedSum (clearBelow last (align - 1)) size <;> rfl

theorem fault_of_reserve {fault : Fault} (h : p.reserve size align = .error fault) :
    fault = if align.toNat.isPowerOfTwo then tooLong
      else .invalidArgument "alignment must be a power of two" := by
  rw [reserve] at h
  cases halign : isSingleBit align with
  | false =>
    rw [halign] at h
    cases h
    rw [if_neg fun hpow => ?_]
    rw [isSingleBit_iff.2 hpow] at halign
    cases halign
  | true =>
    rw [if_pos (isSingleBit_iff.1 halign)]
    simp only [halign, Bool.not_true, Bool.false_eq_true, ↓reduceIte, bind, Except.bind, pure,
      Except.pure] at h
    cases hlast : checkedSum p.used (align - 1) with
    | none =>
      rw [hlast] at h
      cases h
      rfl
    | some last =>
      simp only [hlast, Option.elim_some] at h
      cases hstop : checkedSum (clearBelow last (align - 1)) size with
      | none =>
        rw [hstop] at h
        cases h
        rfl
      | some stop =>
        rw [hstop] at h
        cases h

theorem grant_eq (p : Plan) (r : Request) :
    p.grant r = p.reserve (.ofNat r.size) (.ofNat r.align) := by
  cases r with
  | bytes => rw [grant, Request.size, Request.align, UInt64.ofNat_toNat, UInt64.ofNat_toNat]
  | record => rfl

theorem grant_eq_ok : p.grant r = .ok (start, q) ↔ r.align.isPowerOfTwo ∧
    start.toNat = Extent.aligned p.used.toNat r.align ∧ q.used.toNat = start.toNat + r.size := by
  rw [grant_eq, reserve_eq_ok, UInt64.toNat_ofNat_of_lt' r.size_lt,
    UInt64.toNat_ofNat_of_lt' r.align_lt]

/-- Whether a request is granted, in numbers. -/
theorem exists_grant_eq_ok : (∃ start q, p.grant r = .ok (start, q)) ↔ r.align.isPowerOfTwo ∧
    Extent.aligned p.used.toNat r.align + r.size < UInt64.size := by
  simp only [grant_eq_ok]
  refine ⟨?_, ?_⟩
  · rintro ⟨start, q, hpow, hstart, hused⟩
    rw [← hstart, ← hused]
    exact ⟨hpow, q.used.toNat_lt⟩
  · rintro ⟨hpow, hfits⟩
    have hstart := UInt64.toNat_ofNat_of_lt' (Nat.lt_of_le_of_lt (Nat.le_add_right _ _) hfits)
    refine ⟨_, ⟨.ofNat (Extent.aligned p.used.toNat r.align + r.size)⟩, hpow, hstart, ?_⟩
    rw [hstart, UInt64.toNat_ofNat_of_lt' hfits]

/-- What is right to say to a request, and where it leaves the plan. -/
structure Answered (p : Plan) (r : Request) (q : Plan) (said : Except Fault UInt64) : Prop where
  granted : ∀ start, said = .ok start →
    IsLeast {m | r.align ∣ m ∧ p.used.toNat ≤ m} start.toNat ∧
      q.used.toNat = start.toNat + r.size
  refused : (∃ fault, said = .error fault) ↔ ¬ r.align.isPowerOfTwo ∨
    ∃ start, IsLeast {m | r.align ∣ m ∧ p.used.toNat ≤ m} start ∧ UInt64.size ≤ start + r.size
  fault : ∀ fault, said = .error fault → fault = if r.align.isPowerOfTwo then tooLong
    else .invalidArgument "alignment must be a power of two"
  kept : ∀ fault, said = .error fault → q = p
  stepwise : p.reserveStepwise (.ofNat r.size) (.ofNat r.align) =
    .ok (said.map fun start => (start, q))

theorem answer_of_grant_ok (h : p.grant r = .ok (start, q)) : p.answer r = (q, .ok start) := by
  rw [answer, h]

theorem answer_of_grant_error {fault : Fault} (h : p.grant r = .error fault) :
    p.answer r = (p, .error fault) := by
  rw [answer, h]

theorem answered (p : Plan) (r : Request) : p.Answered r (p.answer r).1 (p.answer r).2 := by
  have hstepwise := p.reserveStepwise_eq (.ofNat r.size) (.ofNat r.align)
  rw [← grant_eq] at hstepwise
  rcases h : p.grant r with fault | ⟨start, q⟩
  · rw [answer_of_grant_error h]
    have hrefused : ¬ (r.align.isPowerOfTwo ∧
        Extent.aligned p.used.toNat r.align + r.size < UInt64.size) := by
      rw [← exists_grant_eq_ok, h]
      rintro ⟨_, _, ⟨⟩⟩
    have hfault := fault_of_reserve (grant_eq p r ▸ h)
    rw [UInt64.toNat_ofNat_of_lt' r.align_lt] at hfault
    refine ⟨nofun, iff_of_true ⟨fault, rfl⟩ ?_, ?_, fun _ _ => rfl, ?_⟩
    · refine (Classical.em r.align.isPowerOfTwo).symm.imp id fun hpow => ?_
      have hleast := Extent.isLeast_aligned p.used.toNat (Nat.pos_of_isPowerOfTwo hpow)
      exact ⟨_, hleast, Nat.not_lt.1 fun hfits => hrefused ⟨hpow, hfits⟩⟩
    · rintro _ ⟨⟩
      exact hfault
    · rw [hstepwise, h]
      rfl
  · rw [answer_of_grant_ok h]
    obtain ⟨hpow, hstart, hused⟩ := grant_eq_ok.1 h
    have hleast := Extent.isLeast_aligned p.used.toNat (Nat.pos_of_isPowerOfTwo hpow)
    refine ⟨?_, iff_of_false nofun ?_, nofun, nofun, ?_⟩
    · rintro _ ⟨⟩
      exact ⟨hstart ▸ hleast, hused⟩
    · rintro (hnot | ⟨other, hother, hlong⟩)
      · exact hnot hpow
      · rw [hother.unique hleast, ← hstart, ← hused] at hlong
        exact Nat.not_lt.2 hlong q.used.toNat_lt
    · rw [hstepwise, h]
      rfl

/-- What was granted lies between two ends, one behind the other. -/
structure Lined (start stop : Nat) (spans : List Span) : Prop where
  within : ∀ s ∈ spans, start ≤ s.start ∧ s.start + s.size ≤ stop
  inOrder : spans.Pairwise fun a b => a.start + a.size ≤ b.start
  le : start ≤ stop

theorem Lined.cons {start mid stop : Nat} {s : Span} {spans : List Span}
    (h : Lined mid stop spans) (hstart : start ≤ s.start) (hend : s.start + s.size ≤ mid) :
    Lined start stop (s :: spans) := by
  have hle := h.le
  refine ⟨List.forall_mem_cons.2 ⟨⟨hstart, by omega⟩, fun t ht => ?_⟩,
    List.pairwise_cons.2 ⟨fun t ht => ?_, h.inOrder⟩, by omega⟩
  · have hwithin := h.within t ht
    omega
  · have hwithin := h.within t ht
    omega

theorem spans_cons (p : Plan) (r : Request) (requests : List Request) :
    p.spans (r :: requests) =
      (granted? (r, (p.answer r).2)).toList ++ (p.answer r).1.spans requests := by
  rw [spans, replies, List.zip_cons_cons, List.filterMap_cons, ← spans]
  cases granted? (r, (p.answer r).2) <;> rfl

theorem lined_spans (p : Plan) (requests : List Request) :
    Lined p.used.toNat (after answer p requests).used.toNat (p.spans requests) := by
  induction requests generalizing p with
  | nil => exact ⟨nofun, .nil, Nat.le_refl _⟩
  | cons r requests ih =>
    have hrest := ih (p.answer r).1
    have hanswered := p.answered r
    rw [spans_cons, after_cons]
    cases hsaid : (p.answer r).2 with
    | error fault =>
      rw [hanswered.kept fault hsaid] at hrest ⊢
      exact hrest
    | ok start =>
      obtain ⟨hleast, hused⟩ := hanswered.granted start hsaid
      -- what is granted later begins where this stretch ends, or behind
      exact hrest.cons (s := ⟨start.toNat, r.size⟩) hleast.1.2 (Nat.le_of_eq hused.symm)

theorem Lined.disjoint {start stop : Nat} {spans : List Span} (h : Lined start stop spans) :
    spans.Pairwise fun a b => a.offsets ∩ b.offsets = ∅ := by
  refine h.inOrder.imp fun hle => Set.eq_empty_iff_forall_notMem.2 ?_
  rintro offset ⟨⟨-, hlt⟩, ⟨hge, -⟩⟩
  omega

/-- What requests to a plan that is empty at first come to. -/
structure Reserved (requests : List Request) : Prop where
  answered : ∀ earlier r later, requests = earlier ++ r :: later →
    let p := after answer .empty earlier
    p.Answered r (p.answer r).1 (p.answer r).2
  lined : Lined 0 (after answer .empty requests).used.toNat (empty.spans requests)
  disjoint : (empty.spans requests).Pairwise fun a b => a.offsets ∩ b.offsets = ∅
  /-- The requests behind one that is refused are answered as if it had not been made. -/
  ignored : ∀ earlier r later fault, requests = earlier ++ r :: later →
    ((after answer .empty earlier).answer r).2 = .error fault →
    after answer .empty (earlier ++ later) = after answer .empty requests ∧
    ∃ rest, replies answer .empty requests = replies answer .empty earlier ++ .error fault :: rest ∧
      replies answer .empty (earlier ++ later) = replies answer .empty earlier ++ rest

theorem reserved_run (requests : List Request) : Reserved requests where
  answered earlier r _ _ := answered (after answer .empty earlier) r
  lined := lined_spans .empty requests
  disjoint := (lined_spans .empty requests).disjoint
  ignored := by
    rintro earlier r later fault rfl hsaid
    have hkept := (answered (after answer .empty earlier) r).kept fault hsaid
    refine ⟨?_, replies answer (after answer .empty earlier) later, ?_, replies_append ..⟩
    · rw [after_append, after_append, after_cons, hkept]
    · rw [replies_append, replies, hsaid, hkept]

/-- The last word is not beyond reach. -/
example : replies answer .empty [.bytes 8 3, .bytes 0xffffffffffffffff 1, .bytes 1 1, .bytes 0 1] =
    [.error (.invalidArgument "alignment must be a power of two"), .ok 0, .error tooLong,
      .ok 0xffffffffffffffff] := by rfl

end Plan

end Cadence
