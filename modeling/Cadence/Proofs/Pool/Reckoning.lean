import Cadence.Proofs.Pool.Laps
import Cadence.Proofs.Queue.Reckoning

/-!
The count of a frame pool as its users can reckon with it, and with it that of a ticket queue: room
is handed out the same way in both. What a refused write hands back is the code that was passed to
it, which has found nothing and left nothing.
-/

namespace Cadence

namespace FramePool

variable {len : Nat} {c : Capacity} {n : Nat} {ε : Type}

/-! Alone, nothing happens between the steps of a write. -/

theorem write_of_lt {pool : FramePool len c} (hroom : pool.count.toNat < c.size)
    (hclear : pool.ready.get (c.slot pool.head) = false) (writer : Writer len ε) :
    pool.write writer = ({ pool with
        count := pool.count + 1
        head := pool.head + 1
        ready := replaceAt pool.ready (c.slot pool.head) true
        frames := replaceAt pool.frames (c.slot pool.head)
          (writer (pool.frames.get (c.slot pool.head))).1 },
      .done (writer (pool.frames.get (c.slot pool.head))).2) := by
  have hadmit : Write.call.step pool (.start writer) =
      ({ pool with count := pool.count + 1 }, .more (.reserved writer)) := by
    simp only [Write.call, Write.step, if_neg (Nat.not_le.2 hroom)]
  have hfree : Write.call.step { pool with count := pool.count + 1, head := pool.head + 1 }
      (.ticketed writer pool.head) = (_, .more (.inside writer pool.head)) :=
    congrArg (Prod.mk _) (if_neg (by rw [hclear]; exact Bool.false_ne_true))
  rw [write, Procedure.run_of_more hadmit, Procedure.run_of_more rfl,
    Procedure.run_of_more hfree, Procedure.run_of_more rfl, Procedure.run_of_back rfl]

theorem write_of_le {pool : FramePool len c} (hfull : c.size ≤ pool.count.toNat)
    (writer : Writer len ε) : pool.write writer = (pool, .rejected ⟨writer⟩) := by
  have hrefuse : Write.call.step pool (.start writer) =
      ({ pool with count := pool.count + 1 }, .more (.refused writer)) := by
    simp only [Write.call, Write.step, if_pos hfull]
  rw [write, Procedure.run_of_more hrefuse, Procedure.run_of_back rfl]
  simp only [UInt64.add_sub_cancel]

namespace Written

def isRejected : Written len ε → Bool
  | rejected _ => true
  | _ => false

end Written

namespace Traffic

variable {t t' : Traffic len c n ε} {s : UInt64} {inner outer : List (Call len n ε)}
  {x : Call len n ε} {p : Fin (n + 1)}

def rejected (t : Traffic len c n ε) : List (Fin (n + 1) × Writer len ε × Written len ε) :=
  t.answers.filter (·.2.2.isRejected)

def unread (t : Traffic len c n ε) : Nat := t.drawn - t.taken.length

structure Quiet (t : Traffic len c n ε) : Prop where
  calls : t.calls = []
  reading : t.reading = none

structure Reckoned (t : Traffic len c n ε) : Prop where
  count : t.pool.count.toNat = t.outstanding + t.refusing
  room : t.outstanding ≤ c.size
  rejecting : ∀ x ∈ t.calls, x.pc.isRefused = true → 0 < t.pool.count.toNat
  leaving : ∀ x, t.reading = some x → x.pc.hasAdvanced = true → 0 < t.pool.count.toNat
  asks : ∀ p inner x outer w, innermost? t.calls p = some (inner, x, outer) → x.pc = .start w →
    t.fire (.push p) = some { t with
      pool := { t.pool with count := t.pool.count + 1 }
      calls := inner ++ { x with
        pc := if c.size ≤ t.outstanding + t.refusing then .refused w else .reserved w } :: outer }
  refused : ∀ p inner x outer w, innermost? t.calls p = some (inner, x, outer) →
    x.pc = .refused w → t.fire (.push p) = some { t with
      pool := { t.pool with count := t.pool.count - 1 }
      calls := inner ++ outer
      answers := t.answers ++ [(p, x.writer, .rejected ⟨x.writer⟩)] }
  others : ∀ p inner x outer t', innermost? t.calls p = some (inner, x, outer) →
    x.pc.isRefused = false → t.fire (.push p) = some t' → t'.rejected = t.rejected
  quiet : t.Quiet → t.pool.count.toNat = t.unread ∧
    (t.pool.head - t.pool.tail).toNat = t.unread ∧ t.pool.held = t.unread ∧
      ∀ w : Writer len ε, if t.unread < c.size then
          (t.pool.write w).2 = .done (w (t.pool.frames.get (c.slot t.pool.head))).2
        else t.pool.write w = (t.pool, .rejected ⟨w⟩)

theorem rejected_goOn (t : Traffic len c n ε) (inner outer : List (Call len n ε))
    (x : Call len n ε) (pool : FramePool len c) (pc : Write len ε) :
    (t.goOn inner outer x pool pc).rejected = t.rejected := by
  cases pc <;> rfl

/-- A call that is back with another answer. -/
theorem rejected_append {answer : Fin (n + 1) × Writer len ε × Written len ε}
    (hanswers : t'.answers = t.answers ++ [answer]) (h : answer.2.2.isRejected = false) :
    t'.rejected = t.rejected := by
  rw [rejected, hanswers, List.filter_append,
    List.filter_cons_of_neg (by rw [h]; exact Bool.false_ne_true), List.filter_nil,
    List.append_nil]
  rfl

theorem rejected_of_push (hx : innermost? t.calls p = some (inner, x, outer))
    (hpc : x.pc.isRefused = false) (hfire : t.fire (.push p) = some t') :
    t'.rejected = t.rejected := by
  simp only [fire, hx] at hfire
  cases hstep : x.pc with
  | start w | reserved w | inside w ticket =>
    simp only [hstep, Write.step, Option.some.injEq] at hfire
    rw [← hfire]
    exact rejected_goOn ..
  | refused w =>
    rw [hstep] at hpc
    cases hpc
  | ticketed w ticket =>
    cases hset : t.pool.ready.get (c.slot ticket) with
    | true =>
      simp only [hstep, Write.step, hset, ↓reduceIte, Option.some.injEq] at hfire
      exact rejected_append (by rw [← hfire]) rfl
    | false =>
      simp only [hstep, Write.step, hset, Bool.false_eq_true, ↓reduceIte,
        Option.some.injEq] at hfire
      rw [← hfire]
      exact rejected_goOn ..
  | leaving ticket ending =>
    simp only [hstep, Write.step, Option.some.injEq] at hfire
    exact rejected_append (by rw [← hfire]) rfl

theorem reckoned_of_orderly (hn : n + 1 + c.size < UInt64.size) (h : Orderly s t)
    (hcarries : Carries t) : Reckoned t := by
  have htaken : t.taken.length ≤ t.drawn := Nat.le_trans (Nat.le_add_right _ _) h.released_le
  have hroom := h.accounted.room
  have hcount : t.pool.count.toNat = t.outstanding + t.refusing := by
    have hrefusing : t.refusing ≤ n + 1 := h.nested.standing_isRefused_le_succ
    rw [h.accounted.count]
    exact UInt64.toNat_ofNat_of_lt' (by omega)
  refine ⟨hcount, hroom, ?_, ?_, ?_, ?_, fun _ _ _ _ _ => rejected_of_push, ?_⟩
  · intro x hx hrefused
    have hpos : 0 < t.refusing := List.countP_pos_iff.2 ⟨x, hx, hrefused⟩
    omega
  · intro x hx hadvanced
    have hleft := h.released_le
    rw [released, hx, Option.any_some, Read.hasReleased_of_hasAdvanced hadvanced] at hleft
    have hpos : 0 < t.outstanding := by
      rw [outstanding]
      exact Nat.sub_pos_of_lt (Nat.lt_of_lt_of_le hleft (Nat.le_add_right _ _))
    omega
  · intro p inner x outer w hx hpc
    rw [← hcount]
    by_cases hfull : c.size ≤ t.pool.count.toNat
    · simp only [fire, hx, hpc, Write.step, goOn, ge_iff_le, if_pos hfull]
    · simp only [fire, hx, hpc, Write.step, goOn, ge_iff_le, if_neg hfull]
  · intro p inner x outer w hx hpc
    have hmem : x ∈ t.calls := by
      rw [(innermost?_eq_some hx).1]
      exact List.mem_append_right _ (.head _)
    obtain rfl : w = x.writer := hcarries.calls x hmem w (by rw [hpc]; rfl)
    simp only [fire, hx, hpc, Write.step]
  · intro hquiet
    have hrefusing : t.refusing = 0 := by rw [refusing, hquiet.calls]; rfl
    have hunread : t.outstanding = t.unread := by rw [outstanding, hquiet.calls]; rfl
    rw [hrefusing, Nat.add_zero, hunread] at hcount
    rw [hunread] at hroom
    have hpassed : t.passed = t.taken.length := by rw [passed, hquiet.reading]; rfl
    have hreleased : t.released = t.taken.length := by rw [released, hquiet.reading]; rfl
    have hdrawn : t.drawn = t.taken.length + t.unread := by
      rw [unread]
      omega
    have hlt := c.size_lt
    refine ⟨hcount, ?_, ?_, fun w => ?_⟩
    · rw [h.head, h.tail, hpassed, hdrawn, ← position_position]
      exact toNat_position_sub (by omega)
    · rw [held, hcount]
      exact Nat.min_eq_left hroom
    · split
      · rename_i hlt'
        have hclear : t.pool.ready.get (c.slot t.pool.head) = false := by
          rw [h.head]
          exact h.placed.free _ h.released_le (by omega) (.inl (Nat.le_refl _))
        rw [write_of_lt (by omega) hclear]
      · exact write_of_le (by omega) w

end Traffic

end FramePool

/-- Room is reckoned with in one way, in queues and in pools, at every moment of every run. -/
theorem reckoned_run (c : Capacity) (s : UInt64) (n : Nat) :
    (∀ {α : Type} {q : TicketQueue α c} {moves : List (TicketQueue.Traffic.Move α n)}
        {t : TicketQueue.Traffic α c n}, n + c.size < UInt64.size → q.EmptyAt s →
        (TicketQueue.Traffic.start n q).run moves = some t → t.Reckoned) ∧
      ∀ {len : Nat} {ε : Type} {pool : FramePool len c}
        {moves : List (FramePool.Traffic.Move len n ε)} {t : FramePool.Traffic len c n ε},
        n + 1 + c.size < UInt64.size → pool.EmptyAt s →
        (FramePool.Traffic.start n pool).run moves = some t → t.Reckoned := by
  refine ⟨fun {α q moves t} hn hq hrun => ?_, fun {len ε pool moves t} hn hpool hrun => ?_⟩
  · have h := TicketQueue.Traffic.keeps_run hn
      ⟨TicketQueue.Traffic.orderly_start hq, TicketQueue.Traffic.answered_start q⟩ hrun
    exact TicketQueue.Traffic.reckoned_of_orderly h.1 h.2
  · have h := FramePool.Traffic.regular_run (by omega) (FramePool.Traffic.regular_start hpool) hrun
    exact FramePool.Traffic.reckoned_of_orderly hn h.orderly h.carries

def oneTooMany (p r : Fin 2) (writer : FramePool.Writer 1 Unit) :
    List (FramePool.Traffic.Move 1 1 Unit) :=
  [.offer p writer, .offer r writer, .push p, .push r]

theorem reckoned_run_oneTooMany :
    (∃ t, (TicketQueue.Traffic.start 2 TicketQueue.Traffic.lastLap).run
        ((TicketQueue.Traffic.overTheWrap 0 1).take 4) = some t ∧
        t.outstanding = 1 ∧ t.refusing = 1 ∧ t.Reckoned) ∧
      ∃ t : FramePool.Traffic 1 ⟨0, by decide⟩ 1 Unit,
        (FramePool.Traffic.start 1 .empty).run (oneTooMany 0 1 fun frame => (frame, .returned ())) =
          some t ∧ t.outstanding = 1 ∧ t.refusing = 1 ∧ t.Reckoned := by
  refine ⟨?_, ?_⟩
  · obtain ⟨t, hrun, ho, hr⟩ : ∃ t, (TicketQueue.Traffic.start 2 TicketQueue.Traffic.lastLap).run
        ((TicketQueue.Traffic.overTheWrap 0 1).take 4) = some t ∧
        t.outstanding = 1 ∧ t.refusing = 1 := ⟨_, rfl, rfl, rfl⟩
    exact ⟨t, hrun, ho, hr, (reckoned_run _ 18446744073709551615 2).1 (by decide)
      ⟨rfl, rfl, rfl, by decide⟩ hrun⟩
  · obtain ⟨t, hrun, ho, hr⟩ : ∃ t : FramePool.Traffic 1 ⟨0, by decide⟩ 1 Unit,
        (FramePool.Traffic.start 1 .empty).run (oneTooMany 0 1 fun frame => (frame, .returned ())) =
          some t ∧ t.outstanding = 1 ∧ t.refusing = 1 := ⟨_, rfl, rfl, rfl⟩
    exact ⟨t, hrun, ho, hr, (reckoned_run _ 0 1).2 (by decide) FramePool.emptyAt_empty hrun⟩

end Cadence
