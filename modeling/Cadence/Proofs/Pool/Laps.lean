import Cadence.Proofs.Pool.Codes
import Cadence.Proofs.Run

/-!
Frames, lap after lap. What anybody around a frame pool can rely on, for as many writers as the
count has words for: the codes of two calls never run on one frame, a code finds what was left in
its frame one lap before, and the reads are given what was left, each ticket once and in order. It
does not matter how a code ended, nor whether it wrote into the pool itself while it ran. The
reader's code may do that too, beside all the writers. No later step makes any of it untrue: what a
ticket found and left is settled once, by the one call that holds it.
-/

namespace Cadence.FramePool

variable {len : Nat} {c : Capacity} {n : Nat} {ε : Type}

namespace Read

/-- The frame that the reader has found ready and not yet given back. -/
def claim? : Read len ε → Option UInt64
  | inside _ ticket | leaving ticket _ => some ticket
  | _ => none

theorem Stands.claims {s ticket : UInt64} {k : Nat} {ready : Prop} {given : Bool}
    {pc : Read len ε} (h : pc.Stands s k ready given) (hclaim : pc.claim? = some ticket) :
    ticket = position s k ∧ ready ∧ pc.hasReleased = false := by
  cases pc with
  | inside r w =>
    cases hclaim
    exact ⟨h.1, h.2, rfl⟩
  | leaving w ending =>
    cases hclaim
    exact ⟨h.1, h.2.1, rfl⟩
  | start | positioned | cleared | advanced => cases hclaim

end Read

namespace Traffic

variable {t t' : Traffic len c n ε} {s : UInt64} {x y : Call len n ε}

/-- Nothing that was on record in `t` is another in `t'`. -/
structure Recalled (t t' : Traffic len c n ε) : Prop where
  codes : ∀ k w, t.codes k = some w → t'.codes k = some w
  found : ∀ k frame, t.found k = some frame → t'.found k = some frame
  left : ∀ k frame, t.left k = some frame → t'.left k = some frame
  taken : t.taken <+: t'.taken
  looks : t.looks <+: t'.looks

/-- What holds for those around the pool, the tickets being those from `s` on. -/
structure DeliversFrames (s : UInt64) (t : Traffic len c n ε) : Prop where
  numbered : ∀ x ∈ t.calls, ∀ ticket, x.pc.ticket? = some ticket →
    ticket = position s x.number ∧ x.number < t.drawn
  clear : ∀ x ∈ t.calls, ∀ ticket, x.pc.ticket? = some ticket →
    t.pool.ready.get (c.slot ticket) = false
  answers : ∀ p w, (p, w, .clash) ∉ t.answers
  alone : t.calls.Pairwise fun x y => ∀ ticket ticket', x.pc.ticket? = some ticket →
    y.pc.ticket? = some ticket' → c.slot ticket ≠ c.slot ticket'
  apart : ∀ x ∈ t.calls, ∀ r ticket ticket', x.pc.ticket? = some ticket →
    t.reading = some r → r.pc.claim? = some ticket' → c.slot ticket ≠ c.slot ticket'
  /-- What the reader's code sees is what was left under the ticket that it comes to next. -/
  shown : ∀ r ticket, t.reading = some r → r.pc.claim? = some ticket →
    ticket = position s t.taken.length ∧ t.pool.ready.get (c.slot ticket) = true ∧
      t.left t.taken.length = some (t.pool.frames.get (c.slot ticket))
  given : ∀ r, t.reading = some r → r.pc.hasRead = true →
    ∃ frame, r.given = some frame ∧ t.left t.taken.length = some frame
  taken : ∀ k frame, t.taken[k]? = some frame → t.left k = some frame
  /-- Until its frame is given back, a ticket is its writer's, or waits with all that was left. -/
  waiting : ∀ k, t.released ≤ k → k < t.drawn →
    (∃ x ∈ t.calls, x.number = k ∧ x.pc.ticket? = some (position s k)) ∨
      t.pool.ready.get (c.slot (position s k)) = true ∧
        t.left k = some (t.pool.frames.get (c.slot (position s k)))
  /-- The code of every ticket began with what it inherits, unless it has not begun. -/
  found : ∀ k < t.drawn,
    (∃ x ∈ t.calls, x.number = k ∧ ∃ w, x.pc = .ticketed w (position s k)) ∨
      ∃ frame, t.found k = some frame ∧ inherited c t.left k = some frame
  /-- What the last piece of a code is to be given is what that code has made of its frame. -/
  made : ∀ x ∈ t.calls, ∀ frame, x.pc.handed? t.pool = some frame → t.made x.number = some frame
  coded : Coded t
  recalled : ∀ moves t', t.run moves = some t' → Recalled t t'

theorem Recalled.refl (t : Traffic len c n ε) : Recalled t t :=
  ⟨fun _ _ => id, fun _ _ => id, fun _ _ => id, List.prefix_refl _, List.prefix_refl _⟩

theorem Recalled.trans {u : Traffic len c n ε} (h : Recalled t u) (h' : Recalled u t') :
    Recalled t t' where
  codes k w hk := h'.codes k w (h.codes k w hk)
  found k frame hk := h'.found k frame (h.found k frame hk)
  left k frame hk := h'.left k frame (h.left k frame hk)
  taken := h.taken.trans h'.taken
  looks := h.looks.trans h'.looks

/-- The record of a ticket is filled in once, by the one call that holds it. -/
theorem Orderly.recalled (h : Orderly s t) (hcarries : Carries t) (turn : Turn t t') :
    Recalled t t' := by
  cases turn with
  | draw inner outer x w here =>
    refine { Recalled.refl t with codes := fun k w hk => ?_ }
    have hnone := hcarries.undrawn t.drawn (Nat.le_refl _)
    exact (Function.update_of_ne (by rintro rfl; cases hnone.symm.trans hk) ..).trans hk
  | enter inner outer x w ticket here =>
    obtain ⟨-, hfound, -⟩ := h.tells_here here
    refine { Recalled.refl t with found := fun k frame hk => ?_ }
    exact (Function.update_of_ne (by rintro rfl; cases hfound.symm.trans hk) ..).trans hk
  | finish inner outer x w ticket frame ending here =>
    obtain ⟨-, -, hleft⟩ := h.tells_here here
    refine { Recalled.refl t with left := fun k frame hk => ?_ }
    exact (Function.update_of_ne (by rintro rfl; cases hleft.symm.trans hk) ..).trans hk
  | leave =>
    exact { Recalled.refl t with taken := List.prefix_append _ _, looks := List.prefix_append _ _ }
  | offer | refuse | reserve | reject | clash | touch | publish | ask | locate | admitted
  | dismiss | perceive | release | advance => exact { Recalled.refl t with }

theorem Orderly.ticket_eq (h : Orderly s t) (hx : x ∈ t.calls) {ticket : UInt64}
    (hticket : x.pc.ticket? = some ticket) : ticket = position s x.number :=
  (h.tells x hx).ticket_eq hticket

theorem Orderly.alone (h : Orderly s t) :
    t.calls.Pairwise fun x y => ∀ ticket ticket', x.pc.ticket? = some ticket →
      y.pc.ticket? = some ticket' → c.slot ticket ≠ c.slot ticket' := by
  refine (List.pairwise_filterMap.1 h.placed.once).imp_of_mem ?_
  intro x y hx hy hne ticket ticket' hticket hticket'
  have hsome := Option.isSome_of_eq_some hticket
  have hsome' := Option.isSome_of_eq_some hticket'
  have hbounds := h.bounds hx hsome
  have hbounds' := h.bounds hy hsome'
  have hroom := h.room
  rw [h.ticket_eq hx hticket, h.ticket_eq hy hticket']
  exact Capacity.slot_position_ne hbounds.1 (by omega) hbounds'.1 (by omega)
    (hne _ (Call.number?_eq_some hsome) _ (Call.number?_eq_some hsome'))

theorem Orderly.claims (h : Orderly s t) {r : Reading len ε} {ticket : UInt64}
    (hr : t.reading = some r) (hclaim : r.pc.claim? = some ticket) :
    ticket = position s t.taken.length ∧ Ready t ∧ t.released = t.taken.length := by
  obtain ⟨hticket, hready, hreleased⟩ := (h.stands r hr).claims hclaim
  refine ⟨hticket, hready, ?_⟩
  rw [released, hr, Option.any_some, hreleased]
  rfl

theorem Orderly.apart (h : Orderly s t) (hx : x ∈ t.calls) {r : Reading len ε}
    {ticket ticket' : UInt64} (hticket : x.pc.ticket? = some ticket) (hr : t.reading = some r)
    (hclaim : r.pc.claim? = some ticket') : c.slot ticket ≠ c.slot ticket' := by
  obtain ⟨rfl, ⟨hlt, hnot⟩, hreleased⟩ := h.claims hr hclaim
  have hsome := Option.isSome_of_eq_some hticket
  have hbounds := h.bounds hx hsome
  have hroom := h.room
  rw [h.ticket_eq hx hticket]
  refine Capacity.slot_position_ne hbounds.1 (by omega) (Nat.le_of_eq hreleased) (by omega) ?_
  intro heq
  exact hnot (mem_pending.2 ⟨x, hx, heq ▸ Call.number?_eq_some hsome⟩)

theorem Orderly.waiting (h : Orderly s t) {k : Nat} (hk : t.released ≤ k) (hlt : k < t.drawn) :
    (∃ x ∈ t.calls, x.number = k ∧ x.pc.ticket? = some (position s k)) ∨
      t.pool.ready.get (c.slot (position s k)) = true ∧
        t.left k = some (t.pool.frames.get (c.slot (position s k))) := by
  by_cases hmem : k ∈ pending t.calls
  · obtain ⟨x, hx, hnumber⟩ := mem_pending.1 hmem
    obtain ⟨ticket, hticket, rfl⟩ := Option.map_eq_some_iff.1 hnumber
    exact .inl ⟨x, hx, rfl, h.ticket_eq hx hticket ▸ hticket⟩
  · exact .inr ⟨h.placed.full k hk hlt hmem, h.left_eq hk hlt hmem⟩

theorem Orderly.found (h : Orderly s t) {k : Nat} (hlt : k < t.drawn) :
    (∃ x ∈ t.calls, x.number = k ∧ ∃ w, x.pc = .ticketed w (position s k)) ∨
      ∃ frame, t.found k = some frame ∧ inherited c t.left k = some frame := by
  cases hfound : t.found k with
  | some frame => exact .inr ⟨frame, rfl, h.filled.handed k frame hfound⟩
  | none =>
    -- only the call that holds the ticket can say so, and only before its code begins
    have hmem : k ∈ pending t.calls := by_contra fun hnot =>
      (h.filled.published k hlt hnot).1 hfound
    obtain ⟨x, hx, hnumber⟩ := mem_pending.1 hmem
    obtain ⟨ticket, hticket, rfl⟩ := Option.map_eq_some_iff.1 hnumber
    exact .inl ⟨x, hx, rfl,
      (h.tells x hx).eq_ticketed (Option.isSome_of_eq_some hticket) hfound⟩

structure Regular (s : UInt64) (t : Traffic len c n ε) : Prop where
  orderly : Orderly s t
  carries : Carries t
  coded : Coded t

theorem regular_start {pool : FramePool len c} (hpool : pool.EmptyAt s) :
    Regular s (start n pool : Traffic len c n ε) :=
  ⟨orderly_start hpool, ⟨nofun, fun _ _ => rfl⟩, coded_start pool⟩

theorem regular_turn (hn : n + c.size < UInt64.size) (h : Regular s t) (turn : Turn t t') :
    Regular s t' :=
  ⟨orderly_turn hn h.orderly h.carries turn, carries_turn h.carries turn,
    coded_turn h.coded h.orderly h.carries turn⟩

theorem regular_run (hn : n + c.size < UInt64.size) {moves : List (Move len n ε)}
    (h : Regular s t) (hrun : t.run moves = some t') : Regular s t' :=
  run_keeps (fun _ _ _ hk hm => regular_turn hn hk (turn_of_fire hm)) h hrun

theorem recalled_run (hn : n + c.size < UInt64.size) {moves : List (Move len n ε)}
    (h : Regular s t) (hrun : t.run moves = some t') : Recalled t t' :=
  (run_keeps (P := fun u => Regular s u ∧ Recalled t u)
    (fun _ _ _ hk hm => ⟨regular_turn hn hk.1 (turn_of_fire hm),
      hk.2.trans (hk.1.orderly.recalled hk.1.carries (turn_of_fire hm))⟩) ⟨h, .refl t⟩ hrun).2

theorem Coded.made_eq (h : Coded t) (hx : x ∈ t.calls) {frame : Frame len}
    (hhanded : x.pc.handed? t.pool = some frame) : t.made x.number = some frame := by
  cases hpc : x.pc with
  | inside w ticket =>
    rw [hpc, Write.handed?_inside] at hhanded
    exact hhanded ▸ h.inside x hx w ticket hpc
  | start | refused | reserved | ticketed | leaving =>
    rw [hpc] at hhanded
    cases hhanded

theorem deliversFrames_of_regular (hn : n + c.size < UInt64.size) (h : Regular s t) :
    DeliversFrames s t where
  numbered _ hx _ hticket :=
    ⟨h.orderly.ticket_eq hx hticket,
      (h.orderly.bounds hx (Option.isSome_of_eq_some hticket)).2⟩
  clear _ hx _ hticket := by
    rw [h.orderly.ticket_eq hx hticket]
    exact h.orderly.clear hx (Option.isSome_of_eq_some hticket)
  answers := h.orderly.answers
  alone := h.orderly.alone
  apart _ hx _ _ _ hticket hr hclaim := h.orderly.apart hx hticket hr hclaim
  shown r ticket hr hclaim := by
    obtain ⟨rfl, ⟨hlt, hnot⟩, hreleased⟩ := h.orderly.claims hr hclaim
    exact ⟨rfl, h.orderly.placed.full _ (Nat.le_of_eq hreleased) hlt hnot,
      h.orderly.left_eq (Nat.le_of_eq hreleased) hlt hnot⟩
  given r hr hread := by
    obtain ⟨frame, hframe⟩ := Option.isSome_iff_exists.1 (h.orderly.isSome_given hr hread)
    exact ⟨frame, hframe, h.orderly.given r frame hr hframe⟩
  taken := h.orderly.taken
  waiting _ hk hlt := h.orderly.waiting hk hlt
  found _ hlt := h.orderly.found hlt
  made _ hx _ := h.coded.made_eq hx
  coded := h.coded
  recalled _ _ hrun := recalled_run hn h hrun

/-- Frames are passed on whatever happens in between, from any place where the pool is empty. -/
theorem deliversFrames_run {pool : FramePool len c} (hn : n + c.size < UInt64.size)
    (hpool : pool.EmptyAt s) {moves : List (Move len n ε)}
    (hrun : (start n pool).run moves = some t) : DeliversFrames s t :=
  deliversFrames_of_regular hn (regular_run hn (regular_start hpool) hrun)

/-- Two frames of one byte, and as many tickets drawn before as a word can count. -/
def lastTicket : FramePool 1 .pair :=
  { head := 18446744073709551615, tail := 18446744073709551615, count := 0
    ready := .replicate _ false, frames := .replicate _ (.replicate _ 0) }

def laying (byte : UInt8) (ending : Ending Unit) : Writer 1 Unit := fun _ =>
  (.replicate 1 byte, ending)

/-- A writer whose code writes again and panics there, and a reader whose code writes in turn. -/
def throughTheWrap (p r : Fin 2) (look : Reader 1 Unit) (reuse : Writer 1 Unit) :
    List (Move 1 1 Unit) :=
  [.offer p (laying 7 (.returned ())), .push p, .push p, .push p,
    .offer p (laying 8 (.panicked "late")), .push p, .push p, .push p, .touch p (.replicate 1 1),
    .push p, .push p, .ask look, .pull, .pull, .touch p (.replicate 1 2), .push p, .push p,
    .ask look, .pull, .pull, .pull, .pull, .pull, .pull,
    .ask look, .pull, .pull, .offer r reuse, .push r, .push r, .push r, .push r, .push r,
    .pull, .pull, .pull, .pull, .ask look, .pull, .pull, .pull, .pull, .pull, .pull]

theorem deliversFrames_run_throughTheWrap : ∃ t,
    (start 1 lastTicket).run (throughTheWrap 0 1 (fun _ => .panicked "early")
        fun frame => (.replicate 1 (frame.get 0 + 1), .returned ())) = some t ∧
    t.taken = [.replicate 1 7, .replicate 1 8, .replicate 1 8] ∧
      t.looks.map Prod.snd = [.panicked "early", .panicked "early", .panicked "early"] ∧
      DeliversFrames 18446744073709551615 t := by
  obtain ⟨t, hrun, htaken, hlooks⟩ : ∃ t,
      (start 1 lastTicket).run (throughTheWrap 0 1 (fun _ => .panicked "early")
        fun frame => (.replicate 1 (frame.get 0 + 1), .returned ())) = some t ∧
      t.taken = [.replicate 1 7, .replicate 1 8, .replicate 1 8] ∧
      t.looks.map Prod.snd = [.panicked "early", .panicked "early", .panicked "early"] :=
    ⟨_, rfl, rfl, rfl⟩
  exact ⟨t, hrun, htaken, hlooks,
    deliversFrames_run (by decide) ⟨rfl, rfl, rfl, by decide, by decide⟩ hrun⟩

end Traffic

end Cadence.FramePool
