import Cadence.Proofs.Pool.Tickets

/-!
Tickets in, frames out. However the steps of writers and reader interleave, and whatever the
writers' own code does in between, it has its frame for itself, finds in it what the ticket one lap
before left, and the reader is given what was left, in the order of the tickets.
-/

namespace Cadence.FramePool

variable {len : Nat} {c : Capacity} {n : Nat} {ε : Type}

/-- Nobody is in the pool, nothing was written yet, and the tickets begin with `s`. -/
structure EmptyAt (pool : FramePool len c) (s : UInt64) : Prop where
  head : pool.head = s
  tail : pool.tail = s
  count : pool.count = 0
  ready : ∀ i, pool.ready.get i = false
  frames : ∀ i, pool.frames.get i = .replicate len 0

theorem emptyAt_empty : (empty : FramePool len c).EmptyAt 0 := by
  refine ⟨rfl, rfl, rfl, fun i => ?_, fun i => ?_⟩
  · change (Vector.replicate c.size false)[i.val] = false
    rw [Vector.getElem_replicate]
  · change (Vector.replicate c.size (Vector.replicate len (0 : UInt8)))[i.val] = _
    rw [Vector.getElem_replicate]

namespace Read

/-- Where the reader stands on its way through the `k`-th ticket. -/
def Stands (s : UInt64) (k : Nat) (ready : Prop) (given : Bool) : Read len ε → Prop
  | start _ => True
  | positioned _ ticket => ticket = position s k
  | inside _ ticket => ticket = position s k ∧ ready
  | leaving ticket _ => ticket = position s k ∧ ready ∧ given = true
  | cleared ticket _ => ticket = position s k ∧ given = true
  | advanced _ => given = true

variable {s : UInt64} {k : Nat} {ready ready' : Prop} {given : Bool} {pc : Read len ε}

theorem Stands.mono (h : pc.Stands s k ready given) (hready : ready → ready') :
    pc.Stands s k ready' given := by
  cases pc with
  | start r => trivial
  | positioned r ticket | cleared ticket ending | advanced ending => exact h
  | inside r ticket => exact ⟨h.1, hready h.2⟩
  | leaving ticket ending => exact ⟨h.1, hready h.2.1, h.2.2⟩

theorem Stands.given_eq (h : pc.Stands s k ready given) (hread : pc.hasRead = true) :
    given = true := by
  cases pc with
  | leaving => exact h.2.2
  | cleared => exact h.2
  | advanced => exact h
  | start | positioned | inside => cases hread

end Read

namespace Traffic

variable {t t' : Traffic len c n ε} {s : UInt64} {inner outer : List (Call len n ε)}
  {x x' : Call len n ε}

def Ready (t : Traffic len c n ε) : Prop :=
  t.taken.length < t.drawn ∧ t.taken.length ∉ pending t.calls

structure Orderly (s : UInt64) (t : Traffic len c n ε) : Prop where
  head : t.pool.head = position s t.drawn
  tail : t.pool.tail = position s t.passed
  nested : Nested t.calls
  accounted : Accounted t
  placed : Placed s t.pool.ready (pending t.calls) t.drawn t.released
  filled : Filled s t.pool.frames (pending t.calls) t.drawn t.released t.found t.left
  tells : ∀ x ∈ t.calls, x.pc.Tells s t.found t.left x.number
  stands : ∀ x, t.reading = some x →
    x.pc.Stands s t.taken.length (Ready t) x.given.isSome
  given : ∀ x frame, t.reading = some x → x.given = some frame →
    t.left t.taken.length = some frame
  taken : ∀ k frame, t.taken[k]? = some frame → t.left k = some frame
  answers : ∀ p w, (p, w, .clash) ∉ t.answers

theorem orderly_start {pool : FramePool len c} (h : pool.EmptyAt s) :
    Orderly s (start n pool : Traffic len c n ε) where
  head := h.head.trans (position_zero s).symm
  tail := h.tail.trans (position_zero s).symm
  nested := .nil
  accounted := accounted_start h.count
  placed :=
    { bounds := fun k hk => nomatch hk
      once := .nil
      free := fun k _ _ _ => h.ready _
      full := fun k _ hk => absurd hk (Nat.not_lt_zero k) }
  filled :=
    { undrawn := fun k _ => ⟨rfl, rfl⟩
      published := fun k hk => absurd hk (Nat.not_lt_zero k)
      fresh := fun k _ hk _ => by
        rw [inherited, if_pos (by simpa [released, start] using hk)]
        exact congrArg some (h.frames _).symm
      kept := fun k frame _ hk => nomatch hk
      handed := fun k frame hk => nomatch hk }
  tells := fun x hx => nomatch hx
  stands := fun x hx => nomatch hx
  given := fun x frame hx => nomatch hx
  taken := fun k frame hk => nomatch hk
  answers := fun p w hw => nomatch hw

theorem Orderly.isSome_given (h : Orderly s t) {x : Reading len ε} (hx : t.reading = some x)
    (hread : x.pc.hasRead = true) : x.given.isSome = true :=
  (h.stands x hx).given_eq hread

theorem Orderly.released_le (h : Orderly s t) : t.released ≤ t.drawn := by
  have hlt : ∀ k frame, t.left k = some frame → k < t.drawn := fun k frame hk =>
    h.filled.lt_of_left (by rw [hk]; exact Option.some_ne_none frame)
  rw [released]
  cases hany : t.reading.any (·.pc.hasReleased) with
  | false =>
    refine Nat.le_of_not_lt fun hover => ?_
    exact Nat.lt_irrefl _ (hlt _ _ (h.taken t.drawn _ (List.getElem?_eq_getElem hover)))
  | true =>
    obtain ⟨x, hx, hreleased⟩ := (Option.any_eq_true _ _).1 hany
    obtain ⟨frame, hframe⟩ :=
      Option.isSome_iff_exists.1 (h.isSome_given hx (Read.hasRead_of_hasReleased hreleased))
    exact hlt _ _ (h.given x frame hx hframe)

theorem Orderly.room (h : Orderly s t) : t.drawn ≤ t.released + c.size := by
  have hroom := h.accounted.room
  rw [outstanding] at hroom
  have : t.taken.length ≤ t.released := Nat.le_add_right _ _
  omega

/-- A step of a writer, which leaves the reader where it is. -/
theorem Orderly.of_write (h : Orderly s t) (hnested : Nested t'.calls) (haccounted : Accounted t')
    (hreading : t'.reading = t.reading) (htaken : t'.taken = t.taken)
    (htail : t'.pool.tail = t.pool.tail) (hhead : t'.pool.head = position s t'.drawn)
    (hplaced : Placed s t'.pool.ready (pending t'.calls) t'.drawn t.released)
    (hfilled : Filled s t'.pool.frames (pending t'.calls) t'.drawn t.released t'.found t'.left)
    (htells : ∀ x ∈ t'.calls, x.pc.Tells s t'.found t'.left x.number) (hready : Ready t → Ready t')
    (hleft : ∀ k frame, t.left k = some frame → t'.left k = some frame)
    (hanswers : ∀ p w, (p, w, .clash) ∉ t'.answers) : Orderly s t' := by
  have hreleased : t'.released = t.released := by rw [released, released, hreading, htaken]
  refine ⟨hhead, ?_, hnested, haccounted, ?_, ?_, htells, ?_, ?_, ?_, hanswers⟩
  · rw [htail, passed, hreading, htaken]
    exact h.tail
  · rw [hreleased]
    exact hplaced
  · rw [hreleased]
    exact hfilled
  · intro x hx
    rw [hreading] at hx
    rw [htaken]
    exact (h.stands x hx).mono hready
  · intro x frame hx hframe
    rw [hreading] at hx
    rw [htaken]
    exact hleft _ _ (h.given x frame hx hframe)
  · intro k frame hk
    rw [htaken] at hk
    exact hleft _ _ (h.taken k frame hk)

theorem Ready.of_perm (h : Ready t) (htaken : t'.taken = t.taken) (hdrawn : t'.drawn = t.drawn)
    (hperm : (pending t'.calls).Perm (pending t.calls)) : Ready t' := by
  rw [Ready, htaken, hdrawn]
  exact ⟨h.1, fun hmem => h.2 (hperm.mem_iff.1 hmem)⟩

/-- Such a step of a call without a ticket. -/
theorem Orderly.of_outside (h : Orderly s t) (hnested : Nested t'.calls)
    (haccounted : Accounted t') (hperm : (pending t'.calls).Perm (pending t.calls))
    (hcalls : ∀ y ∈ t'.calls, y.pc.ticket? = none ∨ y ∈ t.calls)
    (hpool : t'.pool = { t.pool with count := t'.pool.count }) (hreading : t'.reading = t.reading)
    (hdrawn : t'.drawn = t.drawn) (hfound : t'.found = t.found) (hleft : t'.left = t.left)
    (htaken : t'.taken = t.taken) (hanswers : ∀ p w, (p, w, .clash) ∉ t'.answers) :
    Orderly s t' := by
  refine h.of_write hnested haccounted hreading htaken ?_ ?_ ?_ ?_ ?_
    (·.of_perm htaken hdrawn hperm) ?_ hanswers
  · rw [hpool]
  · rw [hpool, hdrawn]
    exact h.head
  · rw [hpool, hdrawn]
    exact h.placed.of_perm hperm
  · rw [hpool, hdrawn, hfound, hleft]
    exact h.filled.of_perm hperm
  · intro y hy
    rw [hfound, hleft]
    exact (hcalls y hy).elim Write.tells_of_none (h.tells y)
  · intro k frame hk
    rw [hleft]
    exact hk

/-- The ticket of the call that goes on, and those of the others. -/
theorem Innermost.pending {pc : Write len ε} (here : t.Innermost inner outer x pc)
    (hpc : pc.ticket?.isSome = true) :
    (pending t.calls).Perm (x.number :: pending (inner ++ outer)) := by
  have hnumber : x.number? = some x.number := Call.number?_eq_some (here.pc ▸ hpc)
  rw [here.here]
  refine (pending_middle inner outer x).trans ?_
  rw [hnumber]
  exact .refl _

theorem Orderly.tells_here {pc : Write len ε} (h : Orderly s t)
    (here : t.Innermost inner outer x pc) : pc.Tells s t.found t.left x.number :=
  here.pc ▸ h.tells x here.mem

theorem Orderly.bounds (h : Orderly s t) (hx : x ∈ t.calls)
    (hticket : x.pc.ticket?.isSome = true) : t.released ≤ x.number ∧ x.number < t.drawn :=
  h.placed.bounds _ (mem_pending.2 ⟨x, hx, Call.number?_eq_some hticket⟩)

/-- Whoever else holds a ticket holds another one. -/
theorem Orderly.number_ne {pc : Write len ε} (h : Orderly s t)
    (here : t.Innermost inner outer x pc) (hpc : pc.ticket?.isSome = true) {y : Call len n ε}
    (hy : y ∈ inner ++ outer) (hticket : y.pc.ticket?.isSome = true) : y.number ≠ x.number := by
  have hnodup := (here.pending hpc).nodup_iff.1 h.placed.once
  intro heq
  exact (List.nodup_cons.1 hnodup).1
    (heq ▸ mem_pending.2 ⟨y, hy, Call.number?_eq_some hticket⟩)

/-- A writer that reaches its frame finds it free. -/
theorem Orderly.clear (h : Orderly s t) (hx : x ∈ t.calls) (hticket : x.pc.ticket?.isSome = true) :
    t.pool.ready.get (c.slot (position s x.number)) = false := by
  have hbounds := h.bounds hx hticket
  have hroom := h.room
  exact h.placed.free _ hbounds.1 (by omega)
    (.inr (mem_pending.2 ⟨x, hx, Call.number?_eq_some hticket⟩))

/-- A step of a call that holds its ticket before it and after it. -/
theorem Orderly.of_holder {pc : Write len ε} (h : Orderly s t)
    (here : t.Innermost inner outer x pc) (hpc : pc.ticket?.isSome = true)
    (haccounted : Accounted t') (hcalls : t'.calls = inner ++ x' :: outer)
    (hthread : x'.thread = x.thread) (hnumber : x'.number = x.number)
    (hpc' : x'.pc.ticket?.isSome = true)
    (hpool : t'.pool = { t.pool with frames := t'.pool.frames })
    (hreading : t'.reading = t.reading) (hdrawn : t'.drawn = t.drawn)
    (htaken : t'.taken = t.taken) (hanswers : t'.answers = t.answers)
    (hfilled : Filled s t'.pool.frames (pending t.calls) t.drawn t.released t'.found t'.left)
    (htells : x'.pc.Tells s t'.found t'.left x'.number)
    (hother : ∀ k, k ≠ x.number → t'.found k = t.found k ∧ t'.left k = t.left k)
    (hleft : t.left x.number = none) : Orderly s t' := by
  have hperm : (pending t'.calls).Perm (pending t.calls) := by
    rw [hcalls, here.here]
    refine pending_goOn inner outer ?_
    rw [Call.number?_eq_some hpc', Call.number?_eq_some (here.pc ▸ hpc), hnumber]
  refine h.of_write ?_ haccounted hreading htaken ?_ ?_ ?_ ?_ ?_
    (·.of_perm htaken hdrawn hperm) ?_ ?_
  · rw [hcalls]
    exact (here.here ▸ h.nested).goOn here.first hthread
  · rw [hpool]
  · rw [hpool, hdrawn]
    exact h.head
  · rw [hpool, hdrawn]
    exact h.placed.of_perm hperm
  · rw [hdrawn]
    exact hfilled.of_perm hperm
  · rw [hcalls]
    intro y hy
    rcases List.mem_cons.1 (List.perm_middle.mem_iff.1 hy) with rfl | hy
    · exact htells
    · exact (h.tells y (here.mem_comeBack hy)).of_agree fun hticket =>
        hother _ (h.number_ne here hpc hy hticket)
  · intro k frame hk
    rw [(hother k (by rintro rfl; cases hleft.symm.trans hk)).2]
    exact hk
  · rw [hanswers]
    exact h.answers

/-- The next ticket is drawn, which nobody holds yet. -/
theorem Orderly.draw {w : Writer len ε} (h : Orderly s t)
    (here : t.Innermost inner outer x (.reserved w)) (haccounted : Accounted t')
    (hcalls : t'.calls =
      inner ++ { x with pc := .ticketed w t.pool.head, number := t.drawn } :: outer)
    (hpool : t'.pool = { t.pool with head := t.pool.head + 1 })
    (hreading : t'.reading = t.reading) (hdrawn : t'.drawn = t.drawn + 1)
    (hfound : t'.found = t.found) (hleft : t'.left = t.left) (htaken : t'.taken = t.taken)
    (hanswers : t'.answers = t.answers) : Orderly s t' := by
  have hnone : x.number? = none := Call.number?_eq_none (by rw [here.pc]; rfl)
  have hperm : (pending t'.calls).Perm (t.drawn :: pending t.calls) := by
    rw [hcalls, here.here]
    refine (pending_middle ..).trans (.cons _ ?_)
    refine .symm ((pending_middle ..).trans ?_)
    rw [hnone]
    exact .refl _
  refine h.of_write ?_ haccounted hreading htaken ?_ ?_ ?_ ?_ ?_ ?_ ?_ ?_
  · rw [hcalls]
    exact (here.here ▸ h.nested).goOn here.first rfl
  · rw [hpool]
  · rw [hpool, hdrawn, position_succ, ← h.head]
  · rw [hpool, hdrawn]
    exact (h.placed.draw h.released_le).of_perm hperm
  · rw [hpool, hdrawn, hfound, hleft]
    exact h.filled.draw.of_perm hperm
  · rw [hcalls, hfound, hleft]
    intro y hy
    rcases here.mem_goOn hy with rfl | hy
    · exact ⟨h.head, h.filled.undrawn _ (Nat.le_refl _)⟩
    · exact h.tells y hy
  · rintro ⟨hlt, hnot⟩
    rw [Ready, htaken, hdrawn]
    refine ⟨Nat.lt_succ_of_lt hlt, fun hmem => ?_⟩
    rcases List.mem_cons.1 (hperm.mem_iff.1 hmem) with heq | hmem
    · exact Nat.ne_of_lt hlt heq
    · exact hnot hmem
  · intro k frame hk
    rw [hleft]
    exact hk
  · rw [hanswers]
    exact h.answers

/-- The frame is published, and with it the call has no ticket any more. -/
theorem Orderly.publish {ticket : UInt64} {ending : Ending ε} (h : Orderly s t)
    (here : t.Innermost inner outer x (.leaving ticket ending)) (haccounted : Accounted t')
    (hcalls : t'.calls = inner ++ outer)
    (hpool : t'.pool =
      { t.pool with ready := replaceAt t.pool.ready (c.slot ticket) true })
    (hreading : t'.reading = t.reading) (hdrawn : t'.drawn = t.drawn)
    (hfound : t'.found = t.found) (hleft : t'.left = t.left) (htaken : t'.taken = t.taken)
    (hanswers : ∀ p w, (p, w, .clash) ∉ t'.answers) : Orderly s t' := by
  obtain ⟨rfl, hfoundx, hleftx⟩ := h.tells_here here
  have hpending := here.pending rfl
  refine h.of_write ?_ haccounted hreading htaken ?_ ?_ ?_ ?_ ?_ ?_ ?_ hanswers
  · rw [hcalls]
    exact (here.here ▸ h.nested).comeBack
  · rw [hpool]
  · rw [hpool, hdrawn]
    exact h.head
  · rw [hpool, hdrawn, hcalls]
    exact (h.placed.of_perm hpending.symm).publish h.room
  · rw [hpool, hdrawn, hfound, hleft, hcalls]
    exact (h.filled.of_perm hpending.symm).publish hfoundx hleftx
  · rw [hcalls, hfound, hleft]
    exact fun y hy => h.tells y (here.mem_comeBack hy)
  · rintro ⟨hlt, hnot⟩
    rw [Ready, htaken, hdrawn, hcalls]
    exact ⟨hlt, fun hmem => hnot (hpending.mem_iff.2 (.tail _ hmem))⟩
  · intro k frame hk
    rw [hleft]
    exact hk

/-- The reader finds a frame ready only if its ticket is published. -/
theorem Orderly.ready (h : Orderly s t) (hreleased : t.released = t.taken.length)
    (hset : t.pool.ready.get (c.slot (position s t.taken.length)) = true) : Ready t := by
  have hpos := c.size_pos
  have hfree := h.placed.free t.taken.length (Nat.le_of_eq hreleased) (by omega)
  by_contra hnot
  refine Bool.false_ne_true ((hfree ?_).symm.trans hset)
  by_cases hlt : t.taken.length < t.drawn
  · exact .inr (by_contra fun hmem => hnot ⟨hlt, hmem⟩)
  · exact .inl (Nat.le_of_not_lt hlt)

/-- What is published lies in its frame until that is given back. -/
theorem Orderly.left_eq (h : Orderly s t) {k : Nat} (hk : t.released ≤ k) (hlt : k < t.drawn)
    (hnot : k ∉ pending t.calls) :
    t.left k = some (t.pool.frames.get (c.slot (position s k))) := by
  obtain ⟨frame, hframe⟩ := Option.ne_none_iff_exists'.1 (h.filled.published k hlt hnot).2
  rw [hframe, h.filled.kept k frame hk hframe]

/-- A step of the reader that looks and does not touch. -/
theorem Orderly.of_look (h : Orderly s t) {x : Option (Reading len ε)}
    (hreleased : x.any (·.pc.hasReleased) = t.reading.any (·.pc.hasReleased))
    (hadvanced : x.any (·.pc.hasAdvanced) = t.reading.any (·.pc.hasAdvanced))
    (hstands : ∀ y, x = some y →
      y.pc.Stands s t.taken.length (Ready t) y.given.isSome)
    (hgiven : ∀ y frame, x = some y → y.given = some frame →
      t.left t.taken.length = some frame) : Orderly s { t with reading := x } := by
  have hr : released { t with reading := x } = t.released := by
    rw [released, released, hreleased]
  refine ⟨h.head, ?_, h.nested, ⟨h.accounted.count, h.accounted.room⟩, ?_, ?_, h.tells, hstands,
    hgiven, h.taken, h.answers⟩
  · rw [passed, hadvanced]
    exact h.tail
  · rw [hr]
    exact h.placed
  · rw [hr]
    exact h.filled

/-- The code begins, and what it finds is what was left in the frame before. -/
theorem Orderly.enter {w : Writer len ε} {ticket : UInt64} (h : Orderly s t)
    (here : t.Innermost inner outer x (.ticketed w ticket))
    (haccounted : Accounted t')
    (hcalls : t'.calls = inner ++ { x with pc := .inside w ticket } :: outer)
    (hpool : t'.pool = t.pool) (hreading : t'.reading = t.reading) (hdrawn : t'.drawn = t.drawn)
    (htaken : t'.taken = t.taken) (hanswers : t'.answers = t.answers)
    (hfound : t'.found =
      Function.update t.found x.number (some (t.pool.frames.get (c.slot ticket))))
    (hleft : t'.left = t.left) : Orderly s t' := by
  obtain ⟨rfl, hfoundx, hleftx⟩ := h.tells_here here
  obtain ⟨hk, hk'⟩ := h.bounds here.mem (by rw [here.pc]; rfl)
  refine h.of_holder here rfl haccounted hcalls rfl rfl rfl ?_ hreading hdrawn htaken
    hanswers ?_ ?_ ?_ hleftx
  · rw [hpool]
  · rw [hpool, hfound, hleft]
    exact h.filled.enter h.room hk hk' hfoundx
  · rw [hfound, hleft]
    exact ⟨rfl, by rw [Function.update_self]; exact Option.some_ne_none _, hleftx⟩
  · intro k hne
    rw [hfound, hleft, Function.update_of_ne hne]
    exact ⟨rfl, rfl⟩

/-- The code is left, and with it what is in the frame. -/
theorem Orderly.finish {w : Writer len ε} {ticket : UInt64} {frame : Frame len}
    {ending : Ending ε} (h : Orderly s t) (here : t.Innermost inner outer x (.inside w ticket))
    (haccounted : Accounted t')
    (hcalls : t'.calls = inner ++ { x with pc := .leaving ticket ending } :: outer)
    (hpool : t'.pool =
      { t.pool with frames := replaceAt t.pool.frames (c.slot ticket) frame })
    (hreading : t'.reading = t.reading) (hdrawn : t'.drawn = t.drawn)
    (htaken : t'.taken = t.taken) (hanswers : t'.answers = t.answers) (hfound : t'.found = t.found)
    (hleft : t'.left = Function.update t.left x.number (some frame)) : Orderly s t' := by
  obtain ⟨rfl, hfoundx, hleftx⟩ := h.tells_here here
  obtain ⟨hk, hk'⟩ := h.bounds here.mem (by rw [here.pc]; rfl)
  have hfilled := (h.filled.touch h.room hk hk' hfoundx hleftx frame).leave h.room hk hk'
  rw [get_replaceAt_self] at hfilled
  refine h.of_holder here rfl haccounted hcalls rfl rfl rfl ?_ hreading hdrawn htaken
    hanswers ?_ ?_ ?_ hleftx
  · rw [hpool]
  · rw [hpool, hfound, hleft]
    exact hfilled
  · rw [hfound, hleft]
    exact ⟨rfl, hfoundx, by rw [Function.update_self]; exact Option.some_ne_none _⟩
  · intro k hne
    rw [hfound, hleft, Function.update_of_ne hne]
    exact ⟨rfl, rfl⟩

theorem Orderly.answers_append (h : Orderly s t) (p : Fin (n + 1)) (writer : Writer len ε)
    {answer : Written len ε} (hanswer : answer ≠ .clash) :
    ∀ q w, (q, w, .clash) ∉ t.answers ++ [(p, writer, answer)] := by
  intro q w hmem
  rcases List.mem_append.1 hmem with hmem | hmem
  · exact h.answers q w hmem
  · cases List.mem_singleton.1 hmem
    exact hanswer rfl

theorem orderly_turn (hn : n + c.size < UInt64.size) (h : Orderly s t) (hcarries : Carries t)
    (turn : Turn t t') : Orderly s t' := by
  have hnested := nested_turn h.nested turn
  have haccounted := accounted_turn hn h.accounted h.nested h.released_le
    (fun _ hx => h.isSome_given hx) turn
  cases turn with
  | offer p writer free =>
    refine h.of_outside hnested haccounted (.refl _) ?_ rfl rfl rfl rfl rfl rfl h.answers
    intro y hy
    rcases List.mem_cons.1 hy with rfl | hy
    · exact .inl rfl
    · exact .inr hy
  | refuse inner outer x w here | reserve inner outer x w here =>
    refine h.of_outside hnested haccounted ?_ ?_ rfl rfl rfl rfl rfl rfl h.answers
    · rw [here.here]
      exact pending_goOn inner outer (by rw [Call.number?, Call.number?, here.pc]; rfl)
    · exact fun y hy => (here.mem_goOn hy).imp_left fun e => by rw [e]; rfl
  | reject inner outer x w here =>
    refine h.of_outside hnested haccounted ?_ ?_ rfl rfl rfl rfl rfl rfl
      (h.answers_append _ _ (by rintro ⟨⟩))
    · rw [here.here]
      refine .symm ((pending_middle inner outer x).trans ?_)
      rw [Call.number?, here.pc]
      exact .refl _
    · exact fun y hy => .inr (here.mem_comeBack hy)
  | draw inner outer x w here =>
    exact h.draw here haccounted rfl rfl rfl rfl rfl rfl rfl rfl
  | enter inner outer x w ticket here clear =>
    exact h.enter here haccounted rfl rfl rfl rfl rfl rfl rfl rfl
  | clash inner outer x w ticket here set =>
    obtain ⟨rfl, -, -⟩ := h.tells_here here
    rw [h.clear here.mem (by rw [here.pc]; rfl)] at set
    cases set
  | touch inner outer x w ticket frame here =>
    obtain ⟨rfl, hfound, hleft⟩ := h.tells_here here
    obtain ⟨hk, hk'⟩ := h.bounds here.mem (by rw [here.pc]; rfl)
    exact { h with
      accounted := haccounted
      filled := h.filled.touch h.room hk hk' hfound hleft frame }
  | finish inner outer x w ticket frame ending here code =>
    obtain rfl : w = x.writer := hcarries.calls x here.mem w (by rw [here.pc]; rfl)
    exact h.finish here haccounted rfl rfl rfl rfl rfl rfl rfl (by rw [code])
  | publish inner outer x ticket ending here =>
    exact h.publish here haccounted rfl rfl rfl rfl rfl rfl rfl
      (h.answers_append _ _ (by rintro ⟨⟩))
  | ask reader idle =>
    refine h.of_look (by rw [idle]; rfl) (by rw [idle]; rfl) ?_ ?_
    · rintro y ⟨⟩
      trivial
    · rintro y frame ⟨⟩ ⟨⟩
  | locate x r here pc =>
    obtain ⟨_, _, given⟩ := x
    cases pc
    refine h.of_look (by rw [here]; rfl) (by rw [here]; rfl) ?_ ?_
    · rintro y ⟨⟩
      have htail := h.tail
      rw [passed, here] at htail
      exact htail
    · rintro y frame ⟨⟩ hframe
      exact h.given _ frame here hframe
  | admitted x r ticket here pc set =>
    obtain ⟨_, _, given⟩ := x
    cases pc
    obtain rfl : ticket = position s t.taken.length := h.stands _ here
    refine h.of_look (by rw [here]; rfl) (by rw [here]; rfl) ?_ ?_
    · rintro y ⟨⟩
      exact ⟨rfl, h.ready (by rw [released, here]; rfl) set⟩
    · rintro y frame ⟨⟩ hframe
      exact h.given _ frame here hframe
  | dismiss x r ticket here pc clear =>
    obtain ⟨_, _, given⟩ := x
    cases pc
    exact h.of_look (by rw [here]; rfl) (by rw [here]; rfl) (by rintro y ⟨⟩) (by rintro y f ⟨⟩)
  | perceive x r ticket here pc =>
    obtain ⟨_, _, given⟩ := x
    cases pc
    obtain ⟨rfl, hready⟩ : ticket = position s t.taken.length ∧ Ready t := h.stands _ here
    have hreleased : t.released = t.taken.length := by rw [released, here]; rfl
    refine h.of_look (by rw [here]; rfl) (by rw [here]; rfl) ?_ ?_
    · rintro y ⟨⟩
      exact ⟨rfl, hready, rfl⟩
    · rintro y frame ⟨⟩ ⟨⟩
      exact h.left_eq (Nat.le_of_eq hreleased) hready.1 hready.2
  | release x ticket ending here pc =>
    obtain ⟨_, _, given⟩ := x
    cases pc
    obtain ⟨rfl, hready, hgiven⟩ : ticket = position s t.taken.length ∧ Ready t ∧
      given.isSome = true := h.stands _ here
    have hr : t.released = t.taken.length := by rw [released, here]; rfl
    have hp : t.passed = t.taken.length := by rw [passed, here]; rfl
    rw [Ready, ← hr] at hready
    have hplaced := h.placed.release h.room hready.2
    rw [hr] at hplaced
    have hfilled := h.filled.release hready.1 hready.2
    rw [hr] at hfilled
    refine ⟨h.head, h.tail.trans (congrArg _ hp), hnested, haccounted, hplaced, hfilled, h.tells,
      ?_, ?_, h.taken, h.answers⟩
    · rintro y ⟨⟩
      exact ⟨rfl, hgiven⟩
    · rintro y frame ⟨⟩ hframe
      exact h.given _ frame here hframe
  | advance x ticket ending here pc =>
    obtain ⟨_, _, given⟩ := x
    cases pc
    obtain ⟨rfl, hgiven⟩ : ticket = position s t.taken.length ∧ given.isSome = true :=
      h.stands _ here
    have hr : t.released = t.taken.length + 1 := by rw [released, here]; rfl
    have hplaced := h.placed
    have hfilled := h.filled
    rw [hr] at hplaced hfilled
    refine ⟨h.head, (position_succ ..).symm, hnested, haccounted, hplaced, hfilled, h.tells,
      ?_, ?_, h.taken, h.answers⟩
    · rintro y ⟨⟩
      exact hgiven
    · rintro y frame ⟨⟩ hframe
      exact h.given _ frame here hframe
  | leave x ending here pc =>
    obtain ⟨_, _, given⟩ := x
    cases pc
    obtain ⟨frame, rfl⟩ := Option.isSome_iff_exists.1 (h.isSome_given here rfl)
    have hr : t.released = (t.taken ++ [frame]).length := by
      rw [released, here, List.length_append]
      rfl
    have hp : t.passed = (t.taken ++ [frame]).length := by
      rw [passed, here, List.length_append]
      rfl
    have hplaced := h.placed
    have hfilled := h.filled
    rw [hr] at hplaced hfilled
    refine ⟨h.head, h.tail.trans (congrArg _ hp), hnested, haccounted, hplaced, hfilled, h.tells,
      by rintro y ⟨⟩, by rintro y f ⟨⟩, ?_, h.answers⟩
    intro k f hk
    rcases Nat.lt_or_ge k t.taken.length with hlt | hge
    · exact h.taken k f ((List.getElem?_append_left hlt).symm.trans hk)
    · obtain rfl : k = t.taken.length := by
        have := (List.getElem?_eq_some_iff.1 hk).1
        rw [Option.toList_some, List.length_append, List.length_singleton] at this
        omega
      obtain rfl := Option.some.inj (List.getElem?_concat_length.symm.trans hk)
      exact h.given _ frame here rfl

end Traffic

end Cadence.FramePool
