import Cadence.Proofs.Pool.Delivery
import Mathlib.Data.List.Forall2

/-!
What the callers' code is given and what comes out of it. The code of a ticket goes on with its frame as
it has left that by itself; what its last piece makes of that is what it leaves, and its ending is what
the write comes back with. A read comes back with what its code makes of the frame that it is given.
-/

namespace Cadence.FramePool

variable {len : Nat} {c : Capacity} {n : Nat} {ε : Type}

theorem Write.handed?_inside (pool : FramePool len c) (w : Writer len ε) (ticket : UInt64) :
    (inside w ticket).handed? pool = some (pool.frames.get (c.slot ticket)) := rfl

namespace Read

/-- The caller's code, as long as it has not been run. -/
def reader? : Read len ε → Option (Reader len ε)
  | start reader | positioned reader _ | inside reader _ => some reader
  | _ => none

def ending? : Read len ε → Option (Ending ε)
  | leaving _ ending | cleared _ ending | advanced ending => some ending
  | _ => none

end Read

/-- A read goes on with the code that was passed to it, and then with its ending. -/
structure Reading.Faithful (x : Reading len ε) : Prop where
  reader : ∀ f, x.pc.reader? = some f → f = x.reader
  ending : ∀ e, x.pc.ending? = some e → ∃ frame, x.given = some frame ∧ e = x.reader frame

namespace Traffic

variable {t t' : Traffic len c n ε} {s : UInt64} {inner outer : List (Call len n ε)}
  {x : Call len n ε} {k : Nat} {w : Writer len ε} {ending : Ending ε}

/-- How the last piece of the code for the `k`-th ticket went. -/
def Worked (t : Traffic len c n ε) (k : Nat) (w : Writer len ε) (ending : Ending ε) : Prop :=
  ∃ before, t.codes k = some w ∧ t.made k = some before ∧
    t.left k = some (w before).1 ∧ ending = (w before).2

structure Coded (t : Traffic len c n ε) : Prop where
  codes : ∀ x ∈ t.calls, x.pc.ticket?.isSome = true → t.codes x.number = some x.writer
  inside : ∀ x ∈ t.calls, ∀ w ticket, x.pc = .inside w ticket →
    t.made x.number = some (t.pool.frames.get (c.slot ticket))
  leaving : ∀ x ∈ t.calls, ∀ ticket ending, x.pc = .leaving ticket ending →
    t.Worked x.number x.writer ending
  left : ∀ k frame, t.left k = some frame → ∃ w ending, t.Worked k w ending
  done : ∀ p w ending, (p, w, .done ending) ∈ t.answers → ∃ k, t.Worked k w ending
  reading : ∀ x, t.reading = some x → x.Faithful
  looks : List.Forall₂ (fun look frame => look.2 = look.1 frame) t.looks t.taken

theorem coded_start (pool : FramePool len c) : Coded (start n pool : Traffic len c n ε) where
  codes := nofun
  inside := nofun
  leaving := nofun
  left := nofun
  done := nofun
  reading := nofun
  looks := .nil

theorem Worked.of_agree (h : t.Worked k w ending) (hcodes : t'.codes k = t.codes k)
    (hmade : t'.made k = t.made k) (hleft : t'.left k = t.left k) : t'.Worked k w ending := by
  unfold Worked
  rw [hcodes, hmade, hleft]
  exact h

theorem Worked.left_ne_none (h : t.Worked k w ending) : t.left k ≠ none := by
  obtain ⟨before, -, -, hleft, -⟩ := h
  rw [hleft]
  exact Option.some_ne_none _

/-- A step of a writer. What is on record of the tickets whose code has been left stays as it is. -/
theorem Coded.of_write (h : Coded t)
    (hwork : ∀ k, t.left k ≠ none →
      t'.codes k = t.codes k ∧ t'.made k = t.made k ∧ t'.left k = t.left k)
    (hcodes : ∀ x ∈ t'.calls, x.pc.ticket?.isSome = true → t'.codes x.number = some x.writer)
    (hinside : ∀ x ∈ t'.calls, ∀ w ticket, x.pc = .inside w ticket →
      t'.made x.number = some (t'.pool.frames.get (c.slot ticket)))
    (hleaving : ∀ x ∈ t'.calls, ∀ ticket ending, x.pc = .leaving ticket ending →
      x ∈ t.calls ∨ t'.Worked x.number x.writer ending)
    (hleft : ∀ k, t'.left k ≠ none → t.left k ≠ none ∨ ∃ w ending, t'.Worked k w ending)
    (hdone : ∀ p w ending, (p, w, .done ending) ∈ t'.answers →
      (p, w, .done ending) ∈ t.answers ∨ ∃ k, t.Worked k w ending)
    (hreading : t'.reading = t.reading) (hlooks : t'.looks = t.looks)
    (htaken : t'.taken = t.taken) : Coded t' := by
  have hworked : ∀ {k w ending}, t.Worked k w ending → t'.Worked k w ending := fun hk => by
    obtain ⟨hcodes, hmade, hleft⟩ := hwork _ hk.left_ne_none
    exact hk.of_agree hcodes hmade hleft
  refine ⟨hcodes, hinside, fun x hx ticket ending hpc => ?_, fun k frame hk => ?_,
    fun p w ending hmem => ?_, hreading ▸ h.reading, ?_⟩
  · rcases hleaving x hx ticket ending hpc with hold | hnew
    · exact hworked (h.leaving x hold ticket ending hpc)
    · exact hnew
  · rcases hleft k (by rw [hk]; exact Option.some_ne_none _) with hold | hnew
    · obtain ⟨frame', hframe'⟩ := Option.ne_none_iff_exists'.1 hold
      obtain ⟨w, ending, hk⟩ := h.left k frame' hframe'
      exact ⟨w, ending, hworked hk⟩
    · exact hnew
  · rcases hdone p w ending hmem with hold | ⟨k, hk⟩
    · obtain ⟨k, hk⟩ := h.done p w ending hold
      exact ⟨k, hworked hk⟩
    · exact ⟨k, hworked hk⟩
  · rw [hlooks, htaken]
    exact h.looks

/-- Such a step that no code takes part in. -/
theorem Coded.of_beside (h : Coded t)
    (hcalls : ∀ y ∈ t'.calls, y.pc.ticket? = none ∨ y ∈ t.calls)
    (hframes : t'.pool.frames = t.pool.frames) (hcodes : t'.codes = t.codes)
    (hmade : t'.made = t.made) (hleft : t'.left = t.left)
    (hdone : ∀ p w ending, (p, w, .done ending) ∈ t'.answers →
      (p, w, .done ending) ∈ t.answers ∨ ∃ k, t.Worked k w ending)
    (hreading : t'.reading = t.reading) (hlooks : t'.looks = t.looks)
    (htaken : t'.taken = t.taken) : Coded t' := by
  refine h.of_write (fun k _ => ?_) (fun y hy hticket => ?_) (fun y hy w ticket hpc => ?_)
    (fun y hy ticket ending hpc => ?_) (fun k hk => ?_) hdone hreading hlooks htaken
  · rw [hcodes, hmade, hleft]
    exact ⟨rfl, rfl, rfl⟩
  · rcases hcalls y hy with hnone | hold
    · rw [hnone] at hticket
      cases hticket
    · rw [hcodes]
      exact h.codes y hold hticket
  · rcases hcalls y hy with hnone | hold
    · rw [hpc] at hnone
      cases hnone
    · rw [hmade, hframes]
      exact h.inside y hold w ticket hpc
  · rcases hcalls y hy with hnone | hold
    · rw [hpc] at hnone
      cases hnone
    · exact .inl hold
  · rw [hleft] at hk
    exact .inl hk

theorem done_append {p : Fin (n + 1)} {answer : Written len ε} {q : Fin (n + 1)}
    (h : (q, w, .done ending) ∈ t.answers ++ [(p, x.writer, answer)]) :
    (q, w, .done ending) ∈ t.answers ∨ x.writer = w ∧ answer = .done ending := by
  refine (List.mem_append.1 h).imp_right fun hlast => ?_
  cases List.mem_singleton.1 hlast
  exact ⟨rfl, rfl⟩

section

variable {pc : Write len ε} {x' y : Call len n ε}

theorem eq_or_mem (h : y ∈ inner ++ x' :: outer) : y = x' ∨ y ∈ inner ++ outer :=
  List.mem_cons.1 (List.perm_middle.mem_iff.1 h)

/-- Another call has another frame. -/
theorem Orderly.slot_ne (h : Orderly s t) (here : t.Innermost inner outer x pc)
    {ticket ticket' : UInt64} (hpc : pc.ticket? = some ticket)
    (hy : y ∈ inner ++ outer) (hticket : y.pc.ticket? = some ticket') :
    c.slot ticket' ≠ c.slot ticket := by
  have hne := h.number_ne here (Option.isSome_of_eq_some hpc) hy (Option.isSome_of_eq_some hticket)
  have hbounds := h.bounds here.mem (by rw [here.pc, hpc]; rfl)
  have hbounds' := h.bounds (here.mem_comeBack hy) (Option.isSome_of_eq_some hticket)
  have hroom := h.room
  rw [(h.tells_here here).ticket_eq hpc, (h.tells y (here.mem_comeBack hy)).ticket_eq hticket]
  exact Capacity.slot_position_ne hbounds'.1 (by omega) hbounds.1 (by omega) hne

/-- A step of the call that holds the ticket, whose code has not been left yet. -/
theorem Coded.of_holder (h : Coded t) (here : t.Innermost inner outer x pc)
    (hcalls : t'.calls = inner ++ x' :: outer) (hleft : t.left x'.number = none)
    (hsame : ∀ k ≠ x'.number,
      t'.codes k = t.codes k ∧ t'.made k = t.made k ∧ t'.left k = t.left k)
    (hother : ∀ y ∈ inner ++ outer, ∀ ticket, y.pc.ticket? = some ticket →
      y.number ≠ x'.number ∧
        t'.pool.frames.get (c.slot ticket) = t.pool.frames.get (c.slot ticket))
    (hcode : t'.codes x'.number = some x'.writer)
    (hinside : ∀ w ticket, x'.pc = .inside w ticket →
      t'.made x'.number = some (t'.pool.frames.get (c.slot ticket)))
    (hleaving : ∀ ticket ending, x'.pc = .leaving ticket ending →
      t'.Worked x'.number x'.writer ending)
    (hown : t'.left x'.number ≠ none → ∃ w ending, t'.Worked x'.number w ending)
    (hanswers : t'.answers = t.answers) (hreading : t'.reading = t.reading)
    (hlooks : t'.looks = t.looks) (htaken : t'.taken = t.taken) : Coded t' := by
  refine h.of_write (fun k hk => hsame k (by rintro rfl; exact hk hleft)) (fun y hy hticket => ?_)
    (fun y hy w ticket hpc => ?_) (fun y hy ticket ending hpc => ?_) (fun k hk => ?_)
    (fun _ _ _ hmem => .inl (hanswers ▸ hmem)) hreading hlooks htaken
  · rcases eq_or_mem (hcalls ▸ hy) with rfl | hy
    · exact hcode
    · obtain ⟨ticket, hsome⟩ := Option.isSome_iff_exists.1 hticket
      rw [(hsame _ (hother y hy ticket hsome).1).1]
      exact h.codes y (here.mem_comeBack hy) hticket
  · rcases eq_or_mem (hcalls ▸ hy) with rfl | hy
    · exact hinside w ticket hpc
    · obtain ⟨hne, hframe⟩ := hother y hy ticket (by rw [hpc]; rfl)
      rw [(hsame _ hne).2.1, hframe]
      exact h.inside y (here.mem_comeBack hy) w ticket hpc
  · rcases eq_or_mem (hcalls ▸ hy) with rfl | hy
    · exact .inr (hleaving ticket ending hpc)
    · exact .inl (here.mem_comeBack hy)
  · by_cases hkx : k = x'.number
    · exact .inr (hkx ▸ hown (hkx ▸ hk))
    · rw [(hsame k hkx).2.2] at hk
      exact .inl hk

end

/-- The next ticket is drawn, with the code that was passed for it. -/
theorem Coded.draw (h : Coded t) (ho : Orderly s t)
    (here : t.Innermost inner outer x (.reserved w)) :
    Coded { t with
      pool := { t.pool with head := t.pool.head + 1 }
      calls := inner ++ { x with pc := .ticketed w t.pool.head, number := t.drawn } :: outer
      drawn := t.drawn + 1
      codes := Function.update t.codes t.drawn (some x.writer) } := by
  have hnone := (ho.filled.undrawn t.drawn (Nat.le_refl _)).2
  refine h.of_holder here rfl hnone (fun k hne => ?_) (fun y hy ticket hticket => ?_)
    (Function.update_self ..) nofun nofun (fun hleft => absurd hnone hleft) rfl rfl rfl rfl
  · exact ⟨Function.update_of_ne hne .., rfl, rfl⟩
  · have hlt := (ho.bounds (here.mem_comeBack hy) (Option.isSome_of_eq_some hticket)).2
    exact ⟨Nat.ne_of_lt hlt, rfl⟩

/-- The code begins with its frame as it is. -/
theorem Coded.enter {ticket : UInt64} (h : Coded t) (ho : Orderly s t)
    (here : t.Innermost inner outer x (.ticketed w ticket)) :
    Coded { t with
      calls := inner ++ { x with pc := .inside w ticket } :: outer
      found := Function.update t.found x.number (some (t.pool.frames.get (c.slot ticket)))
      made := Function.update t.made x.number (some (t.pool.frames.get (c.slot ticket))) } := by
  obtain ⟨-, -, hnone⟩ := ho.tells_here here
  refine h.of_holder here rfl hnone (fun k hne => ?_) (fun y hy ticket' hticket => ?_)
    (h.codes x here.mem (by rw [here.pc]; rfl)) ?_ nofun (fun hleft => absurd hnone hleft)
    rfl rfl rfl rfl
  · exact ⟨rfl, Function.update_of_ne hne .., rfl⟩
  · exact ⟨ho.number_ne here rfl hy (Option.isSome_of_eq_some hticket), rfl⟩
  · rintro _ _ ⟨⟩
    exact Function.update_self ..

/-- The code lays something over its frame. -/
theorem Coded.touch {ticket : UInt64} (h : Coded t) (ho : Orderly s t)
    (here : t.Innermost inner outer x (.inside w ticket)) (frame : Frame len) :
    Coded { t with
      pool := { t.pool with frames := replaceAt t.pool.frames (c.slot ticket) frame }
      made := Function.update t.made x.number (some frame) } := by
  obtain ⟨-, -, hnone⟩ := ho.tells_here here
  refine h.of_holder here here.here hnone (fun k hne => ?_) (fun y hy ticket' hticket => ?_)
    (h.codes x here.mem (by rw [here.pc]; rfl)) (fun v ticket' hpc => ?_) (fun _ _ hpc => ?_)
    (fun hleft => absurd hnone hleft) rfl rfl rfl rfl
  · exact ⟨rfl, Function.update_of_ne hne .., rfl⟩
  · exact ⟨ho.number_ne here rfl hy (Option.isSome_of_eq_some hticket),
      get_replaceAt_of_ne _ _ (ho.slot_ne here rfl hy hticket)⟩
  · cases here.pc.symm.trans hpc
    exact (Function.update_self ..).trans (congrArg some (get_replaceAt_self ..).symm)
  · cases here.pc.symm.trans hpc

/-- The code is left, and what its last piece has made is in the frame. -/
theorem Coded.finish {ticket : UInt64} {frame : Frame len} (h : Coded t) (ho : Orderly s t)
    (here : t.Innermost inner outer x (.inside x.writer ticket))
    (code : x.writer (t.pool.frames.get (c.slot ticket)) = (frame, ending)) :
    Coded { t with
      pool := { t.pool with frames := replaceAt t.pool.frames (c.slot ticket) frame }
      calls := inner ++ { x with pc := .leaving ticket ending } :: outer
      left := Function.update t.left x.number
        (some (x.writer (t.pool.frames.get (c.slot ticket))).1) } := by
  obtain ⟨-, -, hnone⟩ := ho.tells_here here
  have hcode := h.codes x here.mem (by rw [here.pc]; rfl)
  have hmade := h.inside x here.mem x.writer ticket here.pc
  refine h.of_holder here rfl hnone (fun k hne => ?_) (fun y hy ticket' hticket => ?_)
    hcode nofun ?_ (fun _ => ⟨x.writer, ending, ?_⟩) rfl rfl rfl rfl
  · exact ⟨rfl, rfl, Function.update_of_ne hne ..⟩
  · exact ⟨ho.number_ne here rfl hy (Option.isSome_of_eq_some hticket),
      get_replaceAt_of_ne _ _ (ho.slot_ne here rfl hy hticket)⟩
  · rintro _ _ ⟨⟩
    exact ⟨_, hcode, hmade, Function.update_self .., by rw [code]⟩
  · exact ⟨_, hcode, hmade, Function.update_self .., by rw [code]⟩

/-- A step of the reader. -/
theorem Coded.of_read (h : Coded t) (hcalls : t'.calls = t.calls)
    (hframes : t'.pool.frames = t.pool.frames) (hcodes : t'.codes = t.codes)
    (hmade : t'.made = t.made) (hleft : t'.left = t.left) (hanswers : t'.answers = t.answers)
    (hreading : ∀ x, t'.reading = some x → x.Faithful)
    (hlooks : List.Forall₂ (fun look frame => look.2 = look.1 frame) t'.looks t'.taken) :
    Coded t' := by
  have hworked : ∀ {k w ending}, t.Worked k w ending → t'.Worked k w ending := fun hk =>
    hk.of_agree (by rw [hcodes]) (by rw [hmade]) (by rw [hleft])
  refine ⟨?_, ?_, ?_, ?_, ?_, hreading, hlooks⟩
  · rw [hcalls, hcodes]
    exact h.codes
  · rw [hcalls, hmade, hframes]
    exact h.inside
  · rw [hcalls]
    exact fun x hx ticket ending hpc => hworked (h.leaving x hx ticket ending hpc)
  · rw [hleft]
    intro k frame hk
    obtain ⟨w, ending, hk⟩ := h.left k frame hk
    exact ⟨w, ending, hworked hk⟩
  · rw [hanswers]
    intro p w ending hmem
    obtain ⟨k, hk⟩ := h.done p w ending hmem
    exact ⟨k, hworked hk⟩

theorem coded_turn (h : Coded t) (ho : Orderly s t) (hcarries : Carries t) (turn : Turn t t') :
    Coded t' := by
  cases turn with
  | offer p writer free =>
    refine h.of_beside (fun y hy => ?_) rfl rfl rfl rfl (fun _ _ _ => .inl) rfl rfl rfl
    exact (List.mem_cons.1 hy).imp_left fun e => by rw [e]; rfl
  | refuse inner outer x w here | reserve inner outer x w here =>
    refine h.of_beside (fun y hy => ?_) rfl rfl rfl rfl (fun _ _ _ => .inl) rfl rfl rfl
    exact (here.mem_goOn hy).imp_left fun e => by rw [e]; rfl
  | reject inner outer x w here =>
    refine h.of_beside (fun y hy => .inr (here.mem_comeBack hy)) rfl rfl rfl rfl
      (fun _ _ _ hmem => (done_append hmem).imp_right ?_) rfl rfl rfl
    rintro ⟨-, ⟨⟩⟩
  | clash inner outer x w ticket here =>
    refine h.of_beside (fun y hy => .inr (here.mem_comeBack hy)) rfl rfl rfl rfl
      (fun _ _ _ hmem => (done_append hmem).imp_right ?_) rfl rfl rfl
    rintro ⟨-, ⟨⟩⟩
  | publish inner outer x ticket ending here =>
    refine h.of_beside (fun y hy => .inr (here.mem_comeBack hy)) rfl rfl rfl rfl
      (fun _ _ _ hmem => (done_append hmem).imp_right ?_) rfl rfl rfl
    rintro ⟨rfl, ⟨⟩⟩
    exact ⟨x.number, h.leaving x here.mem ticket ending here.pc⟩
  | draw inner outer x w here => exact h.draw ho here
  | enter inner outer x w ticket here => exact h.enter ho here
  | touch inner outer x w ticket frame here => exact h.touch ho here frame
  | finish inner outer x w ticket frame ending here code =>
    obtain rfl : w = x.writer := hcarries.calls x here.mem w (by rw [here.pc]; rfl)
    exact h.finish ho here code
  | ask reader idle =>
    refine h.of_read rfl rfl rfl rfl rfl rfl ?_ h.looks
    rintro y ⟨⟩
    exact ⟨by rintro f ⟨⟩; rfl, nofun⟩
  | locate x r here pc | admitted x r ticket here pc =>
    obtain ⟨reader, _, given⟩ := x
    cases pc
    refine h.of_read rfl rfl rfl rfl rfl rfl ?_ h.looks
    rintro y ⟨⟩
    exact ⟨(h.reading _ here).reader, nofun⟩
  | dismiss x r ticket here =>
    exact h.of_read rfl rfl rfl rfl rfl rfl nofun h.looks
  | perceive x r ticket here pc =>
    obtain ⟨reader, _, given⟩ := x
    cases pc
    obtain rfl : r = reader := (h.reading _ here).reader r rfl
    refine h.of_read rfl rfl rfl rfl rfl rfl ?_ h.looks
    rintro y ⟨⟩
    exact ⟨nofun, by rintro e ⟨⟩; exact ⟨_, rfl, rfl⟩⟩
  | release x ticket ending here pc | advance x ticket ending here pc =>
    obtain ⟨reader, _, given⟩ := x
    cases pc
    refine h.of_read rfl rfl rfl rfl rfl rfl ?_ h.looks
    rintro y ⟨⟩
    exact ⟨nofun, (h.reading _ here).ending⟩
  | leave x ending here pc =>
    refine h.of_read rfl rfl rfl rfl rfl rfl nofun (List.rel_append h.looks ?_)
    obtain ⟨frame, hgiven, hending⟩ := (h.reading x here).ending ending (by rw [pc]; rfl)
    rw [hgiven]
    exact .cons hending .nil

end Traffic

end Cadence.FramePool
