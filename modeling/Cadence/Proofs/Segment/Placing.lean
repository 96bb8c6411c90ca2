import Cadence.Proofs.Queue.Alike
import Cadence.Proofs.Record.Flat
import Cadence.Proofs.Segment.Sharing

/-!
Records in shared memory against records of one's own. A record lies at a site: some bytes of some
object. Whoever has a handle on the object may ask it something, placing it anew each time; others go
about their business beside it. It answers like a fresh value that nobody else can reach.
-/

namespace Cadence

open Record (Format)

namespace SegmentSession

variable {s : SegmentSession} {number offset : Nat} {h : SegmentHandle} {ρ α : Type}
  {format : Format ρ} {fresh : ρ} {use : ρ → ρ × α}

theorem withRecord_of_ok (use : ρ → ρ × α) (s : SegmentSession)
    (placed : h.checkPlace format.shape offset = .ok ()) :
    s.withRecord h format offset use =
      ({ s with
          space := s.space.store h.object
            (format.write (use (format.read (s.space.memory h.object) offset)).1
              (s.space.memory h.object) offset) },
        .ok (use (format.read (s.space.memory h.object) offset)).2) := by
  rw [withRecord, SegmentHandle.withRecord_of_ok placed]

theorem withRecord_of_error {e : Fault} (refused : h.checkPlace format.shape offset = .error e) :
    s.withRecord h format offset use = (s, .error e) := by
  rw [withRecord, SegmentHandle.withRecord_of_error refused]

theorem handle?_withRecord {k : Nat} :
    (s.withRecord h format offset use).1.handle? k = s.handle? k := by
  rw [withRecord]
  split <;> rfl

/-- What the use of a record makes of the space, and which bytes it gets to. -/
theorem withRecord_keeps (ho : s.Orderly) (here : s.handle? number = some h)
    (flat : format.Flat fresh) (offset : Nat) (use : ρ → ρ × α) :
    (s.withRecord h format offset use).1.Orderly ∧
      s.space.Later (s.withRecord h format offset use).1.space ∧
      ∀ id a, (s.withRecord h format offset use).1.space.memory id a ≠ s.space.memory id a →
        id = h.object ∧ offset ≤ a ∧ a < offset + format.shape.size := by
  cases placed : h.checkPlace format.shape offset with
  | error e =>
    rw [withRecord_of_error placed]
    exact ⟨ho, .refl _, fun _ _ changed => (changed rfl).elim⟩
  | ok _ =>
    have hobject := (ho.backed number h here).object
    rw [withRecord_of_ok use s placed]
    refine ⟨ho.of_space (ho.sound.store hobject) (SharedSpace.later_store hobject),
      SharedSpace.later_store hobject, fun id a changed => ?_⟩
    rw [SharedSpace.memory_store hobject] at changed
    split at changed
    · rename_i hid
      refine ⟨hid, ?_⟩
      by_cases hin : offset ≤ a ∧ a < offset + format.shape.size
      · exact hin
      · rw [flat.write_outside _ _ _ _ (by omega), hid] at changed
        exact (changed rfl).elim
    · exact (changed rfl).elim

/-- The states that moves and the use of records lead to. -/
inductive Reached : SegmentSession → Prop where
  | start : Reached {}
  | move {s s' : SegmentSession} {move : Move} (reached : Reached s)
      (fired : s.fire move = some s') : Reached s'
  | use {s : SegmentSession} {number : Nat} {h : SegmentHandle} {ρ α : Type} {format : Format ρ}
      {fresh : ρ} (reached : Reached s) (here : s.handle? number = some h)
      (placeable : format.Placeable fresh) (offset : Nat) (use : ρ → ρ × α) :
      Reached (s.withRecord h format offset use).1

theorem Reached.orderly (h : Reached s) : s.Orderly := by
  induction h with
  | start => exact orderly_empty
  | move _ fired ih => exact orderly_turn ih (turn_of_fire fired)
  | use _ here placeable offset use ih =>
    exact (withRecord_keeps ih here placeable.flat offset use).1

theorem Reached.run {s' : SegmentSession} {moves : List Move} (h : Reached s)
    (hrun : s.run moves = some s') : Reached s' :=
  run_keeps (fun _ _ _ h fired => h.move fired) h hrun

end SegmentSession

structure Site (ρ : Type) where
  object : ObjectId
  offset : Nat
  format : Format ρ

namespace Site

variable {ρ κ α : Type}

def Covers (site : Site ρ) (id : ObjectId) (a : Nat) : Prop :=
  id = site.object ∧ site.offset ≤ a ∧ a < site.offset + site.format.shape.size

/-- What may happen while a record is in use; a request comes back with its reply. -/
inductive Step (site : Site ρ) (answer : ρ → κ → ρ × α) (s : SegmentSession) :
    SegmentSession → Option (κ × Except Fault α) → Prop where
  /-- The record is placed anew through a handle, and asked. -/
  | own (number : Nat) (h : SegmentHandle) (request : κ) (here : s.handle? number = some h)
      (writable : h.mode = .readWrite) (maps : h.object = site.object) :
      Step site answer s (s.withRecord h site.format site.offset (answer · request)).1
        (some (request, (s.withRecord h site.format site.offset (answer · request)).2))
  | other (number : Nat) (h : SegmentHandle) {σ β : Type} (format : Format σ) (fresh : σ)
      (offset : Nat) (use : σ → σ × β) (here : s.handle? number = some h)
      (placeable : format.Placeable fresh)
      (apart : ∀ a, site.Covers h.object a → ¬ (offset ≤ a ∧ a < offset + format.shape.size)) :
      Step site answer s (s.withRecord h format offset use).1 none
  /-- Any move that does not get to the record's bytes. -/
  | move (move : SegmentSession.Move) (s' : SegmentSession) (fired : s.fire move = some s')
      (apart : ∀ a, site.Covers site.object a → ¬ s.Touches site.object a move) :
      Step site answer s s' none

inductive Run (site : Site ρ) (answer : ρ → κ → ρ × α) (s : SegmentSession) :
    List (κ × Except Fault α) → SegmentSession → Prop where
  | start : Run site answer s [] s
  | next {log : List (κ × Except Fault α)} {s' s'' : SegmentSession}
      {call : Option (κ × Except Fault α)} (run : Run site answer s log s')
      (step : Step site answer s' s'' call) : Run site answer s (log ++ call.toList) s''

structure Holds (site : Site ρ) (s : SegmentSession) (v : ρ) : Prop where
  orderly : s.Orderly
  room : ∃ len memory, s.space.object? site.object = some (.segment len memory) ∧
    site.offset + site.format.shape.size ≤ len
  aligned : site.offset % site.format.shape.align = 0
  value : site.format.read (s.space.memory site.object) site.offset = v

variable {site : Site ρ} {answer : ρ → κ → ρ × α} {s s' : SegmentSession} {v fresh : ρ}

theorem Holds.room_later (h : site.Holds s v) (later : s.space.Later s'.space) :
    ∃ len memory, s'.space.object? site.object = some (.segment len memory) ∧
      site.offset + site.format.shape.size ≤ len := by
  obtain ⟨len, memory, hobject, hroom⟩ := h.room
  obtain ⟨memory', hobject'⟩ := later.kept _ _ _ hobject
  exact ⟨len, memory', hobject', hroom⟩

/-- Bytes elsewhere may change, and segments do not go away. -/
theorem Holds.later (h : site.Holds s v) (flat : site.format.Flat fresh) (orderly : s'.Orderly)
    (later : s.space.Later s'.space)
    (same : ∀ a, site.Covers site.object a →
      s'.space.memory site.object a = s.space.memory site.object a) : site.Holds s' v where
  orderly := orderly
  room := h.room_later later
  aligned := h.aligned
  value := (flat.read_congr _ _ _ fun a hl hr => same a ⟨rfl, hl, hr⟩).trans h.value

/-- Whoever has a writable handle on the object can place the record. -/
theorem Holds.checkPlace (h : site.Holds s v) (flat : site.format.Flat fresh) {number : Nat}
    {x : SegmentHandle} (here : s.handle? number = some x) (writable : x.mode = .readWrite)
    (maps : x.object = site.object) : x.checkPlace site.format.shape site.offset = .ok () := by
  have hb := h.orderly.backed number x here
  obtain ⟨len, memory, hobject, hroom⟩ := h.room
  rw [SegmentHandle.checkPlace_eq_ok, hb.add_mod flat.align_dvd, hb.len_eq (maps ▸ hobject)]
  exact ⟨writable, hroom, h.aligned⟩

/-- A record that is asked something answers as its value does. -/
theorem Holds.own (h : site.Holds s v) (flat : site.format.Flat fresh) {number : Nat}
    {x : SegmentHandle} (here : s.handle? number = some x) (writable : x.mode = .readWrite)
    (maps : x.object = site.object) (answer : ρ → κ → ρ × α) (request : κ) :
    (s.withRecord x site.format site.offset (answer · request)).2 = .ok (answer v request).2 ∧
      site.Holds (s.withRecord x site.format site.offset (answer · request)).1
        (answer v request).1 := by
  obtain ⟨orderly, later, -⟩ :=
    SegmentSession.withRecord_keeps h.orderly here flat site.offset (answer · request)
  have hvalue : site.format.read (s.space.memory x.object) site.offset = v := maps ▸ h.value
  have hused := SegmentSession.withRecord_of_ok (answer · request) s
    (h.checkPlace flat here writable maps)
  rw [hvalue] at hused
  refine ⟨congrArg Prod.snd hused, orderly, h.room_later later, h.aligned, ?_⟩
  rw [hused, ← maps, SharedSpace.memory_store (h.orderly.backed number x here).object, if_pos rfl]
  exact flat.read_write ..

/-- What happens beside a record leaves it as it is. -/
theorem Holds.step_beside (h : site.Holds s v) (flat : site.format.Flat fresh)
    (step : site.Step answer s s' none) : site.Holds s' v := by
  cases step with
  | other number x format fresh' offset use here placeable apart =>
    obtain ⟨orderly, later, confined⟩ :=
      SegmentSession.withRecord_keeps h.orderly here placeable.flat offset use
    refine h.later flat orderly later fun a covers => ?_
    refine Decidable.byContradiction fun changed => ?_
    obtain ⟨hid, hin⟩ := confined _ a changed
    exact apart a (hid ▸ covers) hin
  | move move s' fired apart =>
    have turn := SegmentSession.turn_of_fire fired
    refine h.later flat (SegmentSession.orderly_turn h.orderly turn)
      (SegmentSession.space_turn h.orderly turn).2 fun a covers => ?_
    refine Decidable.byContradiction fun changed => ?_
    exact apart a covers (SegmentSession.touches_of_turn h.orderly turn changed).2

/-- How a record has answered, and which bytes it gets to. -/
structure Alike (site : Site ρ) (answer : ρ → κ → ρ × α) (fresh : ρ)
    (log : List (κ × Except Fault α)) (s : SegmentSession) : Prop where
  /-- As a fresh value would have answered, and never with a fault. -/
  replied : log.map (·.2) = (replies answer fresh (log.map (·.1))).map .ok
  confined : ∀ call s', site.Step answer s s' (some call) → ∀ id a,
    s'.space.memory id a ≠ s.space.memory id a → site.Covers id a

theorem holds_run {log : List (κ × Except Fault α)} (flat : site.format.Flat fresh)
    (h : site.Holds s v) (hrun : site.Run answer s log s') :
    site.Holds s' (after answer v (log.map (·.1))) ∧
      log.map (·.2) = (replies answer v (log.map (·.1))).map .ok := by
  induction hrun with
  | start => exact ⟨h, rfl⟩
  | @next log s' s'' call run step ih =>
    obtain ⟨hs', hlog⟩ := ih
    cases call with
    | none =>
      rw [Option.toList_none, List.append_nil]
      exact ⟨hs'.step_beside flat step, hlog⟩
    | some call =>
      cases step with
      | own number x request here writable maps =>
        obtain ⟨hreply, hs''⟩ := hs'.own flat here writable maps answer request
        rw [Option.toList_some, List.map_append, List.map_append, List.map_singleton,
          List.map_singleton, replies_concat, after_concat, List.map_append, hlog, hreply]
        exact ⟨hs'', rfl⟩

theorem placed_run {number : Nat} {h : SegmentHandle} {log : List (κ × Except Fault α)}
    (reached : s.Reached) (placeable : site.format.Placeable fresh)
    (here : s.handle? number = some h) (maps : h.object = site.object)
    (placed : h.checkPlace site.format.shape site.offset = .ok ())
    (zero : ∀ a, site.Covers site.object a → s.space.memory site.object a = 0)
    (hrun : site.Run answer s log s') : site.Alike answer fresh log s' := by
  have flat := placeable.flat
  have hb := reached.orderly.backed number h here
  obtain ⟨-, hroom, haligned⟩ := SegmentHandle.checkPlace_eq_ok.1 placed
  rw [hb.add_mod flat.align_dvd] at haligned
  have hvalue : site.format.read (s.space.memory site.object) site.offset = fresh :=
    (flat.read_congr _ .zero _ fun a hl hr => zero a ⟨rfl, hl, hr⟩).trans (flat.read_zero _)
  have hholds : site.Holds s fresh :=
    ⟨reached.orderly, ⟨_, _, maps ▸ hb.object, hroom⟩, haligned, hvalue⟩
  obtain ⟨hs', hlog⟩ := holds_run flat hholds hrun
  refine ⟨hlog, fun call s'' step id a changed => ?_⟩
  cases step with
  | own number x request here writable maps =>
    obtain ⟨hid, hin⟩ :=
      (SegmentSession.withRecord_keeps hs'.orderly here flat _ _).2.2 id a changed
    exact ⟨hid.trans maps, hin⟩

/-- A segment that is mapped twice, with room for a queue behind its first cache line. -/
def mappedTwice : List SegmentSession.Move :=
  [.create 0 "a" 320 {}, .attach 1 "a" .readWrite {}]

def secondLine : Site (TicketQueue UInt64 .pair) := ⟨0, 64, .queue .word64 .pair⟩

theorem mappedTwice_state : ∃ s h h', ({} : SegmentSession).run mappedTwice = some s ∧
    s.handle? 0 = some h ∧ s.handle? 1 = some h' ∧ h.object = 0 ∧ h'.object = 0 ∧
    h'.mode = .readWrite ∧ h.checkPlace secondLine.format.shape 64 = .ok () ∧
    ∀ a, s.space.memory 0 a = 0 := by
  have hdeeds : (({} : SegmentSession).deeds mappedTwice).isEmpty = true := by decide +kernel
  have hstate : (({} : SegmentSession).run mappedTwice).any (fun s => (s.handle? 0).any fun h =>
      (s.handle? 1).any fun h' => h.object = 0 ∧ h'.object = 0 ∧ h'.mode = .readWrite ∧
        h.mode = .readWrite ∧ 64 + secondLine.format.shape.size ≤ h.len ∧
        (h.base.toNat + 64) % secondLine.format.shape.align = 0) = true := by
    decide +kernel
  simp only [Option.any_eq_true, decide_eq_true_eq] at hstate
  obtain ⟨s, hrun, h, here, h', here', maps, maps', writable', placed⟩ := hstate
  refine ⟨s, h, h', hrun, here, here', maps, maps', writable',
    SegmentHandle.checkPlace_eq_ok.2 placed, fun a => ?_⟩
  rw [SegmentSession.memory_run SegmentSession.orderly_empty hrun, List.isEmpty_iff.1 hdeeds]
  rfl

theorem placed_run_unlinkedBetween : ∃ s log s', ({} : SegmentSession).run mappedTwice = some s ∧
    secondLine.Run TicketQueue.answer s log s' ∧ log.map (·.1) = [.push 7, .pop] ∧
    log.map (·.2) = [.ok .accepted, .ok (.popped 7)] ∧
    secondLine.Alike TicketQueue.answer TicketQueue.empty log s' := by
  obtain ⟨s, h, h', hrun, here, here', maps, maps', writable', placed, zero⟩ := mappedTwice_state
  obtain ⟨writable, -⟩ := SegmentHandle.checkPlace_eq_ok.1 placed
  have pushed : secondLine.Run TicketQueue.answer s _ _ :=
    .next .start (.own 0 h (.push 7) here writable maps)
  have unlinked := pushed.next (.move (.remove "a") _ rfl nofun)
  have popped := unlinked.next (.own 1 h' .pop
    (SegmentSession.handle?_turn SegmentSession.turn_of_remove
      (SegmentSession.handle?_withRecord.trans here') nofun) writable' maps')
  have halike := placed_run (SegmentSession.Reached.start.run hrun) (.queue .word64 .pair) here maps
    placed (fun a _ => zero a) popped
  have hempty : (TicketQueue.empty : TicketQueue UInt64 .pair).EmptyAt 0 :=
    ⟨rfl, rfl, rfl, by decide⟩
  have hreplies : replies TicketQueue.answer (TicketQueue.empty : TicketQueue UInt64 .pair)
      [.push 7, .pop] = replies (Fifo.answer Capacity.pair.size) [] [.push 7, .pop] :=
    replies_eq_of_simulation (R := fun (q : TicketQueue UInt64 .pair) xs => ∃ s, q.Stores s xs)
      (fun _ _ request h => TicketQueue.Stores.answer request h) ⟨0, hempty.stores⟩ _
  exact ⟨s, _, _, hrun, popped, rfl,
    halike.replied.trans (congrArg (List.map Except.ok) hreplies), halike⟩

end Site

end Cadence
