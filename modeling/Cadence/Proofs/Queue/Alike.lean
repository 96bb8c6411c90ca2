import Cadence.Proofs.Fifo
import Cadence.Proofs.Queue.Stored
import Cadence.Proofs.Ring.Stored

/-!
The ring and the ticket queue, used by one party at a time, cannot be told from a list, nor from
each other but for the one question that only a ring takes. Neither the place where the cursors
stand nor what lies in slots that store nothing shows in any reply.
-/

namespace Cadence

variable {α : Type} {c : Capacity}

inductive Ring.Request (α : Type) where
  | plain (request : Fifo.Request α)
  | isFull

namespace Fifo

/-- The same list, when it is also asked whether it is full. -/
def answerRing (capacity : Nat) (xs : List α) : Ring.Request α → List α × Reply α
  | .plain request => answer capacity xs request
  | .isFull => (xs, .truth (xs.length == capacity))

end Fifo

namespace Ring

def answer (r : Ring α c) : Ring.Request α → Ring α c × Fifo.Reply α
  | .plain (.push item) => ((r.push item).1, .ofPush (r.push item).2)
  | .plain .pop => (r.pop.1, .ofPop r.pop.2)
  | .plain .len => (r, .length r.len)
  | .plain .isEmpty => (r, .truth r.isEmpty)
  | .isFull => (r, .truth r.isFull)

theorem Stores.answer {r : Ring α c} {xs : List α} (request : Ring.Request α)
    (h : ∃ s, r.Stores s xs) :
    (∃ s, (r.answer request).1.Stores s (Fifo.answerRing c.size xs request).1) ∧
      (r.answer request).2 = (Fifo.answerRing c.size xs request).2 := by
  obtain ⟨s, h⟩ := h
  cases request with
  | plain request =>
    cases request with
    | push item =>
      rcases Nat.lt_or_ge xs.length c.size with hroom | hfull
      · obtain ⟨r', hpush, hstores⟩ := h.push_of_lt hroom item
        simp only [Ring.answer, Fifo.answerRing, Fifo.answer, if_pos hroom, hpush]
        exact ⟨⟨s, hstores⟩, rfl⟩
      · have hpush := h.push_of_full (Nat.le_antisymm h.length_le hfull) item
        simp only [Ring.answer, Fifo.answerRing, Fifo.answer, if_neg (Nat.not_lt.2 hfull), hpush]
        exact ⟨⟨s, h⟩, rfl⟩
    | pop =>
      cases xs with
      | nil =>
        simp only [Ring.answer, Fifo.answerRing, Fifo.answer, h.pop_of_nil]
        exact ⟨⟨s, h⟩, rfl⟩
      | cons x xs =>
        obtain ⟨r', hpop, hstores⟩ := h.pop_of_cons
        simp only [Ring.answer, Fifo.answerRing, Fifo.answer, hpop]
        exact ⟨⟨s + 1, hstores⟩, rfl⟩
    | len => exact ⟨⟨s, h⟩, congrArg Fifo.Reply.length h.len_eq⟩
    | isEmpty =>
      refine ⟨⟨s, h⟩, congrArg Fifo.Reply.truth ?_⟩
      rw [isEmpty, h.len_eq]
      cases xs <;> rfl
  | isFull =>
    refine ⟨⟨s, h⟩, congrArg Fifo.Reply.truth ?_⟩
    rw [isFull, h.len_eq]

end Ring

namespace TicketQueue

def Enqueued.reply : Enqueued α → Fifo.Reply α
  | accepted => .accepted
  | rejected r => .refused r.item
  | clash _ _ => .broken

def answer (q : TicketQueue α c) : Fifo.Request α → TicketQueue α c × Fifo.Reply α
  | .push item => ((q.enqueue item).1, (q.enqueue item).2.reply)
  | .pop => (q.dequeue.1, .ofPop q.dequeue.2)
  | .len => (q, .length q.len)
  | .isEmpty => (q, .truth q.isEmpty)

theorem Stores.answer {q : TicketQueue α c} {xs : List α} (request : Fifo.Request α)
    (h : ∃ s, q.Stores s xs) :
    (∃ s, (q.answer request).1.Stores s (Fifo.answer c.size xs request).1) ∧
      (q.answer request).2 = (Fifo.answer c.size xs request).2 := by
  obtain ⟨s, h⟩ := h
  cases request with
  | push item =>
    rcases Nat.lt_or_ge xs.length c.size with hroom | hfull
    · obtain ⟨q', hpush, hstores⟩ := h.enqueue_of_lt hroom item
      simp only [TicketQueue.answer, Fifo.answer, if_pos hroom, hpush]
      exact ⟨⟨s, hstores⟩, rfl⟩
    · have hpush := h.enqueue_of_full (Nat.le_antisymm h.length_le hfull) item
      simp only [TicketQueue.answer, Fifo.answer, if_neg (Nat.not_lt.2 hfull), hpush]
      exact ⟨⟨s, h⟩, rfl⟩
  | pop =>
    cases xs with
    | nil =>
      simp only [TicketQueue.answer, Fifo.answer, h.dequeue_of_nil]
      exact ⟨⟨s, h⟩, rfl⟩
    | cons x xs =>
      obtain ⟨q', hpop, hstores⟩ := h.dequeue_of_cons
      simp only [TicketQueue.answer, Fifo.answer, hpop]
      exact ⟨⟨s + 1, hstores⟩, rfl⟩
  | len => exact ⟨⟨s, h⟩, congrArg Fifo.Reply.length h.len_eq⟩
  | isEmpty =>
    refine ⟨⟨s, h⟩, congrArg Fifo.Reply.truth ?_⟩
    rw [isEmpty, h.len_eq]
    cases xs <;> rfl

end TicketQueue

/-- Both are a list of bounded length, from any place where they are empty. -/
theorem replies_eq_fifo {r : Ring α c} {q : TicketQueue α c} {s s' : UInt64} (hwrite : r.write = s)
    (hread : r.read = s) (hq : q.EmptyAt s') :
    (∀ requests : List (Ring.Request α),
      replies Ring.answer r requests = replies (Fifo.answerRing c.size) [] requests) ∧
    ∀ requests : List (Fifo.Request α),
      replies TicketQueue.answer q requests = replies (Fifo.answer c.size) [] requests :=
  ⟨replies_eq_of_simulation (R := fun r xs => ∃ s, r.Stores s xs)
    (fun _ _ request h => Ring.Stores.answer request h) ⟨s, Ring.stores_nil hwrite hread⟩,
   replies_eq_of_simulation (R := fun q xs => ∃ s, q.Stores s xs)
    (fun _ _ request h => TicketQueue.Stores.answer request h) ⟨s', hq.stores⟩⟩

def TicketQueue.atTheWrap : TicketQueue Nat .pair :=
  { head := 18446744073709551615, count := 0, tail := 18446744073709551615
    slots := #v[⟨0, 0⟩, ⟨18446744073709551614, 0⟩] }

def threeThroughTwo : List (Fifo.Request Nat) :=
  [.pop, .push 7, .push 8, .push 9, .len, .pop, .push 9, .pop, .pop, .isEmpty]

theorem replies_eq_fifo_atTheWrap :
    replies Ring.answer Ring.atTheWrap (threeThroughTwo.map .plain ++ [.isFull]) =
      [.empty, .accepted, .accepted, .refused 9, .length 2, .popped 7, .accepted, .popped 8,
        .popped 9, .truth true, .truth false] ∧
    replies TicketQueue.answer TicketQueue.atTheWrap threeThroughTwo =
      [.empty, .accepted, .accepted, .refused 9, .length 2, .popped 7, .accepted, .popped 8,
        .popped 9, .truth true] := by
  have h := replies_eq_fifo (r := Ring.atTheWrap) (q := TicketQueue.atTheWrap) rfl rfl
    ⟨rfl, rfl, rfl, by decide⟩
  exact ⟨(h.1 _).trans rfl, (h.2 _).trans rfl⟩

end Cadence
