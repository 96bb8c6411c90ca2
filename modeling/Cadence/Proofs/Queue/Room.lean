import Cadence.Proofs.Queue.Traffic
import Cadence.Proofs.Word

/-!
What the count of a ticket queue counts. It is not the number of items: refused producers are in it
until they count themselves out, and a slot that the consumer has given back keeps its room for two
more steps. The split of the count into tickets, reservations and refusals is exact at every moment,
and the part that is not refused never exceeds the capacity.
-/

namespace Cadence.TicketQueue

variable {α : Type} {c : Capacity} {n : Nat}

namespace Enqueue

def isReserved : Enqueue α → Bool
  | reserved _ => true
  | _ => false

def isRefused : Enqueue α → Bool
  | refused _ => true
  | _ => false

end Enqueue

namespace Dequeue

def hasReleased : Dequeue α → Bool
  | released _ _ | advanced _ => true
  | _ => false

def hasAdvanced : Dequeue α → Bool
  | advanced _ => true
  | _ => false

end Dequeue

def standing (kind : Enqueue α → Bool) (producers : Vector (Producer α) n) : Nat :=
  producers.countP fun p => p.call.any fun call => kind call.2

theorem standing_le (kind : Enqueue α → Bool) (producers : Vector (Producer α) n) :
    standing kind producers ≤ n :=
  Vector.countP_le_size

theorem standing_replicate (kind : Enqueue α → Bool) (n : Nat) :
    standing kind (Vector.replicate n {}) = 0 := by
  rw [standing, Vector.countP_replicate]
  rfl

namespace Traffic

variable {t t' : Traffic α c n}

theorem standing_goOn (kind : Enqueue α → Bool) (t : Traffic α c n) {p : Fin n} (item : α)
    (pc : Enqueue α) {call : Option (α × Enqueue α)} (h : (t.producer p).call = call) :
    standing kind (t.goOn p item pc).producers + (call.any fun call => kind call.2).toNat =
      standing kind t.producers + (kind pc).toNat := by
  subst h
  exact countP_replaceAt _ _ _ _

theorem standing_comeBack (kind : Enqueue α → Bool) (t : Traffic α c n) {p : Fin n} (item : α)
    (answer : Enqueued α) {call : Option (α × Enqueue α)} (h : (t.producer p).call = call) :
    standing kind (t.comeBack p item answer).producers +
      (call.any fun call => kind call.2).toNat = standing kind t.producers := by
  subst h
  exact countP_replaceAt _ _ _ _

def released (t : Traffic α c n) : Nat :=
  t.taken.length + (t.consumer.any Dequeue.hasReleased).toNat

def passed (t : Traffic α c n) : Nat :=
  t.taken.length + (t.consumer.any Dequeue.hasAdvanced).toNat

structure Accounted (t : Traffic α c n) : Prop where
  count : t.queue.count.toNat + t.taken.length =
    t.drawn.length + standing Enqueue.isReserved t.producers +
      standing Enqueue.isRefused t.producers
  room : t.drawn.length + standing Enqueue.isReserved t.producers ≤ t.taken.length + c.size

theorem accounted_start {queue : TicketQueue α c} (h : queue.count = 0) :
    Accounted (start n queue) := by
  refine ⟨?_, ?_⟩
  · simp [start, standing_replicate, h]
  · simp [start, standing_replicate]

/-- A step of a producer that neither gains room nor gives any up. -/
theorem Accounted.of_same (h : Accounted t) (hcount : t'.queue.count = t.queue.count)
    (hdrawn : t'.drawn = t.drawn) (htaken : t'.taken = t.taken)
    (hreserved : standing Enqueue.isReserved t'.producers =
      standing Enqueue.isReserved t.producers)
    (hrefused : standing Enqueue.isRefused t'.producers =
      standing Enqueue.isRefused t.producers) : Accounted t' := by
  refine ⟨?_, ?_⟩
  · rw [hcount, hdrawn, htaken, hreserved, hrefused]
    exact h.count
  · rw [hdrawn, htaken, hreserved]
    exact h.room

theorem accounted_turn (hn : n + c.size < UInt64.size) (h : Accounted t)
    (hr : t.released ≤ t.drawn.length) (turn : Turn t t') : Accounted t' := by
  have hcount := h.count
  have hroom := h.room
  have htaken : t.taken.length ≤ t.drawn.length := Nat.le_trans (Nat.le_add_right _ _) hr
  cases turn with
  | offer p item idle =>
    exact h.of_same rfl rfl rfl
      (standing_goOn Enqueue.isReserved t item (.start item) idle)
      (standing_goOn Enqueue.isRefused t item (.start item) idle)
  | refuse p item i here full =>
    have h1 := standing_goOn Enqueue.isReserved t item (.refused i) here
    have h2 := standing_goOn Enqueue.isRefused t item (.refused i) here
    have hle := standing_le Enqueue.isRefused (t.goOn p item (.refused i)).producers
    simp only [Enqueue.isReserved, Enqueue.isRefused, Option.any_some, Bool.toNat_true,
      Bool.toNat_false, Nat.add_zero] at h1 h2
    have hword := UInt64.toNat_add_one_of_lt (w := t.queue.count) (by omega)
    refine ⟨?_, ?_⟩
    · dsimp only
      rw [goOn_drawn, goOn_taken, hword]
      omega
    · dsimp only
      rw [goOn_drawn, goOn_taken]
      omega
  | reserve p item i here room =>
    have h1 := standing_goOn Enqueue.isReserved t item (.reserved i) here
    have h2 := standing_goOn Enqueue.isRefused t item (.reserved i) here
    simp only [Enqueue.isReserved, Enqueue.isRefused, Option.any_some, Bool.toNat_true,
      Bool.toNat_false, Nat.add_zero] at h1 h2
    have hword := UInt64.toNat_add_one_of_lt (w := t.queue.count) (by omega)
    refine ⟨?_, ?_⟩
    · dsimp only
      rw [goOn_drawn, goOn_taken, hword]
      omega
    · dsimp only
      rw [goOn_drawn, goOn_taken]
      omega
  | reject p item i here =>
    have h1 := standing_comeBack Enqueue.isReserved t item (.rejected ⟨i⟩) here
    have h2 := standing_comeBack Enqueue.isRefused t item (.rejected ⟨i⟩) here
    simp only [Enqueue.isReserved, Enqueue.isRefused, Option.any_some, Bool.toNat_true,
      Bool.toNat_false, Nat.add_zero] at h1 h2
    have hword := UInt64.toNat_sub_one_of_pos (w := t.queue.count) (by omega)
    refine ⟨?_, ?_⟩
    · dsimp only
      rw [comeBack_drawn, comeBack_taken, hword]
      omega
    · dsimp only
      rw [comeBack_drawn, comeBack_taken]
      omega
  | draw p item i here =>
    have h1 := standing_goOn Enqueue.isReserved t item (.ticketed i t.queue.head) here
    have h2 := standing_goOn Enqueue.isRefused t item (.ticketed i t.queue.head) here
    simp only [Enqueue.isReserved, Enqueue.isRefused, Option.any_some, Bool.toNat_true,
      Bool.toNat_false, Nat.add_zero] at h1 h2
    refine ⟨?_, ?_⟩
    · dsimp only
      rw [goOn_taken, List.length_append, List.length_singleton]
      omega
    · dsimp only
      rw [goOn_taken, List.length_append, List.length_singleton]
      omega
  | clear p item i ticket here free =>
    exact h.of_same rfl rfl rfl
      (standing_goOn Enqueue.isReserved t item (.cleared i ticket) here)
      (standing_goOn Enqueue.isRefused t item (.cleared i ticket) here)
  | clash p item i ticket here taken =>
    exact h.of_same rfl rfl rfl
      (standing_comeBack Enqueue.isReserved t item _ here)
      (standing_comeBack Enqueue.isRefused t item _ here)
  | fill p item i ticket here =>
    exact h.of_same rfl rfl rfl
      (standing_goOn Enqueue.isReserved t item (.filled ticket) here)
      (standing_goOn Enqueue.isRefused t item (.filled ticket) here)
  | publish p item ticket here =>
    exact h.of_same rfl rfl rfl
      (standing_comeBack Enqueue.isReserved t item .accepted here)
      (standing_comeBack Enqueue.isRefused t item .accepted here)
  | ask | locate | enter | dismiss | copy | release | advance =>
    exact h.of_same rfl rfl rfl rfl rfl
  | leave item here =>
    -- The slot was given back before, so there is a ticket whose room is still in the count.
    have hleft : t.taken.length + 1 ≤ t.drawn.length := by
      simpa only [released, here, Dequeue.hasReleased, Option.any_some, Bool.toNat_true] using hr
    have hword := UInt64.toNat_sub_one_of_pos (w := t.queue.count) (by omega)
    refine ⟨?_, ?_⟩
    · simp only [hword, List.length_append, List.length_singleton]
      omega
    · simp only [List.length_append, List.length_singleton]
      omega

end Traffic

end Cadence.TicketQueue
