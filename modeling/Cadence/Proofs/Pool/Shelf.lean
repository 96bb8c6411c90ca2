import Cadence.Proofs.Fifo
import Cadence.Proofs.Pool.Reckoning

/-!
A frame pool, used by one party at a time, is a shelf of frames that are filled in turn, beside a
list of what was left in them and not read yet. A code that panics has done so after all that it
wrote, and the pool goes on as if it had returned; a frame keeps what lies in it until its turn
comes again.
-/

namespace Cadence.FramePool

variable {len : Nat} {c : Capacity} {ε : Type}

/-- What a pool can be asked, with the codes that are passed to it. -/
inductive Request (len : Nat) (ε : Type) where
  | write (writer : Writer len ε)
  | read (reader : Reader len ε)
  | len
  | isEmpty

inductive Reply (len : Nat) (ε : Type) where
  | written (answer : Written len ε)
  | read (answer : Except Fault (Ending ε))
  | length (n : Nat)
  | truth (b : Bool)

def answer (pool : FramePool len c) : Request len ε → FramePool len c × Reply len ε
  | .write writer => ((pool.write writer).1, .written (pool.write writer).2)
  | .read reader => ((pool.read reader).1, .read (pool.read reader).2)
  | .len => (pool, .length pool.held)
  | .isEmpty => (pool, .truth pool.isEmpty)

/-- The frames by their place, how many were filled so far, and what is not read yet, oldest
first. -/
structure Shelf (len : Nat) where
  frames : Nat → Frame len
  accepted : Nat
  unread : List (Frame len)

namespace Shelf

def empty : Shelf len := ⟨fun _ => .replicate len 0, 0, []⟩

/-- The frame whose turn it is holds something else, which waits to be read. -/
def put (n : Nat) (shelf : Shelf len) (frame : Frame len) : Shelf len :=
  ⟨Function.update shelf.frames (shelf.accepted % n) frame, shelf.accepted + 1,
    shelf.unread ++ [frame]⟩

/-- The shelf of `n` frames after a request, and its reply. -/
def answer (n : Nat) (shelf : Shelf len) : Request len ε → Shelf len × Reply len ε
  | .write writer =>
    if shelf.unread.length < n then
      let (frame, ending) := writer (shelf.frames (shelf.accepted % n))
      (shelf.put n frame, .written (.done ending))
    else (shelf, .written (.rejected ⟨writer⟩))
  | .read reader =>
    match shelf.unread with
    | [] => (shelf, .read (.error .empty))
    | frame :: unread => ({ shelf with unread }, .read (.ok (reader frame)))
  | .len => (shelf, .length shelf.unread.length)
  | .isEmpty => (shelf, .truth shelf.unread.isEmpty)

end Shelf

/-! Alone, nothing happens between the steps of a read. -/

theorem read_of_clear {pool : FramePool len c}
    (hclear : pool.ready.get (c.slot pool.tail) = false) (reader : Reader len ε) :
    pool.read reader = (pool, .error .empty) := by
  have hempty : Read.call.step pool (.positioned reader pool.tail) =
      (pool, .back (.error .empty)) := by
    simp only [Read.call, Read.step, hclear, Bool.false_eq_true, ↓reduceIte]
  rw [read, Procedure.run_of_more rfl, Procedure.run_of_back hempty]

theorem read_of_set {pool : FramePool len c} (hset : pool.ready.get (c.slot pool.tail) = true)
    (reader : Reader len ε) : pool.read reader = ({ pool with
        ready := replaceAt pool.ready (c.slot pool.tail) false
        tail := pool.tail + 1
        count := pool.count - 1 },
      .ok (reader (pool.frames.get (c.slot pool.tail)))) := by
  have hadmit : Read.call.step pool (.positioned reader pool.tail) =
      (pool, .more (.inside reader pool.tail)) := by
    simp only [Read.call, Read.step, hset, ↓reduceIte]
  rw [read, Procedure.run_of_more rfl, Procedure.run_of_more hadmit, Procedure.run_of_more rfl,
    Procedure.run_of_more rfl, Procedure.run_of_more rfl, Procedure.run_of_back rfl]

/-- The pool stands for the shelf, whose first `gone` frames have been read. -/
structure Keeps (pool : FramePool len c) (gone : Nat) (shelf : Shelf len) : Prop where
  accepted : shelf.accepted = gone + shelf.unread.length
  head : pool.head = position 0 shelf.accepted
  tail : pool.tail = position 0 gone
  count : pool.count = .ofNat shelf.unread.length
  length_le : shelf.unread.length ≤ c.size
  placed : Placed 0 pool.ready [] shelf.accepted gone
  frames : ∀ i : Fin c.size, pool.frames.get i = shelf.frames i
  unread : ∀ k frame, shelf.unread[k]? = some frame →
    shelf.frames ((gone + k) % c.size) = frame

theorem EmptyAt.keeps {pool : FramePool len c} (h : pool.EmptyAt 0) : pool.Keeps 0 .empty where
  accepted := rfl
  head := h.head
  tail := h.tail
  count := h.count
  length_le := Nat.zero_le _
  placed :=
    { bounds := List.forall_mem_nil _
      once := .nil
      free := fun _ _ _ _ => h.ready _
      full := fun _ _ hk => absurd hk (Nat.not_lt_zero _) }
  frames := h.frames
  unread := by
    intro k frame hk
    cases hk

theorem slot_position_zero (k : Nat) : (c.slot (position 0 k)).val = k % c.size := by
  rw [Capacity.val_slot_position, UInt64.toNat_zero, Nat.zero_add]

namespace Keeps

variable {pool : FramePool len c} {gone : Nat} {shelf : Shelf len}

theorem toNat_count (h : pool.Keeps gone shelf) : pool.count.toNat = shelf.unread.length := by
  rw [h.count]
  exact UInt64.toNat_ofNat_of_lt' (Nat.lt_of_le_of_lt h.length_le c.size_lt)

theorem held_eq (h : pool.Keeps gone shelf) : pool.held = shelf.unread.length := by
  rw [held, h.toNat_count]
  exact Nat.min_eq_left h.length_le

theorem isEmpty_eq (h : pool.Keeps gone shelf) : pool.isEmpty = shelf.unread.isEmpty := by
  rw [isEmpty, h.held_eq]
  cases shelf.unread <;> rfl

/-- A frame is published under the ticket at the head, and counted. -/
theorem put (h : pool.Keeps gone shelf) (hroom : shelf.unread.length < c.size)
    (frame : Frame len) : Keeps { pool with
      count := pool.count + 1
      head := pool.head + 1
      ready := replaceAt pool.ready (c.slot pool.head) true
      frames := replaceAt pool.frames (c.slot pool.head) frame } gone (shelf.put c.size frame) := by
  have haccepted := h.accepted
  refine ⟨?_, ?_, h.tail, ?_, ?_, ?_, fun i => ?_, fun k f hk => ?_⟩
  · rw [Shelf.put, haccepted, List.length_append, List.length_singleton, Nat.add_assoc]
  · rw [Shelf.put, position_succ, ← h.head]
  · rw [Shelf.put, h.count, List.length_append, List.length_singleton, UInt64.ofNat_add_one]
  · rw [Shelf.put, List.length_append]
    exact hroom
  · rw [h.head]
    exact (h.placed.draw (by omega)).publish (by omega)
  · change (replaceAt pool.frames (c.slot pool.head) frame).get i =
      Function.update shelf.frames (shelf.accepted % c.size) frame i.val
    rw [get_replaceAt, h.frames, Function.update_apply]
    refine if_congr ?_ rfl rfl
    rw [h.head, Fin.ext_iff, slot_position_zero]
  · change Function.update shelf.frames (shelf.accepted % c.size) frame ((gone + k) % c.size) = f
    change (shelf.unread ++ [frame])[k]? = some f at hk
    have hk' := (List.getElem?_eq_some_iff.1 hk).1
    rw [List.length_append, List.length_singleton] at hk'
    rcases Nat.lt_or_ge k shelf.unread.length with hlt | hge
    · rw [List.getElem?_append_left hlt] at hk
      have hne : (gone + k) % c.size ≠ shelf.accepted % c.size := by
        rw [← slot_position_zero, ← slot_position_zero]
        have hle : gone ≤ gone + k := Nat.le_add_right ..
        exact Fin.val_ne_of_ne (Capacity.slot_position_ne hle (by omega) (by omega) (by omega)
          (by omega))
      rw [Function.update_of_ne hne]
      exact h.unread k f hk
    · obtain rfl : k = shelf.unread.length := by omega
      rw [List.getElem?_concat_length, Option.some.injEq] at hk
      rw [← haccepted, Function.update_self, hk]

/-- The frame at the tail is given back, with what lies in it. -/
theorem take {frame : Frame len} {unread : List (Frame len)} (h : pool.Keeps gone shelf)
    (hsome : shelf.unread = frame :: unread) : Keeps { pool with
      ready := replaceAt pool.ready (c.slot pool.tail) false
      tail := pool.tail + 1
      count := pool.count - 1 } (gone + 1) { shelf with unread } := by
  have haccepted := h.accepted
  have hlength := h.length_le
  rw [hsome, List.length_cons] at haccepted hlength
  refine ⟨?_, h.head, ?_, ?_, Nat.le_of_succ_le hlength, ?_, h.frames, fun k f hk => ?_⟩
  · change shelf.accepted = gone + 1 + unread.length
    omega
  · rw [position_succ, ← h.tail]
  · rw [h.count, hsome, List.length_cons, UInt64.ofNat_add_one_sub_one]
  · rw [h.tail]
    exact h.placed.release (by omega) List.not_mem_nil
  · rw [Nat.add_assoc, Nat.add_comm 1 k]
    exact h.unread (k + 1) f (by rw [hsome]; exact hk)

theorem write_of_room (h : pool.Keeps gone shelf) (hroom : shelf.unread.length < c.size)
    {writer : Writer len ε} {frame : Frame len} {ending : Ending ε}
    (hcode : writer (shelf.frames (shelf.accepted % c.size)) = (frame, ending)) :
    ∃ pool', pool.write writer = (pool', .done ending) ∧
      pool'.Keeps gone (shelf.put c.size frame) := by
  have haccepted := h.accepted
  have hclear : pool.ready.get (c.slot pool.head) = false := by
    rw [h.head]
    exact h.placed.free _ (by omega) (by omega) (.inl (Nat.le_refl _))
  have hframe : pool.frames.get (c.slot pool.head) = shelf.frames (shelf.accepted % c.size) := by
    rw [h.frames, h.head, slot_position_zero]
  have hwrite := write_of_lt (h.toNat_count.trans_lt hroom) hclear writer
  rw [hframe, hcode] at hwrite
  exact ⟨_, hwrite, h.put hroom frame⟩

theorem read_of_nil (h : pool.Keeps gone shelf) (hnone : shelf.unread = [])
    (reader : Reader len ε) : pool.read reader = (pool, .error .empty) := by
  have haccepted := h.accepted
  rw [hnone, List.length_nil, Nat.add_zero] at haccepted
  refine read_of_clear ?_ reader
  rw [h.tail]
  exact h.placed.free _ (Nat.le_refl _) (Nat.lt_add_of_pos_right c.size_pos)
    (.inl (Nat.le_of_eq haccepted))

theorem read_of_cons {frame : Frame len} {unread : List (Frame len)} (h : pool.Keeps gone shelf)
    (hsome : shelf.unread = frame :: unread) (reader : Reader len ε) :
    ∃ pool', pool.read reader = (pool', .ok (reader frame)) ∧
      pool'.Keeps (gone + 1) { shelf with unread } := by
  have haccepted := h.accepted
  rw [hsome, List.length_cons] at haccepted
  have hset : pool.ready.get (c.slot pool.tail) = true := by
    rw [h.tail]
    exact h.placed.full _ (Nat.le_refl _) (by omega) List.not_mem_nil
  have hframe : pool.frames.get (c.slot pool.tail) = frame := by
    rw [h.frames, h.tail, slot_position_zero]
    exact h.unread 0 frame (by rw [hsome]; rfl)
  have hread := read_of_set hset reader
  rw [hframe] at hread
  exact ⟨_, hread, h.take hsome⟩

theorem answer (request : Request len ε) (h : ∃ gone, pool.Keeps gone shelf) :
    (∃ gone, (pool.answer request).1.Keeps gone (shelf.answer c.size request).1) ∧
      (pool.answer request).2 = (shelf.answer c.size request).2 := by
  obtain ⟨gone, h⟩ := h
  cases request with
  | write writer =>
    rcases Nat.lt_or_ge shelf.unread.length c.size with hroom | hfull
    · rcases hcode : writer (shelf.frames (shelf.accepted % c.size)) with ⟨frame, ending⟩
      obtain ⟨pool', hwrite, hkeeps⟩ := h.write_of_room hroom hcode
      simp only [FramePool.answer, Shelf.answer, if_pos hroom, hwrite, hcode]
      exact ⟨⟨gone, hkeeps⟩, trivial⟩
    · have hwrite := write_of_le (h.toNat_count ▸ hfull) writer
      simp only [FramePool.answer, Shelf.answer, if_neg (Nat.not_lt.2 hfull), hwrite]
      exact ⟨⟨gone, h⟩, trivial⟩
  | read reader =>
    cases hunread : shelf.unread with
    | nil =>
      simp only [FramePool.answer, Shelf.answer, hunread, h.read_of_nil hunread]
      exact ⟨⟨gone, h⟩, trivial⟩
    | cons frame unread =>
      obtain ⟨pool', hread, hkeeps⟩ := h.read_of_cons hunread reader
      simp only [FramePool.answer, Shelf.answer, hunread, hread]
      exact ⟨⟨gone + 1, hkeeps⟩, trivial⟩
  | len => exact ⟨⟨gone, h⟩, congrArg Reply.length h.held_eq⟩
  | isEmpty => exact ⟨⟨gone, h⟩, congrArg Reply.truth h.isEmpty_eq⟩

end Keeps

theorem Geometry.of_check {frameLen frames : Nat} {g : Geometry}
    (h : check frameLen frames = .ok g) : g.frameLen = frameLen ∧ g.capacity.size = frames := by
  unfold check at h
  split at h
  · split at h
    · cases h
    · rename_i hcapacity
      split at h
      · cases h
        exact ⟨rfl, Capacity.size_of_ofNat? hcapacity⟩
      · cases h
  · cases h

/-- A new pool, whatever it is asked and however the codes that are passed to it end, replies as the
shelf does, holds what the shelf holds, and says how much of it is unread. A refused code and a read
of nothing leave no trace. -/
theorem replies_eq_shelf {frameLen frames : Nat} {g : Geometry}
    (accepted : Geometry.check frameLen frames = .ok g)
    (requests : List (Request g.frameLen ε)) :
    let start : FramePool g.frameLen g.capacity := .empty
    let pool := after FramePool.answer start requests
    let shelf := after (Shelf.answer frames) .empty requests
    (g.frameLen = frameLen ∧ g.capacity.size = frames) ∧
    replies FramePool.answer start requests = replies (Shelf.answer frames) .empty requests ∧
    (pool.held = shelf.unread.length ∧ shelf.unread.length ≤ frames) ∧
    (∀ i, pool.frames.get i = shelf.frames i) ∧
    (shelf.unread.length = frames →
      ∀ writer : Writer g.frameLen ε, pool.write writer = (pool, .rejected ⟨writer⟩)) ∧
    (shelf.unread = [] →
      ∀ reader : Reader g.frameLen ε, pool.read reader = (pool, .error .empty)) := by
  intro start pool shelf
  obtain ⟨hlen, rfl⟩ := Geometry.of_check accepted
  have hstart : ∃ gone, start.Keeps gone .empty := ⟨0, emptyAt_empty.keeps⟩
  obtain ⟨gone, h⟩ : ∃ gone, pool.Keeps gone shelf :=
    after_of_simulation (R := fun pool shelf => ∃ gone, Keeps pool gone shelf)
      (fun _ _ request h => (Keeps.answer request h).1) hstart requests
  refine ⟨⟨hlen, rfl⟩, ?_, ⟨h.held_eq, h.length_le⟩, h.frames, fun hfull writer => ?_,
    fun hnone reader => h.read_of_nil hnone reader⟩
  · exact replies_eq_of_simulation (R := fun pool shelf => ∃ gone, Keeps pool gone shelf)
      (fun _ _ request h => Keeps.answer request h) hstart requests
  · exact write_of_le (h.toNat_count ▸ Nat.le_of_eq hfull.symm) writer

def Geometry.twoBytes : Geometry := ⟨1, .pair, by decide, by decide⟩

/-- The first code panics, and so does the one that reads what it left. -/
def twoLaps : List (Request 1 (Frame 1)) :=
  [.read (copyOut none), .write (layOver 0 [7] (some "writer failed")), .write (layOver 0 [8] none),
    .write (layOver 0 [9] none), .len, .read (copyOut (some "reader failed")), .len,
    .write (layOver 0 [] none), .read (copyOut none), .read (copyOut none), .isEmpty]

/-- The byte of the first lap is still there in the second. -/
theorem replies_eq_shelf_twoLaps :
    Geometry.check 1 2 = .ok .twoBytes ∧
    replies FramePool.answer (empty : FramePool 1 .pair) twoLaps =
      [.read (.error .empty), .written (.done (.panicked "writer failed")),
        .written (.done (.returned #v[8])), .written (.rejected ⟨layOver 0 [9] none⟩), .length 2,
        .read (.ok (.panicked "reader failed")), .length 1, .written (.done (.returned #v[7])),
        .read (.ok (.returned #v[8])), .read (.ok (.returned #v[7])), .truth true] := by
  have accepted : Geometry.check 1 2 = .ok .twoBytes := by rfl
  exact ⟨accepted, (replies_eq_shelf accepted twoLaps).2.1.trans rfl⟩

end Cadence.FramePool
