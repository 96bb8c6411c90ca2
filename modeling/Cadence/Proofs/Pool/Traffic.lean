import Cadence.FramePool
import Mathlib.Data.List.TakeWhile
import Mathlib.Logic.Function.Basic

/-!
Any number of writers and one reader around a frame pool. A move begins a call or takes the next
atomic step of one. The caller's own code takes as long as it likes: while it runs, it may lay what
it likes over its frame, and it may begin a write of its own on the same pool, which has to be back
before the code goes on. So every thread has a pile of writes under way, and the reader's code may
have such a pile on top of its read. The last piece of the code, with which it returns or panics, is
the function that was passed to the call.

Beside the pool the state keeps which ticket each write drew, what its code was given to begin with,
what it has made of that and what came out of its last piece, and for the reads what their code was
given and what they came back with. What a code is given is found out by a code that tells.
-/

namespace Cadence.FramePool

/-- A write under way, on one of `n` threads that write or on the reader's. -/
structure Call (len n : Nat) (ε : Type) where
  thread : Fin (n + 1)
  /-- The caller's code as it was passed. -/
  writer : Writer len ε
  pc : Write len ε
  /-- How many tickets were drawn before its own. -/
  number : Nat := 0

structure Reading (len : Nat) (ε : Type) where
  /-- The caller's code as it was passed. -/
  reader : Reader len ε
  pc : Read len ε
  /-- The frame as the caller's code was given it. -/
  given : Option (Frame len) := none

def Write.isInside {len : Nat} {ε : Type} : Write len ε → Bool
  | inside _ _ => true
  | _ => false

def Read.isInside {len : Nat} {ε : Type} : Read len ε → Bool
  | inside _ _ => true
  | _ => false

/-- What the next step hands to the caller's code. -/
def Write.handed? {len : Nat} {c : Capacity} {ε : Type} (pool : FramePool len c) :
    Write len ε → Option (Frame len)
  | inside _ ticket =>
    match (step pool (inside (fun frame => (frame, .returned frame)) ticket)).2 with
    | .more (leaving _ (.returned frame)) => some frame
    | _ => none
  | _ => none

def Read.handed? {len : Nat} {c : Capacity} {ε : Type} (pool : FramePool len c) :
    Read len ε → Option (Frame len)
  | inside _ ticket =>
    match (step pool (inside .returned ticket)).2 with
    | .more (leaving _ (.returned frame)) => some frame
    | _ => none
  | _ => none

/-- The caller's code, as long as it has not been run. -/
def Write.writer? {len : Nat} {ε : Type} : Write len ε → Option (Writer len ε)
  | start writer | refused writer | reserved writer | ticketed writer _ | inside writer _ =>
    some writer
  | leaving _ _ => none

structure Traffic (len : Nat) (c : Capacity) (n : Nat) (ε : Type) where
  pool : FramePool len c
  /-- The writes under way, those begun last in front. -/
  calls : List (Call len n ε) := []
  reading : Option (Reading len ε) := none
  drawn : Nat := 0
  /-- The code that was passed for the `k`-th ticket. -/
  codes : Nat → Option (Writer len ε) := fun _ => none
  /-- What it was given to begin with. -/
  found : Nat → Option (Frame len) := fun _ => none
  /-- What it has made of that by itself, up to its last piece. -/
  made : Nat → Option (Frame len) := fun _ => none
  /-- What came out of the last piece. -/
  left : Nat → Option (Frame len) := fun _ => none
  /-- What the writes came back with, by thread and code. -/
  answers : List (Fin (n + 1) × Writer len ε × Written len ε) := []
  /-- What the code of the reads that are back was given. -/
  taken : List (Frame len) := []
  /-- What they came back with, by code. -/
  looks : List (Reader len ε × Ending ε) := []

namespace Traffic

variable {len : Nat} {c : Capacity} {n : Nat} {ε : Type}

def start (n : Nat) (pool : FramePool len c) : Traffic len c n ε := { pool }

inductive Move (len n : Nat) (ε : Type) where
  /-- Begin to write, from outside or from the code of a call of the same thread. -/
  | offer (p : Fin (n + 1)) (writer : Writer len ε)
  /-- The next step of a thread's innermost write. -/
  | push (p : Fin (n + 1))
  /-- The code of a thread's innermost write lays something over its frame. -/
  | touch (p : Fin (n + 1)) (frame : Frame len)
  | ask (reader : Reader len ε)
  /-- The next step of the reader. -/
  | pull

def readerThread (n : Nat) : Fin (n + 1) := ⟨n, Nat.lt_succ_self n⟩

/-- A thread's innermost write, with the writes begun after it and before it. -/
def innermost? (calls : List (Call len n ε)) (p : Fin (n + 1)) :
    Option (List (Call len n ε) × Call len n ε × List (Call len n ε)) :=
  match calls.dropWhile (·.thread ≠ p) with
  | [] => none
  | x :: outer => some (calls.takeWhile (·.thread ≠ p), x, outer)

/-- The thread runs code that is not the pool's own. -/
def isFree (t : Traffic len c n ε) (p : Fin (n + 1)) : Bool :=
  match innermost? t.calls p with
  | some (_, x, _) => x.pc.isInside
  | none => p ≠ readerThread n || t.reading.all (·.pc.isInside)

/-- The write `x` stands before another step. -/
def goOn (t : Traffic len c n ε) (inner outer : List (Call len n ε)) (x : Call len n ε)
    (pool : FramePool len c) (pc : Write len ε) : Traffic len c n ε :=
  match pc with
  | .ticketed _ _ =>
    { t with pool, calls := inner ++ { x with pc, number := t.drawn } :: outer
             drawn := t.drawn + 1, codes := Function.update t.codes t.drawn (some x.writer) }
  | .inside _ _ =>
    { t with pool, calls := inner ++ { x with pc } :: outer
             found := Function.update t.found x.number (pc.handed? pool)
             made := Function.update t.made x.number (pc.handed? pool) }
  | .leaving _ _ =>
    { t with pool, calls := inner ++ { x with pc } :: outer
             left := Function.update t.left x.number
               ((x.pc.handed? t.pool).map fun frame => (x.writer frame).1) }
  | _ => { t with pool, calls := inner ++ { x with pc } :: outer }

/-- The read stands before another step. -/
def readOn (t : Traffic len c n ε) (x : Reading len ε) (pool : FramePool len c)
    (pc : Read len ε) : Traffic len c n ε :=
  match x.pc with
  | .inside _ _ => { t with pool, reading := some { x with pc, given := x.pc.handed? t.pool } }
  | _ => { t with pool, reading := some { x with pc } }

def fire (t : Traffic len c n ε) : Move len n ε → Option (Traffic len c n ε)
  | .offer p writer =>
    if t.isFree p then
      some { t with calls := { thread := p, writer, pc := .start writer } :: t.calls }
    else none
  | .push p =>
    match innermost? t.calls p with
    | none => none
    | some (inner, x, outer) =>
      let (pool, next) := x.pc.step t.pool
      match next with
      | .more pc => some (t.goOn inner outer x pool pc)
      | .back answer =>
        some { t with pool, calls := inner ++ outer
                      answers := t.answers ++ [(p, x.writer, answer)] }
  | .touch p frame =>
    match innermost? t.calls p with
    | none => none
    | some (_, x, _) =>
      match x.pc with
      | .inside _ ticket =>
        some { t with
          pool := { t.pool with frames := replaceAt t.pool.frames (c.slot ticket) frame }
          made := Function.update t.made x.number (some frame) }
      | _ => none
  | .ask reader =>
    if t.reading.isNone && (innermost? t.calls (readerThread n)).isNone then
      some { t with reading := some { reader, pc := .start reader } }
    else none
  | .pull =>
    match t.reading, innermost? t.calls (readerThread n) with
    | some x, none =>
      let (pool, next) := x.pc.step t.pool
      match next with
      | .more pc => some (t.readOn x pool pc)
      | .back (.ok ending) =>
        some { t with pool, reading := none, taken := t.taken ++ x.given.toList
                      looks := t.looks ++ [(x.reader, ending)] }
      | .back (.error _) => some { t with pool, reading := none }
    | _, _ => none

/-- The state after moves that are all possible in turn. -/
def run (t : Traffic len c n ε) (moves : List (Move len n ε)) : Option (Traffic len c n ε) :=
  moves.foldlM fire t

/-- The write that has come as far as `pc` is the innermost one of its thread. -/
structure Innermost (t : Traffic len c n ε) (inner outer : List (Call len n ε))
    (x : Call len n ε) (pc : Write len ε) : Prop where
  here : t.calls = inner ++ x :: outer
  pc : x.pc = pc
  first : ∀ y ∈ inner, y.thread ≠ x.thread

/-- Everything that a move can come to. -/
inductive Turn (t : Traffic len c n ε) : Traffic len c n ε → Prop where
  | offer (p : Fin (n + 1)) (writer : Writer len ε) (free : t.isFree p = true) :
      Turn t { t with calls := { thread := p, writer, pc := .start writer } :: t.calls }
  | refuse (inner outer : List (Call len n ε)) (x : Call len n ε) (w : Writer len ε)
      (here : t.Innermost inner outer x (.start w)) (full : c.size ≤ t.pool.count.toNat) :
      Turn t { t with
        pool := { t.pool with count := t.pool.count + 1 }
        calls := inner ++ { x with pc := .refused w } :: outer }
  | reserve (inner outer : List (Call len n ε)) (x : Call len n ε) (w : Writer len ε)
      (here : t.Innermost inner outer x (.start w)) (room : t.pool.count.toNat < c.size) :
      Turn t { t with
        pool := { t.pool with count := t.pool.count + 1 }
        calls := inner ++ { x with pc := .reserved w } :: outer }
  | reject (inner outer : List (Call len n ε)) (x : Call len n ε) (w : Writer len ε)
      (here : t.Innermost inner outer x (.refused w)) :
      Turn t { t with
        pool := { t.pool with count := t.pool.count - 1 }
        calls := inner ++ outer
        answers := t.answers ++ [(x.thread, x.writer, .rejected ⟨w⟩)] }
  | draw (inner outer : List (Call len n ε)) (x : Call len n ε) (w : Writer len ε)
      (here : t.Innermost inner outer x (.reserved w)) :
      Turn t { t with
        pool := { t.pool with head := t.pool.head + 1 }
        calls := inner ++
          { x with pc := .ticketed w t.pool.head, number := t.drawn } :: outer
        drawn := t.drawn + 1
        codes := Function.update t.codes t.drawn (some x.writer) }
  | enter (inner outer : List (Call len n ε)) (x : Call len n ε) (w : Writer len ε)
      (ticket : UInt64) (here : t.Innermost inner outer x (.ticketed w ticket))
      (clear : t.pool.ready.get (c.slot ticket) = false) :
      Turn t { t with
        calls := inner ++ { x with pc := .inside w ticket } :: outer
        found := Function.update t.found x.number (some (t.pool.frames.get (c.slot ticket)))
        made := Function.update t.made x.number (some (t.pool.frames.get (c.slot ticket))) }
  | clash (inner outer : List (Call len n ε)) (x : Call len n ε) (w : Writer len ε)
      (ticket : UInt64) (here : t.Innermost inner outer x (.ticketed w ticket))
      (set : t.pool.ready.get (c.slot ticket) = true) :
      Turn t { t with
        calls := inner ++ outer, answers := t.answers ++ [(x.thread, x.writer, .clash)] }
  | touch (inner outer : List (Call len n ε)) (x : Call len n ε) (w : Writer len ε)
      (ticket : UInt64) (frame : Frame len)
      (here : t.Innermost inner outer x (.inside w ticket)) :
      Turn t { t with
        pool := { t.pool with frames := replaceAt t.pool.frames (c.slot ticket) frame }
        made := Function.update t.made x.number (some frame) }
  | finish (inner outer : List (Call len n ε)) (x : Call len n ε) (w : Writer len ε)
      (ticket : UInt64) (frame : Frame len) (ending : Ending ε)
      (here : t.Innermost inner outer x (.inside w ticket))
      (code : w (t.pool.frames.get (c.slot ticket)) = (frame, ending)) :
      Turn t { t with
        pool := { t.pool with frames := replaceAt t.pool.frames (c.slot ticket) frame }
        calls := inner ++ { x with pc := .leaving ticket ending } :: outer
        left := Function.update t.left x.number
          (some (x.writer (t.pool.frames.get (c.slot ticket))).1) }
  | publish (inner outer : List (Call len n ε)) (x : Call len n ε) (ticket : UInt64)
      (ending : Ending ε) (here : t.Innermost inner outer x (.leaving ticket ending)) :
      Turn t { t with
        pool := { t.pool with ready := replaceAt t.pool.ready (c.slot ticket) true }
        calls := inner ++ outer
        answers := t.answers ++ [(x.thread, x.writer, .done ending)] }
  | ask (reader : Reader len ε) (idle : t.reading = none) :
      Turn t { t with reading := some { reader, pc := .start reader } }
  | locate (x : Reading len ε) (r : Reader len ε) (here : t.reading = some x)
      (pc : x.pc = .start r) :
      Turn t { t with reading := some { x with pc := .positioned r t.pool.tail } }
  | admitted (x : Reading len ε) (r : Reader len ε) (ticket : UInt64)
      (here : t.reading = some x) (pc : x.pc = .positioned r ticket)
      (set : t.pool.ready.get (c.slot ticket) = true) :
      Turn t { t with reading := some { x with pc := .inside r ticket } }
  | dismiss (x : Reading len ε) (r : Reader len ε) (ticket : UInt64)
      (here : t.reading = some x) (pc : x.pc = .positioned r ticket)
      (clear : t.pool.ready.get (c.slot ticket) = false) : Turn t { t with reading := none }
  | perceive (x : Reading len ε) (r : Reader len ε) (ticket : UInt64)
      (here : t.reading = some x) (pc : x.pc = .inside r ticket) :
      Turn t { t with
        reading := some { x with
          pc := .leaving ticket (r (t.pool.frames.get (c.slot ticket)))
          given := some (t.pool.frames.get (c.slot ticket)) } }
  | release (x : Reading len ε) (ticket : UInt64) (ending : Ending ε)
      (here : t.reading = some x) (pc : x.pc = .leaving ticket ending) :
      Turn t { t with
        pool := { t.pool with ready := replaceAt t.pool.ready (c.slot ticket) false }
        reading := some { x with pc := .cleared ticket ending } }
  | advance (x : Reading len ε) (ticket : UInt64) (ending : Ending ε)
      (here : t.reading = some x) (pc : x.pc = .cleared ticket ending) :
      Turn t { t with
        pool := { t.pool with tail := ticket + 1 }
        reading := some { x with pc := .advanced ending } }
  | leave (x : Reading len ε) (ending : Ending ε) (here : t.reading = some x)
      (pc : x.pc = .advanced ending) :
      Turn t { t with
        pool := { t.pool with count := t.pool.count - 1 }
        reading := none
        taken := t.taken ++ x.given.toList
        looks := t.looks ++ [(x.reader, ending)] }

variable {t t' : Traffic len c n ε} {inner outer : List (Call len n ε)} {x : Call len n ε}
  {p : Fin (n + 1)}

theorem innermost?_eq_some {calls : List (Call len n ε)}
    (h : innermost? calls p = some (inner, x, outer)) :
    calls = inner ++ x :: outer ∧ x.thread = p ∧ ∀ y ∈ inner, y.thread ≠ p := by
  rw [innermost?] at h
  split at h
  · cases h
  · rename_i z rest hdrop
    cases h
    refine ⟨?_, ?_, ?_⟩
    · rw [← hdrop, List.takeWhile_append_dropWhile]
    · have hhead := List.head?_dropWhile_not (fun y : Call len n ε => decide (y.thread ≠ p)) calls
      rw [hdrop] at hhead
      exact not_not.1 (of_decide_eq_false hhead)
    · intro y hy
      simpa using List.mem_takeWhile_imp hy

theorem innermost?_eq_none {calls : List (Call len n ε)} (h : innermost? calls p = none) :
    ∀ y ∈ calls, y.thread ≠ p := by
  rw [innermost?] at h
  split at h
  · rename_i hdrop
    intro y hy
    simpa using List.dropWhile_eq_nil_iff.1 hdrop y hy
  · cases h

section

variable {pc : Write len ε} {x' y : Call len n ε}

theorem Innermost.mem (here : t.Innermost inner outer x pc) : x ∈ t.calls := by
  rw [here.here]
  exact List.mem_append_right _ (.head _)

theorem Innermost.mem_comeBack (here : t.Innermost inner outer x pc) (h : y ∈ inner ++ outer) :
    y ∈ t.calls := by
  rw [here.here]
  exact List.perm_middle.mem_iff.2 (.tail _ h)

theorem Innermost.mem_goOn (here : t.Innermost inner outer x pc)
    (h : y ∈ inner ++ x' :: outer) : y = x' ∨ y ∈ t.calls :=
  (List.mem_cons.1 (List.perm_middle.mem_iff.1 h)).imp_right here.mem_comeBack

end

theorem turn_of_push (h : t.fire (.push p) = some t') : Turn t t' := by
  simp only [fire] at h
  split at h
  · cases h
  · rename_i inner x outer hx
    obtain ⟨here, rfl, first⟩ := innermost?_eq_some hx
    cases hpc : x.pc with
    | start w =>
      by_cases hfull : t.pool.count.toNat ≥ c.size
      · simp only [hpc, Write.step, hfull, ↓reduceIte, goOn, Option.some.injEq] at h
        exact h ▸ .refuse inner outer x w ⟨here, hpc, first⟩ hfull
      · simp only [hpc, Write.step, hfull, ↓reduceIte, goOn, Option.some.injEq] at h
        exact h ▸ .reserve inner outer x w ⟨here, hpc, first⟩ (Nat.lt_of_not_le hfull)
    | refused w =>
      simp only [hpc, Write.step, Option.some.injEq] at h
      exact h ▸ .reject inner outer x w ⟨here, hpc, first⟩
    | reserved w =>
      simp only [hpc, Write.step, goOn, Option.some.injEq] at h
      exact h ▸ .draw inner outer x w ⟨here, hpc, first⟩
    | ticketed w ticket =>
      cases hset : t.pool.ready.get (c.slot ticket) with
      | true =>
        simp only [hpc, Write.step, hset, ↓reduceIte, Option.some.injEq] at h
        exact h ▸ .clash inner outer x w ticket ⟨here, hpc, first⟩ hset
      | false =>
        simp only [hpc, Write.step, hset, Bool.false_eq_true, ↓reduceIte, goOn,
          Option.some.injEq] at h
        exact h ▸ .enter inner outer x w ticket ⟨here, hpc, first⟩ hset
    | inside w ticket =>
      rcases hcode : w (t.pool.frames.get (c.slot ticket)) with ⟨frame, ending⟩
      simp only [hpc, Write.step, hcode, goOn, Option.some.injEq] at h
      exact h ▸ .finish inner outer x w ticket frame ending ⟨here, hpc, first⟩ hcode
    | leaving ticket ending =>
      simp only [hpc, Write.step, Option.some.injEq] at h
      exact h ▸ .publish inner outer x ticket ending ⟨here, hpc, first⟩

theorem turn_of_touch {frame : Frame len} (h : t.fire (.touch p frame) = some t') :
    Turn t t' := by
  simp only [fire] at h
  split at h
  · cases h
  · rename_i inner x outer hx
    obtain ⟨here, rfl, first⟩ := innermost?_eq_some hx
    split at h
    · rename_i w ticket hpc
      cases h
      exact .touch inner outer x w ticket frame ⟨here, hpc, first⟩
    · cases h

theorem turn_of_pull (h : t.fire .pull = some t') : Turn t t' := by
  simp only [fire] at h
  split at h
  · rename_i x here _
    cases hpc : x.pc with
    | start r =>
      simp only [hpc, Read.step, readOn, Option.some.injEq] at h
      exact h ▸ .locate x r here hpc
    | positioned r ticket =>
      cases hset : t.pool.ready.get (c.slot ticket) with
      | true =>
        simp only [hpc, Read.step, hset, ↓reduceIte, readOn, Option.some.injEq] at h
        exact h ▸ .admitted x r ticket here hpc hset
      | false =>
        simp only [hpc, Read.step, hset, Bool.false_eq_true, ↓reduceIte, Option.some.injEq] at h
        exact h ▸ .dismiss x r ticket here hpc hset
    | inside r ticket =>
      simp only [hpc, Read.step, readOn, Option.some.injEq] at h
      exact h ▸ .perceive x r ticket here hpc
    | leaving ticket ending =>
      simp only [hpc, Read.step, readOn, Option.some.injEq] at h
      exact h ▸ .release x ticket ending here hpc
    | cleared ticket ending =>
      simp only [hpc, Read.step, readOn, Option.some.injEq] at h
      exact h ▸ .advance x ticket ending here hpc
    | advanced ending =>
      simp only [hpc, Read.step, Option.some.injEq] at h
      exact h ▸ .leave x ending here hpc
  · cases h

theorem turn_of_fire {m : Move len n ε} (h : t.fire m = some t') : Turn t t' := by
  cases m with
  | offer p writer =>
    simp only [fire] at h
    split at h
    · rename_i hfree
      cases h
      exact .offer p writer hfree
    · cases h
  | push p => exact turn_of_push h
  | touch p frame => exact turn_of_touch h
  | ask reader =>
    simp only [fire] at h
    split at h
    · rename_i hidle
      cases h
      exact .ask reader (Option.isNone_iff_eq_none.1 (Bool.and_eq_true_iff.1 hidle).1)
    · cases h
  | pull => exact turn_of_pull h

/-- A call goes on with the code that was passed to it, and so does its ticket. -/
structure Carries (t : Traffic len c n ε) : Prop where
  calls : ∀ x ∈ t.calls, ∀ w, x.pc.writer? = some w → w = x.writer
  undrawn : ∀ k, t.drawn ≤ k → t.codes k = none

theorem Carries.goOn {pc : Write len ε} {x' : Call len n ε} (h : Carries t)
    (here : t.Innermost inner outer x pc) (hpc : ∀ w, x'.pc.writer? = some w → pc.writer? = some w)
    (hwriter : x'.writer = x.writer) :
    ∀ y ∈ inner ++ x' :: outer, ∀ w, y.pc.writer? = some w → w = y.writer := by
  intro y hy w hw
  rcases here.mem_goOn hy with rfl | hy
  · rw [hwriter]
    exact h.calls x here.mem w (here.pc ▸ hpc w hw)
  · exact h.calls y hy w hw

theorem carries_turn (h : Carries t) (turn : Turn t t') : Carries t' := by
  cases turn with
  | offer p writer free =>
    refine ⟨fun y hy w hw => ?_, h.undrawn⟩
    rcases List.mem_cons.1 hy with rfl | hy
    · exact (Option.some.inj hw).symm
    · exact h.calls y hy w hw
  | refuse inner outer x w here | reserve inner outer x w here
  | enter inner outer x w ticket here =>
    exact ⟨h.goOn here (fun _ => id) rfl, h.undrawn⟩
  | draw inner outer x w here =>
    refine ⟨h.goOn here (fun _ => id) rfl, fun k hk => ?_⟩
    exact (Function.update_of_ne (Nat.ne_of_gt hk) ..).trans (h.undrawn k (Nat.le_of_succ_le hk))
  | finish inner outer x w ticket frame ending here =>
    exact ⟨h.goOn here nofun rfl, h.undrawn⟩
  | reject inner outer x w here | clash inner outer x w ticket here
  | publish inner outer x ticket ending here =>
    exact ⟨fun y hy => h.calls y (here.mem_comeBack hy), h.undrawn⟩
  | touch | ask | locate | admitted | dismiss | perceive | release | advance | leave =>
    exact ⟨h.calls, h.undrawn⟩

end Traffic

end Cadence.FramePool
