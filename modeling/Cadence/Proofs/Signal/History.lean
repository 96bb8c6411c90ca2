import Cadence.Proofs.Signal.Notifying

/-!
What has happened around a signal so far, written down beside it without touching it: how often the
generation was moved on, how far it was when each party noted it and compared it, which
notifications of all are back, and when a change ended the condition that somebody waits by. The word
wraps and these numbers do not, so they can say what came before what.
-/

namespace Cadence

namespace SharedSignal

variable {n : Nat}

inductive Event (n : Nat) where
  | check (i : Fin n)
  | note (i : Fin n)
  | compare (i : Fin n)
  | advance (i : Fin n)
  deriving DecidableEq

def event? (g : SharedSignal n) : Move n → Option (Event n)
  | .step i =>
    match (g.member i).role with
    | .waiting _ _ _ .check => some (.check i)
    | .waiting _ _ _ .note => some (.note i)
    | .waiting _ _ _ (.doze _) => some (.compare i)
    | .notifying _ .advance => some (.advance i)
    | _ => none
  | _ => none

end SharedSignal

structure SignalHistory (n : Nat) where
  shared : SharedSignal n
  advances : Nat := 0
  /-- How many advances there had been when a party last checked its condition. -/
  checked : Fin n → Nat := fun _ => 0
  /-- How many there had been when it last noted the generation. -/
  noted : Fin n → Nat := fun _ => 0
  /-- How many there had been when it last compared it. -/
  compared : Fin n → Nat := fun _ => 0
  /-- The number of the advance that a party made last. -/
  number : Fin n → Nat := fun _ => 0
  /-- The numbers of the advances of the notifications of all that are back. -/
  answered : List Nat := []
  /-- How many advances there had been at each change that ended the condition. -/
  ended : List Nat := []
  /-- Whether it was ended by what a party checked last. -/
  endedBy : Fin n → Bool := fun _ => false

namespace SignalHistory

variable {n : Nat}

def start (n : Nat) (value : UInt64) (generation : UInt32) : SignalHistory n :=
  { shared := .start n value { generation } }

/-- What is written down once a move has led to `g`. The condition is over when `still` is false. -/
def record (still : UInt64 → Bool) (t : SignalHistory n) (move : SharedSignal.Move n)
    (g : SharedSignal n) : SignalHistory n :=
  let event := t.shared.event? move
  let back := (List.finRange n).filter (t.shared.isBack g)
  let ends := still t.shared.contest.value && !still g.contest.value
  { shared := g
    advances := match event with
      | some (.advance _) => t.advances + 1
      | _ => t.advances
    checked := fun i => if event = some (.check i) then t.advances else t.checked i
    noted := fun i => if event = some (.note i) then t.advances else t.noted i
    compared := fun i => if event = some (.compare i) then t.advances else t.compared i
    number := fun i => if event = some (.advance i) then t.advances + 1 else t.number i
    answered := t.answered ++ back.map t.number
    ended := if ends then t.ended ++ [t.advances] else t.ended
    endedBy := fun i => if event = some (.check i) then ends else t.endedBy i }

def fire (still : UInt64 → Bool) (t : SignalHistory n) (move : SharedSignal.Move n) :
    Option (SignalHistory n) := (t.shared.fire move).map (t.record still move)

def run (still : UInt64 → Bool) (t : SignalHistory n) (moves : List (SharedSignal.Move n)) :
    Option (SignalHistory n) := moves.foldlM (fire still) t

end SignalHistory

namespace SharedSignal

variable {n : Nat} {g g' : SharedSignal n} {move : Move n} {i : Fin n}

/-- What has to be the case for something to be worth writing down. -/
def Occurs (g : SharedSignal n) (move : Move n) : Event n → Prop
  | .check i => move = .step i ∧
      ∃ w deadline checks, (g.member i).role = .waiting w deadline checks .check
  | .note i => move = .step i ∧
      ∃ w deadline checks, (g.member i).role = .waiting w deadline checks .note
  | .compare i => move = .step i ∧ ∃ w deadline checks generation,
      (g.member i).role = .waiting w deadline checks (.doze generation)
  | .advance i => move = .step i ∧ ∃ all, (g.member i).role = .notifying all .advance

theorem occurs_of_event? {event : Event n} (h : g.event? move = some event) :
    g.Occurs move event := by
  cases move with
  | step i =>
    rw [event?] at h
    split at h
    · cases h
      exact ⟨rfl, _, _, _, ‹_›⟩
    · cases h
      exact ⟨rfl, _, _, _, ‹_›⟩
    · cases h
      exact ⟨rfl, _, _, _, _, ‹_›⟩
    · cases h
      exact ⟨rfl, _, ‹_›⟩
    · cases h
  | _ => cases h

theorem event?_of_check {w : Wait} {deadline : Option Nat} {checks : Nat}
    (h : (g.member i).role = .waiting w deadline checks .check) :
    g.event? (.step i) = some (.check i) := by rw [event?, h]

theorem event?_of_note {w : Wait} {deadline : Option Nat} {checks : Nat}
    (h : (g.member i).role = .waiting w deadline checks .note) :
    g.event? (.step i) = some (.note i) := by rw [event?, h]

theorem event?_of_doze {w : Wait} {deadline : Option Nat} {checks : Nat} {generation : UInt32}
    (h : (g.member i).role = .waiting w deadline checks (.doze generation)) :
    g.event? (.step i) = some (.compare i) := by rw [event?, h]

theorem event?_of_advance {all : Bool} (h : (g.member i).role = .notifying all .advance) :
    g.event? (.step i) = some (.advance i) := by rw [event?, h]

/-- The generation moves on with the advances and with nothing else. -/
theorem generation_of_turn (turn : Turn g move g') :
    (∃ i, g.event? move = some (.advance i)) ∧
        g'.signal.generation = g.signal.generation + 1 ∨
      (∀ i, g.event? move ≠ some (.advance i)) ∧
        g'.signal.generation = g.signal.generation := by
  cases turn with
  | advance i all here => exact .inl ⟨⟨i, event?_of_advance here⟩, rfl⟩
  | lock | wait | notify | wakeOne | wakeNobody | wakeAll | rouse => exact .inr ⟨nofun, rfl⟩
  | reckon i w deadline checks here | skip i w deadline checks here
  | goOn i w deadline checks condition here | finish i w deadline checks condition here
  | expire i w deadline checks here | stay i w deadline checks here
  | note i w deadline checks here | enroll i w deadline checks generation c here
  | part i w deadline checks generation here | sleep i w deadline checks generation here
  | miss i w deadline checks generation here | leave i w deadline checks cause c here
  | recheck i w deadline checks timedOut here | comeBack i w deadline checks timedOut here
  | rest i all here | heed i all here =>
    refine .inr ⟨fun k hk => ?_, rfl⟩
    obtain ⟨⟨⟩, all', hrole⟩ := occurs_of_event? hk
    cases here.symm.trans hrole

end SharedSignal

namespace SignalHistory

variable {n : Nat} {t t' : SignalHistory n} {still : UInt64 → Bool} {move : SharedSignal.Move n}
  {g : SharedSignal n} {s : UInt32} {i : Fin n}

theorem fire_eq_some (h : t.fire still move = some t') :
    ∃ g, t.shared.Turn move g ∧ t' = t.record still move g := by
  obtain ⟨g, hg, h⟩ := Option.map_eq_some_iff.1 h
  exact ⟨g, SharedSignal.turn_of_fire hg, h.symm⟩

/-- Writing things down stops no move and allows none. -/
theorem map_shared_run (still : UInt64 → Bool) (t : SignalHistory n)
    (moves : List (SharedSignal.Move n)) :
    (t.run still moves).map (·.shared) = moves.foldlM SharedSignal.fire t.shared :=
  map_run (fun t move => by rw [fire]; cases t.shared.fire move <;> rfl) t moves

theorem advances_of_advance (h : t.shared.event? move = some (.advance i)) :
    (t.record still move g).advances = t.advances + 1 := by
  simp only [record, h]

theorem advances_of_ne (h : ∀ i, t.shared.event? move ≠ some (.advance i)) :
    (t.record still move g).advances = t.advances := by
  rw [record]
  dsimp only
  split
  · exact absurd ‹_› (h _)
  · rfl

theorem advances_le : t.advances ≤ (t.record still move g).advances := by
  rw [record]
  dsimp only
  split
  · exact Nat.le_succ _
  · exact Nat.le_refl _

theorem mem_answered {k : Nat} : k ∈ (t.record still move g).answered ↔
    k ∈ t.answered ∨ ∃ i, t.shared.isBack g i = true ∧ t.number i = k := by
  rw [record, List.mem_append, List.mem_map]
  simp only [List.mem_filter, List.mem_finRange, true_and]

theorem number_of_advance (h : t.shared.event? move = some (.advance i)) :
    (t.record still move g).number i = t.advances + 1 := if_pos h

theorem number_of_ne (h : t.shared.event? move ≠ some (.advance i)) :
    (t.record still move g).number i = t.number i := if_neg h

theorem checked_of_check (h : t.shared.event? move = some (.check i)) :
    (t.record still move g).checked i = t.advances := if_pos h

theorem checked_of_ne (h : t.shared.event? move ≠ some (.check i)) :
    (t.record still move g).checked i = t.checked i := if_neg h

theorem noted_of_note (h : t.shared.event? move = some (.note i)) :
    (t.record still move g).noted i = t.advances := if_pos h

theorem noted_of_ne (h : t.shared.event? move ≠ some (.note i)) :
    (t.record still move g).noted i = t.noted i := if_neg h

theorem compared_of_compare (h : t.shared.event? move = some (.compare i)) :
    (t.record still move g).compared i = t.advances := if_pos h

theorem compared_of_ne (h : t.shared.event? move ≠ some (.compare i)) :
    (t.record still move g).compared i = t.compared i := if_neg h

/-- The numbers written down are in their order, and agree with the words. -/
structure Timed (s : UInt32) (t : SignalHistory n) : Prop where
  generation : t.shared.signal.generation = s + .ofNat t.advances
  noted : ∀ i, t.noted i ≤ t.advances
  number : ∀ i, t.number i ≤ t.advances
  answered : ∀ k ∈ t.answered, k ≤ t.advances
  same : ∀ i w generation, (t.shared.member i).noting? = some (w, generation) →
    generation = s + .ofNat (t.noted i)

theorem timed_start (value : UInt64) (s : UInt32) : (start n value s).Timed s := by
  refine ⟨(UInt32.add_zero s).symm, fun _ => Nat.le_refl 0, fun _ => Nat.le_refl 0, nofun, ?_⟩
  intro i w generation h
  rw [start, SharedSignal.member_start] at h
  cases h

theorem event?_ne_note {x : Wait × UInt32} (h : (t.shared.member i).noting? = some x) :
    t.shared.event? move ≠ some (.note i) := by
  intro he
  obtain ⟨-, w, deadline, checks, hrole⟩ := SharedSignal.occurs_of_event? he
  rw [Member.noting?, hrole] at h
  cases h

theorem timed_record (h : t.Timed s) (turn : t.shared.Turn move g) :
    (t.record still move g).Timed s where
  generation := by
    rcases SharedSignal.generation_of_turn turn with ⟨⟨i, he⟩, hg⟩ | ⟨hne, hg⟩
    · rw [advances_of_advance he, UInt32.ofNat_add, ← UInt32.add_assoc, ← h.generation]
      exact hg
    · rw [advances_of_ne hne, ← h.generation]
      exact hg
  noted i := by
    by_cases he : t.shared.event? move = some (.note i)
    · rw [noted_of_note he]
      exact advances_le
    · rw [noted_of_ne he]
      exact Nat.le_trans (h.noted i) advances_le
  number i := by
    by_cases he : t.shared.event? move = some (.advance i)
    · rw [advances_of_advance he]
      exact Nat.le_of_eq (number_of_advance he)
    · rw [number_of_ne he]
      exact Nat.le_trans (h.number i) advances_le
  answered k hk := by
    rcases mem_answered.1 hk with hk | ⟨i, -, rfl⟩
    · exact Nat.le_trans (h.answered k hk) advances_le
    · exact Nat.le_trans (h.number i) advances_le
  same i w generation hi := by
    rcases SharedSignal.noting?_of_turn turn hi with hold | ⟨deadline, checks, rfl, hrole, rfl, -⟩
    · rw [noted_of_ne (event?_ne_note hold)]
      exact h.same i w generation hold
    · rw [noted_of_note (SharedSignal.event?_of_note hrole)]
      exact h.generation

end SignalHistory

end Cadence
