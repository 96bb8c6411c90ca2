import Cadence.Proofs.Signal.Waiters

/-!
How a wait comes by the generation that it compares, and how it falls asleep on it. A wait notes the
generation while it has the lock, so the value it has checked cannot change before.
-/

namespace Cadence

/-- What a member that has noted a generation waits by, and that generation. -/
def Member.noting? (m : Member) : Option (Wait × UInt32) :=
  match m.role with
  | .waiting w _ _ (.enroll generation) | .waiting w _ _ (.parting generation)
  | .waiting w _ _ (.doze generation) | .waiting w _ _ (.asleep generation) =>
    some (w, generation)
  | _ => none

/-- What a member that has yet to note the generation, but is done checking, waits by. -/
def Member.checked? (m : Member) : Option Wait :=
  match m.role with
  | .waiting w _ _ .look | .waiting w _ _ .note => some w
  | _ => none

namespace SharedSignal

variable {n : Nat} {g g' : SharedSignal n} {move : Move n}

theorem member_set_elim {P : Member → Prop} {i j : Fin n} {m : Member}
    (h : P ((g.set i m).member j)) : (j = i ∧ P m) ∨ (j ≠ i ∧ P (g.member j)) := by
  by_cases hj : j = i
  · rw [hj, member_set_self] at h
    exact .inl ⟨hj, h⟩
  · rw [member_set_of_ne g m hj] at h
    exact .inr ⟨hj, h⟩

theorem noting?_rouse {m : Member} {cause : Rousing} {x : Wait × UInt32}
    (h : (m.rouse cause).noting? = some x) : m.noting? = some x := by
  rw [Member.rouse] at h
  split at h
  · cases h
  · exact h

/-- Whoever has noted a generation had noted it before, or notes it now. -/
theorem noting?_of_turn (turn : Turn g move g') {j : Fin n} {w : Wait} {generation : UInt32}
    (h : (g'.member j).noting? = some (w, generation)) :
    (g.member j).noting? = some (w, generation) ∨ ∃ deadline checks, move = .step j ∧
      (g.member j).role = .waiting w deadline checks .note ∧ generation = g.signal.generation ∧
        g'.contest = g.contest := by
  cases turn with
  | lock => exact .inl h
  | wait i w' =>
    rcases member_set_elim (P := fun m => m.noting? = _) h with ⟨-, h⟩ | ⟨-, h⟩
    · obtain he | he | he := entry_cases w' <;> rw [he] at h <;> cases h
    · exact .inl h
  | goOn i w' deadline checks condition =>
    rcases member_set_elim (P := fun m => m.noting? = _) h with ⟨-, h⟩ | ⟨-, h⟩
    · obtain ho | ho := onward_cases w' <;> rw [ho] at h <;> cases h
    · exact .inl h
  | notify i | reckon i | skip i | expire i | stay i | miss i | recheck i | comeBack i | rest i
  | heed i | wakeNobody i | rouse i | leave i | finish i | advance i =>
    rcases member_set_elim (P := fun m => m.noting? = _) h with ⟨-, h⟩ | ⟨-, h⟩
    · cases h
    · exact .inl h
  | note i w' deadline checks here =>
    rcases member_set_elim (P := fun m => m.noting? = _) h with ⟨rfl, h⟩ | ⟨-, h⟩
    · cases h
      exact .inr ⟨deadline, checks, rfl, here, rfl, rfl⟩
    · exact .inl h
  | enroll i w' deadline checks generation' c here | part i w' deadline checks generation' here
  | sleep i w' deadline checks generation' here =>
    rcases member_set_elim (P := fun m => m.noting? = _) h with ⟨rfl, h⟩ | ⟨-, h⟩
    · rw [Member.noting?, here]
      exact .inl h
    · exact .inl h
  | wakeOne i k =>
    rcases member_set_elim (P := fun m => m.noting? = _) h with ⟨-, h⟩ | ⟨-, h⟩
    · cases h
    rcases member_set_elim (P := fun m => m.noting? = _) h with ⟨-, h⟩ | ⟨-, h⟩
    · cases h
    · exact .inl h
  | wakeAll i =>
    have h := member_rouseAll_elim (P := fun m => m.noting? = _) h fun _ => noting?_rouse
    rcases member_set_elim (P := fun m => m.noting? = _) h with ⟨-, h⟩ | ⟨-, h⟩
    · cases h
    · exact .inl h

theorem isAsleep_rouse (m : Member) (cause : Rousing) : (m.rouse cause).isAsleep = false := by
  cases h : m.isAsleep with
  | true =>
    obtain ⟨w, deadline, checks, generation, hrole⟩ := asleep_of_isAsleep h
    rw [rouse_of_asleep hrole]
    rfl
  | false =>
    rw [Member.rouse]
    split
    · rfl
    · exact h

/-- Whoever is asleep was so before, or finds the generation it has noted. -/
theorem isAsleep_of_turn (turn : Turn g move g') {j : Fin n}
    (h : (g'.member j).isAsleep = true) :
    (g.member j).isAsleep = true ∨ ∃ w deadline checks, move = .step j ∧
      (g.member j).role = .waiting w deadline checks (.doze g.signal.generation) := by
  cases turn with
  | lock => exact .inl h
  | wait i w' =>
    rcases member_set_elim (P := fun m => m.isAsleep = _) h with ⟨-, h⟩ | ⟨-, h⟩
    · obtain he | he | he := entry_cases w' <;> rw [he] at h <;> cases h
    · exact .inl h
  | goOn i w' deadline checks condition =>
    rcases member_set_elim (P := fun m => m.isAsleep = _) h with ⟨-, h⟩ | ⟨-, h⟩
    · obtain ho | ho := onward_cases w' <;> rw [ho] at h <;> cases h
    · exact .inl h
  | notify i | reckon i | skip i | expire i | stay i | note i | enroll i | part i | miss i
  | recheck i | comeBack i | rest i | heed i | wakeNobody i | rouse i | leave i | finish i
  | advance i =>
    rcases member_set_elim (P := fun m => m.isAsleep = _) h with ⟨-, h⟩ | ⟨-, h⟩
    · cases h
    · exact .inl h
  | sleep i w' deadline checks generation here same =>
    rcases member_set_elim (P := fun m => m.isAsleep = _) h with ⟨rfl, -⟩ | ⟨-, h⟩
    · exact .inr ⟨w', deadline, checks, rfl, same ▸ here⟩
    · exact .inl h
  | wakeOne i k =>
    rcases member_set_elim (P := fun m => m.isAsleep = _) h with ⟨-, h⟩ | ⟨-, h⟩
    · cases h
    rcases member_set_elim (P := fun m => m.isAsleep = _) h with ⟨-, h⟩ | ⟨-, h⟩
    · cases h
    · exact .inl h
  | wakeAll i =>
    have h := member_rouseAll_elim (P := fun m => m.isAsleep = _) h fun m hm => by
      rw [isAsleep_rouse] at hm
      cases hm
    rcases member_set_elim (P := fun m => m.isAsleep = _) h with ⟨-, h⟩ | ⟨-, h⟩
    · cases h
    · exact .inl h

theorem isRegistered_of_isAsleep {m : Member} (h : m.isAsleep = true) : m.isRegistered = true := by
  obtain ⟨w, deadline, checks, generation, hrole⟩ := asleep_of_isAsleep h
  rw [Member.isRegistered, hrole]
  rfl

theorem role_of_checked? {m : Member} {w : Wait} (h : m.checked? = some w) :
    ∃ deadline checks stage, m.role = .waiting w deadline checks stage ∧
      (stage = .look ∨ stage = .note) := by
  rw [Member.checked?] at h
  split at h
  · cases h
    exact ⟨_, _, _, ‹_›, .inl rfl⟩
  · cases h
    exact ⟨_, _, _, ‹_›, .inr rfl⟩
  · cases h

theorem Housed.holds_of_checked? (h : g.Housed) {i : Fin n} {w : Wait}
    (hi : (g.member i).checked? = some w) : (g.contest.party i).holds = true := by
  obtain ⟨deadline, checks, stage, hrole, rfl | rfl⟩ := role_of_checked? hi
  · exact (h.suits i _ _ _ _ hrole).2
  · exact (h.suits i _ _ _ _ hrole).2

theorem Housed.eq_of_holds (h : g.Housed) {i j : Fin n}
    (hi : (g.contest.party i).holds = true) (hj : (g.contest.party j).holds = true) : i = j :=
  (h.exclusive.state_of_holds hj).2 i hi

/-- Once a member has checked its condition, the value stays the same until it has noted the
generation. -/
theorem value_of_turn (h : g.Housed) (turn : Turn g move g') {j : Fin n} {w : Wait}
    (hj : (g.member j).checked? = some w) : g'.contest.value = g.contest.value := by
  have hholds := h.holds_of_checked? hj
  cases turn with
  | lock move c allowed turn =>
    rcases SharedLock.value_of_turn turn with hvalue | ⟨k, value, rfl, -⟩
    · exact hvalue
    cases turn with
    | store k value idle holds =>
      -- whoever stores holds the lock, as `j` does, but `j` is in its wait
      obtain rfl := h.eq_of_holds holds hholds
      rw [Member.checked?, free_of_isFree allowed] at hj
      cases hj
  | goOn i w' deadline checks condition here | finish i w' deadline checks condition here =>
    have hi : _ ∧ _ := h.suits i _ _ _ _ here
    obtain rfl := h.eq_of_holds hi.2 hholds
    rw [Member.checked?, here] at hj
    cases hj
  | enroll i w' deadline checks generation c here turn =>
    exact (SharedLock.value_of_turn turn).resolve_right nofun
  | leave i w' deadline checks cause c here turn =>
    exact (SharedLock.value_of_turn turn).resolve_right nofun
  | _ => rfl

theorem checked?_rouse {m : Member} {cause : Rousing} {w : Wait}
    (h : (m.rouse cause).checked? = some w) : m.checked? = some w := by
  rw [Member.rouse] at h
  split at h
  · cases h
  · exact h

/-- Whoever is done checking a condition was so before, or is told to go on by its check. -/
theorem checked?_of_turn (turn : Turn g move g') {j : Fin n} {w : Wait}
    {condition : UInt64 → Bool × UInt64} (hw : w.condition = some condition)
    (h : (g'.member j).checked? = some w) :
    (g.member j).checked? = some w ∨ ∃ deadline checks, move = .step j ∧
      (g.member j).role = .waiting w deadline checks .check ∧
        (condition g.contest.value).1 = true := by
  cases turn with
  | lock => exact .inl h
  | wait i w' =>
    rcases member_set_elim (P := fun m => m.checked? = _) h with ⟨-, h⟩ | ⟨-, h⟩
    · obtain ⟨deadline, checks, stage, hrole, hstage⟩ := role_of_checked? h
      cases hrole
      rcases entry_of_condition (w := w) (by rw [hw]; rfl) with he | he <;> rw [he] at hstage <;>
        exact absurd hstage (by decide)
    · exact .inl h
  | skip i w' deadline checks here hnone =>
    rcases member_set_elim (P := fun m => m.checked? = _) h with ⟨-, h⟩ | ⟨-, h⟩
    · cases h
      cases hnone.symm.trans hw
    · exact .inl h
  | goOn i w' deadline checks condition' here hsome still =>
    rcases member_set_elim (P := fun m => m.checked? = _) h with ⟨rfl, h⟩ | ⟨-, h⟩
    · obtain ⟨_, _, _, hrole, -⟩ := role_of_checked? h
      cases hrole
      cases hsome.symm.trans hw
      exact .inr ⟨deadline, checks, rfl, here, still⟩
    · exact .inl h
  | stay i w' deadline checks here =>
    rcases member_set_elim (P := fun m => m.checked? = _) h with ⟨rfl, h⟩ | ⟨-, h⟩
    · rw [Member.checked?, here]
      exact .inl h
    · exact .inl h
  | notify i | reckon i | expire i | note i | enroll i | part i | sleep i | miss i | recheck i
  | comeBack i | rest i | heed i | wakeNobody i | rouse i | leave i | finish i | advance i =>
    rcases member_set_elim (P := fun m => m.checked? = _) h with ⟨-, h⟩ | ⟨-, h⟩
    · cases h
    · exact .inl h
  | wakeOne i k =>
    rcases member_set_elim (P := fun m => m.checked? = _) h with ⟨-, h⟩ | ⟨-, h⟩
    · cases h
    rcases member_set_elim (P := fun m => m.checked? = _) h with ⟨-, h⟩ | ⟨-, h⟩
    · cases h
    · exact .inl h
  | wakeAll i =>
    have h := member_rouseAll_elim (P := fun m => m.checked? = _) h fun _ => checked?_rouse
    rcases member_set_elim (P := fun m => m.checked? = _) h with ⟨-, h⟩ | ⟨-, h⟩
    · cases h
    · exact .inl h

end SharedSignal

end Cadence
