import Cadence.Proofs.Lock.Holding

/-!
Calls for the lock that wait for a time and no longer. Such a call comes by its deadline in one step,
which reckons it, and keeps it whatever ends its sleeps; it comes back in a step of its own, and only
then may it have the lock.
-/

namespace Cadence

namespace Attempt

variable {w w' : LockWord} {now timeout : Nat} {a b : Attempt} {v : Verdict}

/-- An attempt has its deadline from the step that reckons it. -/
theorem Turn.deadline_of_inl (h : Turn w now a w' (.inl b)) (hb : b.patience = .within timeout) :
    a.patience = .within timeout ∧
      (a.stage = .reckon ∧ b.deadline = Clock.deadline? now timeout ∨
        a.stage ≠ .reckon ∧ b.deadline = a.deadline) := by
  cases h with
  | reckon timeout' here within =>
    cases within.symm.trans hb
    exact ⟨within, .inl ⟨here, rfl⟩⟩
  | skip here endless => exact absurd hb (endless timeout)
  | persist here | allow _ here | mark here | stay here | enroll here | sleep here | miss here
  | retry _ here => exact ⟨hb, .inr ⟨by rw [here]; nofun, rfl⟩⟩

theorem Turn.stage_of_inr (h : Turn w now a w' (.inr v)) : a.stage ≠ .reckon := by
  cases h with
  | take here | refuse here | seize here | expire _ here | giveUp _ _ here =>
    rw [here]
    nofun

end Attempt

/-- The longest that a call under way for the lock may take, if it may not take forever. -/
def Party.timeout? (p : Party) : Option Nat :=
  match p.doing with
  | .acquiring a =>
    match a.patience with
    | .within timeout => some timeout
    | _ => none
  | _ => none

theorem Party.acquiring_of_timeout? {p : Party} {timeout : Nat} (h : p.timeout? = some timeout) :
    ∃ a, p.doing = .acquiring a ∧ a.patience = .within timeout := by
  rw [timeout?] at h
  split at h
  · split at h
    · cases h
      exact ⟨_, ‹_›, ‹_›⟩
    · cases h
  · cases h

namespace SharedLock

variable {n : Nat} {c c' : SharedLock n} {m : Move n} {i : Fin n} {a b : Attempt} {timeout : Nat}

theorem party_congr (h : c'.parties = c.parties) (i : Fin n) : c'.party i = c.party i := by
  unfold party
  rw [h]

theorem clock_le_of_turn (turn : Turn c m c') : c.clock ≤ c'.clock := by
  cases turn with
  | pass time => exact Nat.le_add_right _ _
  | _ => exact Nat.le_refl _

/-- How an attempt that waits for a time comes by its deadline, or by none. -/
inductive Tries (c : SharedLock n) (m : Move n) (i : Fin n) (timeout : Nat) : Option Nat → Prop
  | called (here : m = .call i (.within timeout)) : Tries c m i timeout none
  | reckoned (a : Attempt) (here : m = .step i) (doing : (c.party i).doing = .acquiring a)
      (stage : a.stage = .reckon) (within : a.patience = .within timeout) :
      Tries c m i timeout (Clock.deadline? c.clock timeout)
  | goesOn (a : Attempt) (doing : (c.party i).doing = .acquiring a)
      (within : a.patience = .within timeout) (uncalled : ∀ patience, m ≠ .call i patience)
      (past : m = .step i → a.stage ≠ .reckon) : Tries c m i timeout a.deadline

theorem doing_set_elim {i j : Fin n} {p : Party} {d : Doing}
    (h : ((c.set i p).party j).doing = d) :
    (j = i ∧ p.doing = d) ∨ (j ≠ i ∧ (c.party j).doing = d) := by
  by_cases hj : j = i
  · rw [hj, party_set_self] at h
    exact .inl ⟨hj, h⟩
  · rw [party_set_of_ne c p hj] at h
    exact .inr ⟨hj, h⟩

theorem tries_of_turn (turn : Turn c m c') (h : (c'.party i).doing = .acquiring b)
    (hb : b.patience = .within timeout) : Tries c m i timeout b.deadline := by
  have hstay : (c.party i).doing = .acquiring b → (∀ patience, m ≠ .call i patience) →
      m ≠ .step i → Tries c m i timeout b.deadline := fun doing uncalled unstepped =>
    .goesOn b doing hb uncalled fun h => absurd h unstepped
  have hstep {j : Fin n} (hj : i ≠ j) : (Move.step j : Move n) ≠ .step i := fun h =>
    hj (Move.step.inj h).symm
  cases turn with
  | call j patience idle =>
    rcases doing_set_elim h with ⟨rfl, h⟩ | ⟨hj, h⟩
    · cases h
      exact .called (congrArg (Move.call i) hb)
    · refine hstay h ?_ nofun
      rintro _ ⟨⟩
      exact hj rfl
  | goOn j a b' w here turn =>
    rcases doing_set_elim h with ⟨rfl, h⟩ | ⟨hj, h⟩
    · cases h
      obtain ⟨within, ⟨stage, hdue⟩ | ⟨stage, hdue⟩⟩ := turn.deadline_of_inl hb
      · rw [hdue]
        exact .reckoned a rfl here stage within
      · rw [hdue]
        exact .goesOn a here within nofun fun _ => stage
    · exact hstay h nofun (hstep hj)
  | comeBack j =>
    rcases doing_set_elim h with ⟨rfl, h⟩ | ⟨hj, h⟩
    · cases h
    · exact hstay h nofun (hstep hj)
  | free j =>
    rcases doing_set_elim h with ⟨rfl, h⟩ | ⟨hj, h⟩
    · dsimp only at h
      split at h <;> cases h
    · exact hstay h nofun (hstep hj)
  | release j idle | wakeNobody j here =>
    rcases doing_set_elim h with ⟨rfl, h⟩ | ⟨hj, h⟩
    · cases h
    · exact hstay h nofun nofun
  | rouse j a cause here =>
    rcases doing_set_elim h with ⟨rfl, h⟩ | ⟨hj, h⟩
    · cases h
      exact .goesOn a here hb nofun nofun
    · exact hstay h nofun nofun
  | wake j k a here there asleep =>
    rcases doing_set_elim h with ⟨rfl, h⟩ | ⟨hk, h⟩
    · cases h
      exact .goesOn a there hb nofun nofun
    rcases doing_set_elim h with ⟨rfl, h⟩ | ⟨hj, h⟩
    · cases h
    · exact hstay h nofun nofun
  | load j idle | store j value idle =>
    rcases doing_set_elim h with ⟨rfl, h⟩ | ⟨hj, h⟩
    · cases idle.symm.trans h
    · exact hstay h nofun nofun
  | pass => exact hstay h nofun nofun

theorem Tries.of_ne {due : Option Nat} (h : Tries c m i timeout due)
    (uncalled : m ≠ .call i (.within timeout)) (unstepped : m ≠ .step i) :
    ∃ a, (c.party i).doing = .acquiring a ∧ a.patience = .within timeout ∧ a.deadline = due := by
  cases h with
  | called here => exact absurd here uncalled
  | reckoned a here => exact absurd here unstepped
  | goesOn a doing within => exact ⟨a, doing, within, rfl⟩

theorem holds_set {j : Fin n} {p : Party} (h : p.holds = (c.party j).holds) :
    ((c.set j p).party i).holds = (c.party i).holds := by
  by_cases hi : i = j
  · rw [hi, party_set_self, h]
  · rw [party_set_of_ne c p hi]

/-- Nobody comes by the lock or loses it in the middle of an attempt. -/
theorem holds_of_acquiring (turn : Turn c m c') (h : (c'.party i).doing = .acquiring b) :
    (c'.party i).holds = (c.party i).holds := by
  cases turn with
  | call | release | wakeNobody | rouse | load => exact holds_set rfl
  | goOn j a b' w => exact holds_set (c := { c with word := w }) rfl
  | store j value => exact holds_set (c := { c with value }) rfl
  | wake j k a here there =>
    refine (holds_set ?_).trans (holds_set rfl)
    rw [party_set_of_ne _ _ (ne_of_waking here there)]
  | comeBack j =>
    rcases doing_set_elim h with ⟨-, h⟩ | ⟨hj, -⟩
    · cases h
    · rw [party_set_of_ne _ _ hj]
      rfl
  | free j =>
    rcases doing_set_elim h with ⟨-, h⟩ | ⟨hj, -⟩
    · dsimp only at h
      split at h <;> cases h
    · rw [party_set_of_ne _ _ hj]
      rfl
  | pass => rfl

/-- An attempt ends in a step of its own. -/
theorem comeBack_of_turn (turn : Turn c m c') (ha : (c.party i).doing = .acquiring a)
    (h : (c'.party i).doing = .idle) : m = .step i ∧ ∃ v w,
      a.Turn c.word c.clock w (.inr v) ∧ (c'.party i).verdict = some v ∧
        (c'.party i).holds = ((c.party i).holds || v = Verdict.acquired) := by
  have hstay : (c.party i).doing ≠ .idle := by
    rw [ha]
    nofun
  cases turn with
  | comeBack j a' v w here turn =>
    by_cases hj : i = j
    · subst hj
      cases ha.symm.trans here
      rw [party_set_self]
      exact ⟨rfl, v, w, turn, rfl, rfl⟩
    · rw [party_set_of_ne _ _ hj] at h
      exact absurd h hstay
  | pass => exact absurd h hstay
  | call j | goOn j | rouse j =>
    rcases doing_set_elim h with ⟨-, h⟩ | ⟨-, h⟩
    · cases h
    · exact absurd h hstay
  | release j idle | load j idle | store j value idle =>
    rcases doing_set_elim h with ⟨rfl, -⟩ | ⟨-, h⟩
    · exact absurd idle hstay
    · exact absurd h hstay
  | free j here | wakeNobody j here =>
    rcases doing_set_elim h with ⟨rfl, -⟩ | ⟨-, h⟩
    · cases ha.symm.trans here
    · exact absurd h hstay
  | wake j k a' here =>
    rcases doing_set_elim h with ⟨-, h⟩ | ⟨-, h⟩
    · cases h
    rcases doing_set_elim h with ⟨rfl, -⟩ | ⟨-, h⟩
    · cases ha.symm.trans here
    · exact absurd h hstay

/-- The lock is taken, by this party and by no other. -/
structure Owns (c : SharedLock n) (i : Fin n) : Prop where
  isLocked : c.word.isLocked = true
  holds : (c.party i).holds = true
  alone : ∀ j, (c.party j).holds = true → j = i

theorem Exclusive.owns (h : c.Exclusive) (hi : (c.party i).holds = true) : c.Owns i := by
  obtain ⟨hstate, halone⟩ := h.state_of_holds hi
  refine ⟨?_, hi, halone⟩
  rw [LockWord.isLocked, bne_iff_ne]
  rcases hstate with hstate | hstate <;> rw [hstate] <;> decide

end SharedLock

end Cadence
