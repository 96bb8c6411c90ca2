import Cadence.Proofs.Lock.Holding
import Cadence.Proofs.Signal.Turns

/-!
Where the waiters are. A wait has the lock up to its parting, and asks for it again without ever
giving up, so that it has it whenever it checks its condition; in between it is counted in. Both are
read off the stage of the wait, and the second word of the signal is the count, modulo its size.
-/

namespace Cadence

namespace Attempt

def IsPatient (a : Attempt) : Prop := a.patience = .forever ∧ a.deadline = none

variable {w w' : LockWord} {now : Nat} {a b : Attempt} {v : Verdict}

theorem IsPatient.of_inl (h : a.IsPatient) (turn : Turn w now a w' (.inl b)) : b.IsPatient := by
  obtain ⟨hpatience, hdeadline⟩ := h
  cases turn with
  | reckon timeout here within => cases hpatience.symm.trans within
  | _ => exact ⟨hpatience, hdeadline⟩

theorem IsPatient.of_inr (h : a.IsPatient) (turn : Turn w now a w' (.inr v)) : v = .acquired := by
  obtain ⟨hpatience, hdeadline⟩ := h
  cases turn with
  | take | seize => rfl
  | refuse here taken once => cases hpatience.symm.trans once
  | expire deadline here due => cases hdeadline.symm.trans due
  | giveUp why timeout here within => cases hpatience.symm.trans within

end Attempt

/-- Has the lock, or is acquiring it and will not give up. -/
def Party.IsComing (p : Party) : Prop :=
  (p.doing = .idle ∧ p.holds = true) ∨ ∃ a, p.doing = .acquiring a ∧ a.IsPatient

theorem Party.IsComing.of_idle {p : Party} (h : p.IsComing) (idle : p.doing = .idle) :
    p.doing = .idle ∧ p.holds = true := by
  rcases h with h | ⟨a, ha, -⟩
  · exact h
  · cases idle.symm.trans ha

/-- What a stage of a wait asks of the party that waits. -/
def WaitStage.Suits : WaitStage → Party → Prop
  | .reckon, p | .check, p | .look, p | .note, p | .enroll _, p =>
    p.doing = .idle ∧ p.holds = true
  | .returning _, p => p.IsComing
  | _, _ => True

def Member.Suits (m : Member) (p : Party) : Prop :=
  ∀ w deadline checks stage, m.role = .waiting w deadline checks stage → stage.Suits p

def WaitStage.isRegistered : WaitStage → Bool
  | .parting _ | .doze _ | .asleep _ | .leave _ => true
  | _ => false

def Member.isRegistered (m : Member) : Bool :=
  match m.role with
  | .waiting _ _ _ stage => stage.isRegistered
  | _ => false

theorem Member.isRegistered_of_waiting {m : Member} {w : Wait} {deadline : Option Nat}
    {checks : Nat} {stage : WaitStage} (h : m.role = .waiting w deadline checks stage) :
    m.isRegistered = stage.isRegistered := by rw [isRegistered, h]

theorem Member.isRegistered_rouse (m : Member) (cause : Rousing) :
    (m.rouse cause).isRegistered = m.isRegistered := by
  rw [rouse]
  split
  · rw [isRegistered, isRegistered, ‹m.role = _›]
    rfl
  · rfl

namespace SharedLock

variable {n : Nat} {c c' : SharedLock n} {m : Move n} {i : Fin n}

theorem isComing_of_turn (turn : Turn c m c') (h : (c.party i).IsComing)
    (hm : m.isCallOf i = false) : (c'.party i).IsComing := by
  rcases h with ⟨idle, holds⟩ | ⟨a, ha, hpatient⟩
  · rw [party_of_turn_of_idle turn idle hm]
    exact .inl ⟨idle, holds⟩
  have hother : ∀ {d : SharedLock n} {j : Fin n} (p : Party), j ≠ i →
      (d.party i).doing = .acquiring a → ((d.set j p).party i).IsComing := fun p hj hd => by
    rw [party_set_of_ne _ _ (Ne.symm hj)]
    exact .inr ⟨a, hd, hpatient⟩
  cases turn with
  | call j patience idle | release j idle | load j idle =>
    refine hother _ ?_ ha
    rintro rfl
    cases ha.symm.trans idle
  | store j value idle =>
    refine hother (d := { c with value }) _ ?_ ha
    rintro rfl
    cases ha.symm.trans idle
  | goOn j b b' w here turn =>
    by_cases hj : j = i
    · subst hj
      cases ha.symm.trans here
      rw [party_set_self]
      exact .inr ⟨b', rfl, hpatient.of_inl turn⟩
    · exact hother (d := { c with word := w }) _ hj ha
  | comeBack j b v w here turn =>
    by_cases hj : j = i
    · subst hj
      cases ha.symm.trans here
      cases hpatient.of_inr turn
      rw [party_set_self]
      exact .inl ⟨rfl, Bool.or_true _⟩
    · exact hother (d := { c with word := w }) _ hj ha
  | free j here =>
    refine hother (d := { c with word := _ }) _ ?_ ha
    rintro rfl
    cases ha.symm.trans here
  | wake j k b here there asleep =>
    have hj : j ≠ i := by
      rintro rfl
      cases ha.symm.trans here
    have ha' : ((c.set j { c.party j with doing := .idle }).party i).doing = .acquiring a := by
      rwa [party_set_of_ne _ _ (Ne.symm hj)]
    by_cases hk : k = i
    · subst hk
      cases ha.symm.trans there
      rw [party_set_self]
      exact .inr ⟨_, rfl, hpatient⟩
    · exact hother _ hk ha'
  | wakeNobody j here =>
    refine hother _ ?_ ha
    rintro rfl
    cases ha.symm.trans here
  | rouse j b cause here =>
    by_cases hj : j = i
    · subst hj
      cases ha.symm.trans here
      rw [party_set_self]
      exact .inr ⟨_, rfl, hpatient⟩
    · exact hother _ hj ha
  | pass => exact .inr ⟨a, ha, hpatient⟩

end SharedLock

namespace SharedSignal

variable {n : Nat} {g g' : SharedSignal n}

structure Housed (g : SharedSignal n) : Prop where
  exclusive : g.contest.Exclusive
  suits : ∀ i, (g.member i).Suits (g.contest.party i)

def registered (g : SharedSignal n) : Nat := g.members.countP (·.isRegistered)

def Counted (g : SharedSignal n) : Prop := g.signal.waiters = .ofNat g.registered

theorem housed_start (value : UInt64) (signal : SignalWord) : (start n value signal).Housed := by
  refine ⟨SharedLock.exclusive_start value, fun i w deadline checks stage h => ?_⟩
  rw [member_start] at h
  cases h

theorem counted_start (value : UInt64) (generation : UInt32) :
    (start n value { generation }).Counted := by
  rw [Counted, registered, start, Vector.countP_replicate]
  rfl

/-- A step of the member `i`, in which at most the value changes around the lock. -/
theorem Housed.of_set (h : g.Housed) {i : Fin n} {m : Member}
    (hmembers : g'.members = (g.set i m).members)
    (hparties : g'.contest.parties = g.contest.parties)
    (hword : g'.contest.word = g.contest.word) (hm : m.Suits (g.contest.party i)) :
    g'.Housed := by
  have hparty : ∀ j, g'.contest.party j = g.contest.party j := fun j => by
    rw [SharedLock.party, hparties, SharedLock.party]
  refine ⟨h.exclusive.of_holds (.inl ?_) (fun j => ?_) (fun j hj => ?_), fun j => ?_⟩
  · rw [hword]
  · rw [hparty]
  · rw [hparty] at hj ⊢
    exact h.exclusive.releasing j hj
  · rw [hparty, member, hmembers, ← member]
    by_cases hj : j = i
    · rw [hj, member_set_self]
      exact hm
    · rw [member_set_of_ne g m hj]
      exact h.suits j

theorem suits_of_turn {m : Member} {c c' : SharedLock n} {move : SharedLock.Move n} {i : Fin n}
    (hm : m.Suits (c.party i)) (turn : c.Turn move c')
    (hmove : m.role ≠ .free → move.isCallOf i = false) : m.Suits (c'.party i) := by
  intro w deadline checks stage hrole
  have hstage := hm w deadline checks stage hrole
  have hcall := hmove (by rw [hrole]; nofun)
  cases stage with
  | reckon | check | look | note | enroll =>
    have hparty := SharedLock.party_of_turn_of_idle turn hstage.1 hcall
    exact ⟨by rw [hparty]; exact hstage.1, by rw [hparty]; exact hstage.2⟩
  | returning timedOut => exact SharedLock.isComing_of_turn turn hstage hcall
  | parting | doze | asleep | leave => trivial

theorem isCallOf_of_permits {move : SharedLock.Move n} (h : g.permits move = true) {i : Fin n}
    (hi : (g.member i).role ≠ .free) : move.isCallOf i = false := by
  cases move with
  | call j | release j | load j | store j =>
    refine decide_eq_false ?_
    rintro rfl
    exact hi (free_of_isFree h)
  | _ => rfl

/-- A step of the member `i` that takes a move around the lock with it. -/
theorem Housed.of_turn (h : g.Housed) {i : Fin n} {m : Member} {move : SharedLock.Move n}
    (hmembers : g'.members = (g.set i m).members) (turn : g.contest.Turn move g'.contest)
    (hmove : ∀ j, j ≠ i → move.isCallOf j = false) (hm : m.Suits (g'.contest.party i)) :
    g'.Housed := by
  refine ⟨SharedLock.exclusive_turn h.exclusive turn, fun j => ?_⟩
  rw [member, hmembers, ← member]
  by_cases hj : j = i
  · rw [hj, member_set_self]
    exact hm
  · rw [member_set_of_ne g m hj]
    exact suits_of_turn (h.suits j) turn fun _ => hmove j hj

theorem suits_of_role {m : Member} {p : Party} {w : Wait} {deadline : Option Nat} {checks : Nat}
    {stage : WaitStage} (h : m.role = .waiting w deadline checks stage) (hs : stage.Suits p) :
    m.Suits p := by
  intro w' deadline' checks' stage' h'
  cases h.symm.trans h'
  exact hs

theorem suits_of_not_waiting {m : Member} {p : Party}
    (h : m.role = .free ∨ ∃ all stage, m.role = .notifying all stage) : m.Suits p := by
  rintro w deadline checks stage hrole
  rcases h with h | ⟨all, s, h⟩
  · cases h.symm.trans hrole
  · cases h.symm.trans hrole

theorem suits_rouse {m : Member} {p : Party} (h : m.Suits p) (cause : Rousing) :
    (m.rouse cause).Suits p := by
  rw [Member.rouse]
  split
  · exact suits_of_role rfl trivial
  · exact h

theorem entry_suits {p : Party} (w : Wait) (h : p.doing = .idle ∧ p.holds = true) :
    (entry w).Suits p := by
  rcases entry_cases w with he | he | he <;> rw [he] <;> exact h

theorem onward_suits {p : Party} (w : Wait) (h : p.doing = .idle ∧ p.holds = true) :
    (onward w).Suits p := by
  rcases onward_cases w with ho | ho <;> rw [ho] <;> exact h

theorem housed_turn {m : Move n} (h : g.Housed) (turn : Turn g m g') : g'.Housed := by
  cases turn with
  | lock move c allowed turn =>
    refine ⟨SharedLock.exclusive_turn h.exclusive turn, fun i => ?_⟩
    exact suits_of_turn (h.suits i) turn (isCallOf_of_permits allowed)
  | wait i w free idle holds =>
    exact h.of_set rfl rfl rfl (suits_of_role rfl (entry_suits w ⟨idle, holds⟩))
  | notify i all | heed i all =>
    exact h.of_set rfl rfl rfl (suits_of_not_waiting (.inr ⟨_, _, rfl⟩))
  | advance i all =>
    exact h.of_set (g := g) rfl rfl rfl (suits_of_not_waiting (.inr ⟨_, _, rfl⟩))
  | finish i =>
    exact h.of_set (g := g) rfl rfl rfl (suits_of_not_waiting (.inl rfl))
  | expire i | comeBack i | rest i | wakeNobody i =>
    exact h.of_set rfl rfl rfl (suits_of_not_waiting (.inl rfl))
  | reckon i w deadline checks here | skip i w deadline checks here
  | stay i w deadline checks here | note i w deadline checks here =>
    have hs : _ ∧ _ := h.suits i _ _ _ _ here
    exact h.of_set rfl rfl rfl (suits_of_role rfl hs)
  | goOn i w deadline checks condition here =>
    have hs : _ ∧ _ := h.suits i _ _ _ _ here
    exact h.of_set (g := g) rfl rfl rfl (suits_of_role rfl (onward_suits w hs))
  | enroll i w deadline checks generation c here turn =>
    refine h.of_turn (g := g) rfl turn (fun j hj => decide_eq_false hj) ?_
    exact suits_of_role rfl trivial
  | leave i w deadline checks cause c here turn =>
    refine h.of_turn (g := g) rfl turn (fun j hj => decide_eq_false hj) (suits_of_role rfl ?_)
    cases turn with
    | call j patience idle =>
      rw [SharedLock.party_set_self]
      exact .inr ⟨_, rfl, rfl, rfl⟩
  | recheck i w deadline checks timedOut here idle =>
    have hs : Party.IsComing _ := h.suits i _ _ _ _ here
    exact h.of_set rfl rfl rfl (suits_of_role rfl (hs.of_idle idle))
  | part i | sleep i | miss i | rouse i =>
    exact h.of_set rfl rfl rfl (suits_of_role rfl trivial)
  | wakeOne i j w deadline checks generation here there =>
    have hi : (g.set i { g.member i with role := .free }).Housed :=
      h.of_set rfl rfl rfl (suits_of_not_waiting (.inl rfl))
    exact hi.of_set rfl rfl rfl (suits_of_role rfl trivial)
  | wakeAll i reached here =>
    have hi : (g.set i { g.member i with role := .free }).Housed :=
      h.of_set rfl rfl rfl (suits_of_not_waiting (.inl rfl))
    refine ⟨h.exclusive, fun j => ?_⟩
    rw [member_rouseAll]
    split
    · exact suits_rouse (hi.suits j) .woken
    · exact hi.suits j

theorem registered_rouseAll (g : SharedSignal n) (reached : Fin n → Bool) :
    (g.rouseAll reached).registered = g.registered := by
  have hmap : (g.rouseAll reached).members.map (·.isRegistered) =
      g.members.map (·.isRegistered) := by
    refine Vector.ext fun i hi => ?_
    rw [Vector.getElem_map, Vector.getElem_map]
    change ((g.rouseAll reached).member ⟨i, hi⟩).isRegistered = (g.member ⟨i, hi⟩).isRegistered
    rw [member_rouseAll]
    split
    · exact Member.isRegistered_rouse _ _
    · rfl
  have hcount := congrArg (Vector.countP id) hmap
  rwa [Vector.countP_map, Vector.countP_map] at hcount

theorem Counted.of_set (h : g.Counted) {i : Fin n} {m : Member}
    (hmembers : g'.members = (g.set i m).members)
    (hwaiters : g'.signal.waiters + .ofNat (g.member i).isRegistered.toNat =
      g.signal.waiters + .ofNat m.isRegistered.toNat) : g'.Counted := by
  rw [Counted, registered, hmembers]
  exact eq_ofNat_countP_replaceAt h hwaiters

/-- A step that counts nobody in or out. -/
theorem Counted.of_quiet (h : g.Counted) {i : Fin n} {m : Member}
    (hmembers : g'.members = (g.set i m).members)
    (hwaiters : g'.signal.waiters = g.signal.waiters)
    (hm : m.isRegistered = (g.member i).isRegistered) : g'.Counted :=
  h.of_set hmembers (by rw [hwaiters, hm])

theorem isRegistered_of_free {m : Member} (h : m.role = .free) : m.isRegistered = false := by
  rw [Member.isRegistered, h]

theorem isRegistered_of_notifying {m : Member} {all : Bool} {stage : NotifyStage}
    (h : m.role = .notifying all stage) : m.isRegistered = false := by
  rw [Member.isRegistered, h]

theorem entry_isRegistered (w : Wait) : (entry w).isRegistered = false := by
  rcases entry_cases w with he | he | he <;> rw [he] <;> rfl

theorem onward_isRegistered (w : Wait) : (onward w).isRegistered = false := by
  rcases onward_cases w with ho | ho <;> rw [ho] <;> rfl

theorem counted_turn {m : Move n} (h : g.Counted) (turn : Turn g m g') : g'.Counted := by
  cases turn with
  | lock => exact h
  | wait i w free =>
    refine h.of_quiet rfl rfl ?_
    rw [isRegistered_of_free free]
    exact entry_isRegistered w
  | notify i all free =>
    refine h.of_quiet rfl rfl ?_
    rw [isRegistered_of_free free]
    rfl
  | advance i all here =>
    refine h.of_quiet (g := g) rfl rfl ?_
    rw [isRegistered_of_notifying here]
    rfl
  | rest i all here | heed i all here | wakeNobody i here =>
    refine h.of_quiet rfl rfl ?_
    rw [isRegistered_of_notifying here]
    rfl
  | goOn i w deadline checks condition here =>
    refine h.of_quiet (g := g) rfl rfl ?_
    rw [Member.isRegistered_of_waiting here]
    exact onward_isRegistered w
  | finish i w deadline checks condition here =>
    refine h.of_quiet (g := g) rfl rfl ?_
    rw [Member.isRegistered_of_waiting here]
    rfl
  | reckon i w deadline checks here | skip i w deadline checks here
  | expire i w deadline checks here | stay i w deadline checks here
  | note i w deadline checks here | part i w deadline checks generation here
  | sleep i w deadline checks generation here | miss i w deadline checks generation here
  | recheck i w deadline checks timedOut here | comeBack i w deadline checks timedOut here =>
    refine h.of_quiet rfl rfl ?_
    rw [Member.isRegistered_of_waiting here]
    rfl
  | enroll i w deadline checks generation c here =>
    refine h.of_set (g := g) rfl ?_
    rw [Member.isRegistered_of_waiting here]
    exact UInt32.add_zero _
  | leave i w deadline checks cause c here =>
    refine h.of_set (g := g) rfl ?_
    rw [Member.isRegistered_of_waiting here]
    exact (UInt32.sub_add_cancel _ _).trans (UInt32.add_zero _).symm
  | rouse i w deadline checks stage cause here down =>
    refine h.of_quiet rfl rfl ?_
    obtain ⟨generation, rfl | rfl⟩ := down
    · rw [Member.isRegistered_of_waiting here]
      rfl
    · rw [Member.isRegistered_of_waiting here]
      rfl
  | wakeOne i j w deadline checks generation here there =>
    have hi : (g.set i { g.member i with role := .free }).Counted := by
      refine h.of_quiet rfl rfl ?_
      rw [isRegistered_of_notifying here]
      rfl
    have hne : j ≠ i := by
      rintro rfl
      cases here.symm.trans there
    refine hi.of_quiet rfl rfl ?_
    rw [member_set_of_ne _ _ hne, Member.isRegistered_of_waiting there]
    rfl
  | wakeAll i reached here =>
    have hi : (g.set i { g.member i with role := .free }).Counted := by
      refine h.of_quiet rfl rfl ?_
      rw [isRegistered_of_notifying here]
      rfl
    rw [Counted, registered_rouseAll]
    exact hi

/-- Whoever is counted in, a notification sees somebody. -/
theorem Counted.waiters_ne_zero (h : g.Counted) (hn : n < UInt32.size) {i : Fin n}
    (hi : (g.member i).isRegistered = true) : g.signal.waiters ≠ 0 := by
  intro hzero
  have hcount := toNat_eq_countP h hn
  rw [hzero] at hcount
  refine Vector.countP_eq_zero.1 hcount.symm g.members[i] (Vector.getElem_mem i.isLt) ?_
  exact hi

end SharedSignal

end Cadence
