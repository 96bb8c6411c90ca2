import Cadence.Proofs.Signal.Noting

/-!
How a notification goes on and comes back. It moves the generation on first, then looks at the count of
waiters, and wakes the sleepers unless there is nobody. Whichever way a notification of all comes back,
nobody is asleep at that moment.
-/

namespace Cadence.SharedSignal

variable {n : Nat} {g g' : SharedSignal n} {move : Move n} {i : Fin n}

/-- Whether a move brings a notification of `i` on. -/
def Move.isOwn (i : Fin n) : Move n → Bool
  | .step j | .wakeOne j _ | .wakeAll j _ => i = j
  | _ => false

/-- A party in a notification is moved on only by steps and wakes of its own. -/
theorem role_of_turn_of_notifying (turn : Turn g move g') {all : Bool} {stage : NotifyStage}
    (here : (g.member i).role = .notifying all stage) (hother : move.isOwn i = false) :
    (g'.member i).role = .notifying all stage := by
  cases turn with
  | lock => exact here
  | wait j w there | notify j all' there | rouse j w deadline checks stage' cause there =>
    have hne : i ≠ j := by
      rintro rfl
      cases here.symm.trans there
    rw [member_set_of_ne _ _ hne]
    exact here
  | reckon j | skip j | goOn j | finish j | expire j | stay j | note j | enroll j | part j | sleep j
  | miss j | leave j | recheck j | comeBack j | advance j | rest j | heed j | wakeNobody j =>
    rw [← here]
    exact congrArg _ (member_set_of_ne _ _ (of_decide_eq_false hother))
  | wakeOne j k w deadline checks generation _ there =>
    have hne : i ≠ k := by
      rintro rfl
      cases here.symm.trans there
    rw [member_set_of_ne _ _ hne, member_set_of_ne _ _ (of_decide_eq_false hother)]
    exact here
  | wakeAll j =>
    rw [member_rouseAll, member_set_of_ne _ _ (of_decide_eq_false hother), Member.rouse, here]
    exact (congrArg Member.role (ite_self _)).trans here

/-- With its wake a notification of one is back. -/
theorem role_of_wakeOne {reached : Option (Fin n)} (turn : Turn g (.wakeOne i reached) g') :
    (g'.member i).role = .free := by
  cases turn with
  | wakeNobody => rw [member_set_self]
  | wakeOne _ k w deadline checks generation here there =>
    have hne : i ≠ k := by
      rintro rfl
      cases here.symm.trans there
    rw [member_set_of_ne _ _ hne, member_set_self]

theorem role_of_wakeAll {reached : Fin n → Bool} (turn : Turn g (.wakeAll i reached) g') :
    (g'.member i).role = .free := by
  cases turn with
  | wakeAll =>
    rw [member_rouseAll, member_set_self]
    split <;> rfl

/-- What becomes of a notification with a move. -/
inductive Notifies (g : SharedSignal n) (move : Move n) (i : Fin n) (all : Bool) :
    NotifyStage → Role → Prop
  | stay (stage : NotifyStage) (other : move.isOwn i = false) :
      Notifies g move i all stage (.notifying all stage)
  | advance (own : move = .step i) : Notifies g move i all .advance (.notifying all .count)
  | rest (own : move = .step i) (nobody : g.signal.waiters = 0) : Notifies g move i all .count .free
  | heed (own : move = .step i) : Notifies g move i all .count (.notifying all .wake)
  | wakeOne (reached : Option (Fin n)) (own : move = .wakeOne i reached) (one : all = false) :
      Notifies g move i all .wake .free
  | wakeAll (reached : Fin n → Bool) (own : move = .wakeAll i reached) (every : all = true) :
      Notifies g move i all .wake .free

theorem notifies_of_step (turn : Turn g (.step i) g') {all : Bool} {stage : NotifyStage}
    (here : (g.member i).role = .notifying all stage) :
    Notifies g (.step i) i all stage (g'.member i).role := by
  cases turn with
  | advance _ all' there =>
    cases here.symm.trans there
    rw [member_set_self]
    exact .advance rfl
  | rest _ all' there nobody =>
    cases here.symm.trans there
    rw [member_set_self]
    exact .rest rfl nobody
  | heed _ all' there =>
    cases here.symm.trans there
    rw [member_set_self]
    exact .heed rfl
  | reckon _ _ _ _ there | skip _ _ _ _ there | goOn _ _ _ _ _ there | finish _ _ _ _ _ there
  | expire _ _ _ _ there | stay _ _ _ _ there | note _ _ _ _ there | enroll _ _ _ _ _ _ there
  | part _ _ _ _ _ there | sleep _ _ _ _ _ there | miss _ _ _ _ _ there
  | leave _ _ _ _ _ _ there | recheck _ _ _ _ _ there | comeBack _ _ _ _ _ there =>
    cases here.symm.trans there

theorem notifies_of_turn (turn : Turn g move g') {all : Bool} {stage : NotifyStage}
    (here : (g.member i).role = .notifying all stage) :
    Notifies g move i all stage (g'.member i).role := by
  cases hown : move.isOwn i with
  | false =>
    rw [role_of_turn_of_notifying turn here hown]
    exact .stay stage hown
  | true =>
    cases move with
    | step j =>
      obtain rfl := of_decide_eq_true hown
      exact notifies_of_step turn here
    | wakeOne j reached =>
      obtain rfl := of_decide_eq_true hown
      rw [role_of_wakeOne turn]
      cases turn with
      | wakeOne _ _ _ _ _ _ there | wakeNobody _ there =>
        cases here.symm.trans there
        exact .wakeOne _ rfl rfl
    | wakeAll j reached =>
      obtain rfl := of_decide_eq_true hown
      rw [role_of_wakeAll turn]
      cases turn with
      | wakeAll _ _ there =>
        cases here.symm.trans there
        exact .wakeAll reached rfl rfl
    | _ => cases hown

theorem notifying_rouse {m : Member} {cause : Rousing} {all : Bool} {stage : NotifyStage}
    (h : (m.rouse cause).role = .notifying all stage) : m.role = .notifying all stage := by
  rw [Member.rouse] at h
  split at h
  · cases h
  · exact h

/-- A notification begins where there was none, or is one that was there. -/
theorem notifying_of_turn (turn : Turn g move g') {all : Bool} {stage : NotifyStage}
    (here : (g'.member i).role = .notifying all stage) :
    (∃ stage', (g.member i).role = .notifying all stage') ∨
      move = .notify i all ∧ stage = .advance ∧ (g.contest.party i).doing = .idle ∧
        g'.contest = g.contest := by
  cases turn with
  | lock => exact .inl ⟨stage, here⟩
  | notify j all' free idle =>
    rcases member_set_elim (P := fun m => m.role = _) here with ⟨rfl, here⟩ | ⟨-, here⟩
    · cases here
      exact .inr ⟨rfl, rfl, idle, rfl⟩
    · exact .inl ⟨stage, here⟩
  | advance j all' there | heed j all' there =>
    rcases member_set_elim (P := fun m => m.role = _) here with ⟨rfl, here⟩ | ⟨-, here⟩
    · cases here
      exact .inl ⟨_, there⟩
    · exact .inl ⟨stage, here⟩
  | wait j | reckon j | skip j | goOn j | finish j | expire j | stay j | note j | enroll j | part j
  | sleep j | miss j | leave j | recheck j | comeBack j | rest j | wakeNobody j | rouse j =>
    rcases member_set_elim (P := fun m => m.role = _) here with ⟨-, here⟩ | ⟨-, here⟩
    · cases here
    · exact .inl ⟨stage, here⟩
  | wakeOne j k =>
    rcases member_set_elim (P := fun m => m.role = _) here with ⟨-, here⟩ | ⟨-, here⟩
    · cases here
    rcases member_set_elim (P := fun m => m.role = _) here with ⟨-, here⟩ | ⟨-, here⟩
    · cases here
    · exact .inl ⟨stage, here⟩
  | wakeAll j =>
    have here := member_rouseAll_elim (P := fun m => m.role = _) here fun _ => notifying_rouse
    rcases member_set_elim (P := fun m => m.role = _) here with ⟨-, here⟩ | ⟨-, here⟩
    · cases here
    · exact .inl ⟨stage, here⟩

/-- Past its increment and not back. -/
def HasAdvanced (g : SharedSignal n) (i : Fin n) : Prop :=
  ∃ all stage, (g.member i).role = .notifying all stage ∧ stage ≠ .advance

/-- Whoever is past its increment was so before, or has just made it. -/
theorem hasAdvanced_of_turn (turn : Turn g move g') (h : g'.HasAdvanced i) :
    g.HasAdvanced i ∨ move = .step i ∧ ∃ all, (g.member i).role = .notifying all .advance := by
  obtain ⟨all, stage, here, hstage⟩ := h
  rcases notifying_of_turn turn here with ⟨stage', there⟩ | ⟨-, hfirst, -⟩
  · have hnotifies := notifies_of_turn turn there
    rw [here] at hnotifies
    cases hnotifies with
    | stay => exact .inl ⟨all, stage, there, hstage⟩
    | advance own => exact .inr ⟨own, all, there⟩
    | heed own => exact .inl ⟨all, .count, there, nofun⟩
  · exact absurd hfirst hstage

/-- A notification of all by `i` that is over in the second state and was not in the first. -/
def isBack (g g' : SharedSignal n) (i : Fin n) : Bool :=
  match (g.member i).role with
  | .notifying true _ => (g'.member i).isFree
  | _ => false

theorem isBack_eq_true (h : isBack g g' i = true) :
    (∃ stage, (g.member i).role = .notifying true stage) ∧ (g'.member i).role = .free := by
  rw [isBack] at h
  split at h
  · exact ⟨⟨_, ‹_›⟩, free_of_isFree h⟩
  · cases h

/-- The ways in which a notification of all comes back. -/
theorem back_of_turn (turn : Turn g move g') (h : isBack g g' i = true) :
    move = .step i ∧ (g.member i).role = .notifying true .count ∧ g.signal.waiters = 0 ∨
      (∃ reached, move = .wakeAll i reached) ∧ (g.member i).role = .notifying true .wake := by
  obtain ⟨⟨stage, here⟩, free⟩ := isBack_eq_true h
  have hnotifies := notifies_of_turn turn here
  rw [free] at hnotifies
  cases hnotifies with
  | rest own nobody => exact .inl ⟨own, here, nobody⟩
  | wakeOne reached own one => cases one
  | wakeAll reached own => exact .inr ⟨⟨reached, own⟩, here⟩

theorem hasAdvanced_of_isBack (turn : Turn g move g') (h : isBack g g' i = true) :
    g.HasAdvanced i := by
  rcases back_of_turn turn h with ⟨-, here, -⟩ | ⟨-, here⟩
  · exact ⟨true, .count, here, nofun⟩
  · exact ⟨true, .wake, here, nofun⟩

/-- A wake for all leaves nobody asleep, unless there are more than it can name. -/
theorem not_asleep_of_wakeAll (hn : n ≤ 2147483648) {reached : Fin n → Bool}
    (turn : Turn g (.wakeAll i reached) g') (j : Fin n) : (g'.member j).isAsleep = false := by
  cases turn with
  | wakeAll i reached here named =>
    have hlt : g.asleep < n := by
      refine Nat.lt_of_le_of_ne Vector.countP_le_size fun hall => ?_
      have hi := Vector.countP_eq_size.1 hall (g.member i) (Vector.getElem_mem i.isLt)
      rw [Member.isAsleep, here] at hi
      cases hi
    have hwake : Waiting.sleeping.wake g.asleep 4294967295 = g.asleep :=
      Nat.min_eq_left (show g.asleep ≤ 2147483647 by omega)
    rw [hwake, Nat.add_eq_right] at named
    exact Bool.eq_false_iff.2 (Vector.countP_eq_zero.1 named _ (Vector.getElem_mem j.isLt))

/-- Once a notification of all is back, nobody is asleep. -/
theorem not_asleep_of_isBack (hn : n ≤ 2147483648) (hc : g.Counted) (turn : Turn g move g')
    (h : isBack g g' i = true) (j : Fin n) : (g'.member j).isAsleep = false := by
  rcases back_of_turn turn h with ⟨rfl, here, nobody⟩ | ⟨⟨reached, rfl⟩, -⟩
  · refine Bool.eq_false_iff.2 fun hasleep => ?_
    rcases isAsleep_of_turn turn hasleep with hj | ⟨w, deadline, checks, ⟨⟩, hrole⟩
    · exact hc.waiters_ne_zero (Nat.lt_of_le_of_lt hn (by decide)) (isRegistered_of_isAsleep hj)
        nobody
    · cases here.symm.trans hrole
  · exact not_asleep_of_wakeAll hn turn j

theorem fire_notify (free : (g.member i).role = .free)
    (idle : (g.contest.party i).doing = .idle) (all : Bool) : g.fire (.notify i all) =
      some (g.set i { g.member i with role := .notifying all .advance }) := by
  simp only [fire, Member.isFree, free, Party.isIdle, idle, decide_true, Bool.and_true, if_true]

theorem fire_advance {all : Bool} (here : (g.member i).role = .notifying all .advance) :
    g.fire (.step i) = some ({ g with signal := g.signal.notify }.set i
      { g.member i with role := .notifying all .count }) := by
  simp only [fire, here, stepNotify]

theorem fire_heed {all : Bool} (here : (g.member i).role = .notifying all .count)
    (somebody : g.signal.waiters ≠ 0) : g.fire (.step i) =
      some (g.set i { g.member i with role := .notifying all .wake }) := by
  simp only [fire, here, stepNotify, if_pos (UInt32.pos_iff_ne_zero.2 somebody)]

theorem fire_wakeAll {reached : Fin n → Bool} (here : (g.member i).role = .notifying true .wake)
    (named : ((g.set i { g.member i with role := .free }).rouseAll reached).asleep +
      Waiting.sleeping.wake g.asleep 4294967295 = g.asleep) : g.fire (.wakeAll i reached) =
        some ((g.set i { g.member i with role := .free }).rouseAll reached) := by
  rw [fire, owesWake, here, named]
  simp only [BEq.rfl, Bool.and_true, if_true]

end Cadence.SharedSignal
