import Cadence.Proofs.Signal.History
import Cadence.Proofs.Signal.Sleepers
import Mathlib.Data.List.Nodup

/-!
A notification of all loses nobody. A waiter counts itself in before it parts with the lock and
compares the generation before it sleeps; a notification moves the generation on before it looks at
the count. So whoever is asleep once the notification is back noted the generation after it; and
since it had the lock at the time, it had just found that there was something to wait for, unless
there was no more because of what it did itself when it looked.
-/

namespace Cadence.SignalHistory

variable {n : Nat} {t t' : SignalHistory n} {still : UInt64 → Bool} {move : SharedSignal.Move n}
  {g : SharedSignal n} {value : UInt64} {s : UInt32} {i : Fin n}

/-- How far the generation has moved between a party's noting and its comparing it. -/
def lag (t : SignalHistory n) (i : Fin n) : Nat := t.compared i - t.noted i

/-- Whoever sleeps has noted the generation after every notification of all that is back. -/
def NoSleeperMissed (t : SignalHistory n) : Prop :=
  ∀ i, (t.shared.member i).isAsleep = true → t.lag i < UInt32.size →
    ∀ k ∈ t.answered, k ≤ t.noted i

theorem noSleeperMissed_start (value : UInt64) (s : UInt32) : (start n value s).NoSleeperMissed :=
  fun _ _ _ => nofun

theorem noting?_of_isAsleep {m : Member} (h : m.isAsleep = true) :
    ∃ x, m.noting? = some x := by
  obtain ⟨w, deadline, checks, generation, hrole⟩ := SharedSignal.asleep_of_isAsleep h
  exact ⟨(w, generation), by rw [Member.noting?, hrole]⟩

theorem noSleeperMissed_record (h : t.NoSleeperMissed) (hn : n ≤ 2147483648) (ht : t.Timed s)
    (hc : t.shared.Counted) (turn : t.shared.Turn move g) :
    (t.record still move g).NoSleeperMissed := by
  intro i hasleep hlag k hk
  replace hk : k ∈ t.answered := by
    refine (mem_answered.1 hk).resolve_right ?_
    rintro ⟨j, hback, -⟩
    have hi := SharedSignal.not_asleep_of_isBack hn hc turn hback i
    exact absurd (hi.symm.trans hasleep) Bool.false_ne_true
  rw [lag] at hlag
  rcases SharedSignal.isAsleep_of_turn turn hasleep with hold | ⟨w, deadline, checks, rfl, hrole⟩
  · obtain ⟨x, hx⟩ := noting?_of_isAsleep hold
    have hcompared : t.shared.event? move ≠ some (.compare i) := fun he => by
      obtain ⟨-, w, deadline, checks, generation, hrole⟩ := SharedSignal.occurs_of_event? he
      rw [Member.isAsleep, hrole] at hold
      cases hold
    rw [noted_of_ne (event?_ne_note hx), compared_of_ne hcompared] at hlag
    rw [noted_of_ne (event?_ne_note hx)]
    exact h i hold hlag k hk
  · have hnoting : (t.shared.member i).noting? = some (w, t.shared.signal.generation) := by
      rw [Member.noting?, hrole]
    rw [noted_of_ne (event?_ne_note hnoting),
      compared_of_compare (SharedSignal.event?_of_doze hrole)] at hlag
    rw [noted_of_ne (event?_ne_note hnoting)]
    -- the generation is the one that was noted, and too little has passed for it to come around
    have hsame := ht.same i _ _ hnoting
    rw [ht.generation, UInt32.add_right_inj] at hsame
    rw [UInt32.eq_of_ofNat_eq hsame.symm (ht.noted i) hlag]
    exact ht.answered k hk

/-- Every notification of all that is back has made an increment of its own. -/
structure Numbered (t : SignalHistory n) : Prop where
  nodup : t.answered.Nodup
  pos : ∀ k ∈ t.answered, 0 < k
  unanswered : ∀ i, t.shared.HasAdvanced i → 0 < t.number i ∧ t.number i ∉ t.answered
  distinct : ∀ i j, t.shared.HasAdvanced i → t.shared.HasAdvanced j →
    t.number i = t.number j → i = j

theorem numbered_start (value : UInt64) (s : UInt32) : (start n value s).Numbered := by
  have hnobody : ∀ i, ¬ (start n value s).shared.HasAdvanced i := by
    rintro i ⟨all, stage, here, -⟩
    rw [start, SharedSignal.member_start] at here
    cases here
  exact ⟨.nil, fun _ hk => absurd hk List.not_mem_nil, fun i hi => absurd hi (hnobody i),
    fun i j hi => absurd hi (hnobody i)⟩

/-- Whoever is past its increment has the number it had, or the new one. -/
theorem number_of_hasAdvanced (turn : t.shared.Turn move g) (hi : g.HasAdvanced i) :
    t.shared.HasAdvanced i ∧ (t.record still move g).number i = t.number i ∨
      t.shared.event? move = some (.advance i) ∧
        (t.record still move g).number i = t.advances + 1 := by
  by_cases he : t.shared.event? move = some (.advance i)
  · exact .inr ⟨he, number_of_advance he⟩
  · rcases SharedSignal.hasAdvanced_of_turn turn hi with hold | ⟨rfl, all, here⟩
    · exact .inl ⟨hold, number_of_ne he⟩
    · exact absurd (SharedSignal.event?_of_advance here) he

theorem numbered_record (h : t.Numbered) (ht : t.Timed s) (turn : t.shared.Turn move g) :
    (t.record still move g).Numbered where
  nodup := by
    have hadvanced : ∀ i ∈ (List.finRange n).filter (t.shared.isBack g),
        t.shared.HasAdvanced i := fun i hi =>
      SharedSignal.hasAdvanced_of_isBack turn (List.mem_filter.1 hi).2
    refine h.nodup.append (List.Nodup.map_on (fun i hi j hj => ?_) ?_) ?_
    · exact h.distinct i j (hadvanced i hi) (hadvanced j hj)
    · exact (List.nodup_finRange n).filter _
    · intro k hk hback
      obtain ⟨i, hi, rfl⟩ := List.mem_map.1 hback
      exact (h.unanswered i (hadvanced i hi)).2 hk
  pos k hk := by
    rcases mem_answered.1 hk with hk | ⟨i, hback, rfl⟩
    · exact h.pos k hk
    · exact (h.unanswered i (SharedSignal.hasAdvanced_of_isBack turn hback)).1
  unanswered i hi := by
    have hgone : ¬ t.shared.isBack g i = true := by
      obtain ⟨all, stage, here, -⟩ := hi
      intro hback
      cases here.symm.trans (SharedSignal.isBack_eq_true hback).2
    rcases number_of_hasAdvanced turn hi with ⟨hold, hnumber⟩ | ⟨-, hnumber⟩
    · rw [hnumber]
      refine ⟨(h.unanswered i hold).1, fun hk => ?_⟩
      rcases mem_answered.1 hk with hk | ⟨j, hback, hsame⟩
      · exact (h.unanswered i hold).2 hk
      · obtain rfl := h.distinct j i (SharedSignal.hasAdvanced_of_isBack turn hback) hold hsame
        exact hgone hback
    · rw [hnumber]
      refine ⟨Nat.succ_pos _, fun hk => ?_⟩
      rcases mem_answered.1 hk with hk | ⟨j, -, hsame⟩
      · exact absurd (ht.answered _ hk) (Nat.not_succ_le_self _)
      · exact absurd (ht.number j) (by rw [hsame]; exact Nat.not_succ_le_self _)
  distinct i j hi hj hsame := by
    rcases number_of_hasAdvanced turn hi with ⟨hiold, hinumber⟩ | ⟨he, hinumber⟩
    · rcases number_of_hasAdvanced turn hj with ⟨hjold, hjnumber⟩ | ⟨-, hjnumber⟩
      · rw [hinumber, hjnumber] at hsame
        exact h.distinct i j hiold hjold hsame
      · have hle := ht.number i
        rw [hinumber, hjnumber] at hsame
        omega
    · rcases number_of_hasAdvanced turn hj with ⟨-, hjnumber⟩ | ⟨he', -⟩
      · have hle := ht.number j
        rw [hinumber, hjnumber] at hsame
        omega
      · cases he.symm.trans he'
        rfl

def Awaits (still : UInt64 → Bool) (w : Wait) : Prop :=
  ∃ condition, w.condition = some condition ∧ ∀ v, (condition v).1 = still v

/-- Whoever waits for the condition to end noted the generation before it ended, unless it ended the
condition by its own check. -/
structure Aware (still : UInt64 → Bool) (t : SignalHistory n) : Prop where
  checked : ∀ i w, (t.shared.member i).checked? = some w → Awaits still w →
    t.endedBy i = false → still t.shared.contest.value = true
  noting : ∀ i w generation, (t.shared.member i).noting? = some (w, generation) →
    Awaits still w → t.endedBy i = false →
      still t.shared.contest.value = true ∨ ∃ e ∈ t.ended, t.noted i ≤ e
  ended : ∀ i, t.endedBy i = true → t.checked i ∈ t.ended

theorem aware_start (still : UInt64 → Bool) (value : UInt64) (s : UInt32) :
    (start n value s).Aware still := by
  refine ⟨fun i w h => ?_, fun i w generation h => ?_, nofun⟩
  · rw [start, SharedSignal.member_start] at h
    cases h
  · rw [start, SharedSignal.member_start] at h
    cases h

theorem ended_of_over (hstill : still t.shared.contest.value = true)
    (hover : still g.contest.value = false) :
    (t.record still move g).ended = t.ended ++ [t.advances] := by
  rw [record]
  dsimp only
  rw [if_pos (by rw [hstill, hover]; rfl)]

theorem mem_ended {e : Nat} (h : e ∈ t.ended) : e ∈ (t.record still move g).ended := by
  rw [record]
  dsimp only
  split
  · exact List.mem_append_left _ h
  · exact h

theorem endedBy_of_check (h : t.shared.event? move = some (.check i)) :
    (t.record still move g).endedBy i =
      (still t.shared.contest.value && !still g.contest.value) := if_pos h

theorem endedBy_of_ne (h : t.shared.event? move ≠ some (.check i)) :
    (t.record still move g).endedBy i = t.endedBy i := if_neg h

theorem event?_ne_check (h : (∃ w, (t.shared.member i).checked? = some w) ∨
    ∃ x, (t.shared.member i).noting? = some x) :
    t.shared.event? move ≠ some (.check i) := by
  intro he
  obtain ⟨-, w, deadline, checks, hrole⟩ := SharedSignal.occurs_of_event? he
  rw [Member.checked?, Member.noting?, hrole] at h
  rcases h with ⟨w, hw⟩ | ⟨x, hx⟩
  · cases hw
  · cases hx

theorem aware_record (h : t.Aware still) (ht : t.Timed s) (hh : t.shared.Housed)
    (turn : t.shared.Turn move g) : (t.record still move g).Aware still where
  checked i w hi hw hby := by
    obtain ⟨condition, hsome, hcondition⟩ := hw
    change still g.contest.value = true
    rcases SharedSignal.checked?_of_turn turn hsome hi with hold | ⟨deadline, checks, rfl, hrole, hgo⟩
    · rw [endedBy_of_ne (event?_ne_check (.inl ⟨w, hold⟩))] at hby
      rw [SharedSignal.value_of_turn hh turn hold]
      exact h.checked i w hold ⟨condition, hsome, hcondition⟩ hby
    · rw [endedBy_of_check (SharedSignal.event?_of_check hrole), ← hcondition, hgo] at hby
      simpa using hby
  noting i w generation hi hw hby := by
    change still g.contest.value = true ∨ _
    rcases SharedSignal.noting?_of_turn turn hi with hold | ⟨deadline, checks, rfl, hrole, -, hcontest⟩
    · rw [endedBy_of_ne (event?_ne_check (.inr ⟨_, hold⟩))] at hby
      rw [noted_of_ne (event?_ne_note hold)]
      rcases h.noting i w generation hold hw hby with hstill | ⟨e, he, hle⟩
      · cases hnow : still g.contest.value with
        | true => exact .inl rfl
        | false =>
          -- this move ends the condition, no earlier than the generation was noted
          refine .inr ⟨t.advances, ?_, ht.noted i⟩
          rw [ended_of_over hstill hnow]
          exact List.mem_append_right _ (List.mem_singleton_self _)
      · exact .inr ⟨e, mem_ended he, hle⟩
    · -- the generation is noted with the value that the check was about
      have hchecked : (t.shared.member i).checked? = some w := by rw [Member.checked?, hrole]
      rw [endedBy_of_ne (event?_ne_check (.inl ⟨w, hchecked⟩))] at hby
      rw [hcontest]
      exact .inl (h.checked i w hchecked hw hby)
  ended i hby := by
    by_cases he : t.shared.event? move = some (.check i)
    · rw [endedBy_of_check he, Bool.and_eq_true_iff, Bool.not_eq_true'] at hby
      rw [checked_of_check he, ended_of_over hby.1 hby.2]
      exact List.mem_append_right _ (List.mem_singleton_self _)
    · rw [endedBy_of_ne he] at hby
      rw [checked_of_ne he]
      exact mem_ended (h.ended i hby)

structure Orderly (still : UInt64 → Bool) (s : UInt32) (t : SignalHistory n) : Prop where
  housed : t.shared.Housed
  counted : t.shared.Counted
  timed : t.Timed s
  numbered : t.Numbered
  aware : t.Aware still

theorem orderly_start (still : UInt64 → Bool) (value : UInt64) (s : UInt32) :
    (start n value s).Orderly still s :=
  ⟨SharedSignal.housed_start value _, SharedSignal.counted_start value s, timed_start value s,
    numbered_start value s, aware_start still value s⟩

theorem orderly_fire (h : t.Orderly still s) (hfire : t.fire still move = some t') :
    t'.Orderly still s := by
  obtain ⟨g, turn, rfl⟩ := fire_eq_some hfire
  exact ⟨SharedSignal.housed_turn h.housed turn, SharedSignal.counted_turn h.counted turn,
    timed_record h.timed turn, numbered_record h.numbered h.timed turn,
    aware_record h.aware h.timed h.housed turn⟩

theorem orderly_run {moves : List (SharedSignal.Move n)} (h : t.Orderly still s)
    (hrun : t.run still moves = some t') : t'.Orderly still s :=
  run_keeps (P := Orderly still s) (fun _ _ _ => orderly_fire) h hrun

theorem noSleeperMissed_run (hn : n ≤ 2147483648) {moves : List (SharedSignal.Move n)}
    (ho : t.Orderly still s) (h : t.NoSleeperMissed) (hrun : t.run still moves = some t') :
    t'.NoSleeperMissed := by
  refine (run_keeps (P := fun t => Orderly still s t ∧ t.NoSleeperMissed) ?_ ⟨ho, h⟩ hrun).2
  rintro t move t' ⟨ho, h⟩ hfire
  refine ⟨orderly_fire ho hfire, ?_⟩
  obtain ⟨g, turn, rfl⟩ := fire_eq_some hfire
  exact noSleeperMissed_record h hn ho.timed ho.counted turn

def notifying? (t : SignalHistory n) (i : Fin n) : Option (Bool × NotifyStage) :=
  match (t.shared.member i).role with
  | .notifying all stage => some (all, stage)
  | _ => none

theorem role_of_notifying? {all : Bool} {stage : NotifyStage}
    (h : t.notifying? i = some (all, stage)) :
    (t.shared.member i).role = .notifying all stage := by
  unfold notifying? at h
  split at h
  · next hrole =>
    cases h
    exact hrole
  · cases h

/-- A notification of all that is back has left nobody asleep that noted the generation before it,
unless the word has come around in between. So once such a notification has followed everything that
ended a condition, nobody is asleep who waits for that, but for those who ended it by their own
check and noted the generation only after the notification had moved it on. -/
theorem notifyAll_wakes_run (hn : n ≤ 2147483648) {still : UInt64 → Bool}
    {value : UInt64} {moves : List (SharedSignal.Move n)}
    (hrun : (start n value s).run still moves = some t) :
    (t.answered.Nodup ∧ ∀ k ∈ t.answered, 0 < k ∧ k ≤ t.advances) ∧
    (∀ k ∈ t.answered, ∀ i, t.noted i < k → t.lag i < UInt32.size →
      (t.shared.member i).isAsleep = false) ∧
    (still t.shared.contest.value = false → (∀ e ∈ t.ended, ∃ k ∈ t.answered, e < k) →
      ∀ i w deadline checks generation, Awaits still w → t.lag i < UInt32.size →
        (t.shared.member i).role = .waiting w deadline checks (.asleep generation) →
          t.endedBy i = true ∧ ∃ k ∈ t.answered, t.checked i < k ∧ k ≤ t.noted i) := by
  have h := orderly_run (orderly_start still value s) hrun
  have hmissed := noSleeperMissed_run hn (orderly_start still value s)
    (noSleeperMissed_start value s) hrun
  refine ⟨⟨h.numbered.nodup, fun k hk => ⟨h.numbered.pos k hk, h.timed.answered k hk⟩⟩,
    fun k hk i hlt hlag => ?_, fun hover hfollowed i w deadline checks generation hw hlag hrole => ?_⟩
  · refine Bool.eq_false_iff.2 fun hasleep => ?_
    exact absurd (hmissed i hasleep hlag k hk) (Nat.not_le_of_lt hlt)
  · have hasleep : (t.shared.member i).isAsleep = true := by rw [Member.isAsleep, hrole]
    cases hby : t.endedBy i with
    | true =>
      obtain ⟨k, hk, hlt⟩ := hfollowed _ (h.aware.ended i hby)
      exact ⟨rfl, k, hk, hlt, hmissed i hasleep hlag k hk⟩
    | false =>
      have hnoting : (t.shared.member i).noting? = some (w, generation) := by
        rw [Member.noting?, hrole]
      rcases h.aware.noting i w generation hnoting hw hby with hstill | ⟨e, he, hle⟩
      · cases hover.symm.trans hstill
      · obtain ⟨k, hk, hlt⟩ := hfollowed e he
        exact absurd (hmissed i hasleep hlag k hk) (Nat.not_le_of_lt (Nat.lt_of_le_of_lt hle hlt))

/-- One party ends the condition and notifies while the other is on its way to sleep. -/
def onTheWay (i j : Fin 2) : List (SharedSignal.Move 2) :=
  [.lock (.call i .forever), .lock (.step i), .wait i (.untilIs 1), .step i, .step i, .step i,
    .lock (.step i), .step i, .lock (.call j .forever), .lock (.step j), .lock (.store j 1),
    .lock (.release j), .lock (.step j), .notify j true, .step j, .step j,
    .wakeAll j fun _ => true, .step i]

theorem notifyAll_wakes_run_onTheWay :
    ∃ t, (start 2 0 4294967295).run (· != 1) (onTheWay 0 1) = some t ∧
      t.ended = [0] ∧ t.answered = [1] ∧ (t.shared.member 0).isAsleep = false ∧
      ∀ w deadline checks generation, Awaits (· != 1) w →
        (t.shared.member 0).role ≠ .waiting w deadline checks (.asleep generation) := by
  have hsummary : ((start 2 0 4294967295).run (· != 1) (onTheWay 0 1)).map (fun t =>
      (t.ended, t.answered, t.noted 0, t.lag 0, t.shared.contest.value != 1, t.endedBy 0)) =
        some ([0], [1], 0, 1, false, false) := by decide +kernel
  obtain ⟨t, hrun, hfacts⟩ := Option.map_eq_some_iff.1 hsummary
  simp only [Prod.mk.injEq] at hfacts
  obtain ⟨hended, hanswered, hnoted, hlag, hover, hby⟩ := hfacts
  have hlag : t.lag 0 < UInt32.size := by rw [hlag]; decide
  have hfollowed : ∀ e ∈ t.ended, ∃ k ∈ t.answered, e < k := by
    rw [hended, hanswered]
    decide
  obtain ⟨-, hpast, hwaiting⟩ := notifyAll_wakes_run (n := 2) (by decide) hrun
  refine ⟨t, hrun, hended, hanswered, hpast 1 ?_ 0 ?_ hlag,
    fun w deadline checks generation hw hrole => ?_⟩
  · rw [hanswered]
    exact List.mem_singleton_self 1
  · rw [hnoted]
    decide
  · have hown := hwaiting hover hfollowed 0 w deadline checks generation hw hlag hrole
    cases hby.symm.trans hown.1

/-- Waits until the value is 1, and makes it 1 at every check. -/
def untilOwn : Wait := { condition := some fun v => (v != 1, 1) }

/-- The condition is ended by the check itself, and another notifies before the generation is
noted. -/
def endedOnTheWay (i j : Fin 2) : List (SharedSignal.Move 2) :=
  [.lock (.call i .forever), .lock (.step i), .wait i untilOwn, .step i, .notify j true, .step j,
    .step j, .step i, .step i, .lock (.step i), .step i, .step i]

structure Unnotified (t : SignalHistory n) : Prop where
  advances : t.advances = 0
  compared : ∀ i, t.compared i = 0
  role : ∀ i all stage, (t.shared.member i).role ≠ .notifying all stage

theorem unnotified_fire (h : t.Unnotified) (hfire : t.fire still move = some t')
    (hmove : ∀ i all, move ≠ .notify i all) : t'.Unnotified := by
  obtain ⟨g, turn, rfl⟩ := fire_eq_some hfire
  refine ⟨?_, fun i => ?_, fun i all stage here => ?_⟩
  · rw [advances_of_ne fun i he => ?_, h.advances]
    obtain ⟨-, all, here⟩ := SharedSignal.occurs_of_event? he
    exact h.role i all _ here
  · by_cases he : t.shared.event? move = some (.compare i)
    · rw [compared_of_compare he, h.advances]
    · rw [compared_of_ne he, h.compared i]
  · rcases SharedSignal.notifying_of_turn turn here with ⟨stage', there⟩ | ⟨hnotify, -⟩
    · exact h.role i all stage' there
    · exact hmove i all hnotify

theorem unnotified_run {moves : List (SharedSignal.Move n)}
    (hrun : (start n value s).run still moves = some t)
    (hmoves : ∀ i all, SharedSignal.Move.notify i all ∉ moves) : t.Unnotified := by
  refine run_keeps_of_mem (P := Unnotified) (fun m hm t t' h hfire => ?_) ⟨rfl, fun _ => rfl, ?_⟩ hrun
  · refine unnotified_fire h hfire ?_
    rintro i all rfl
    exact hmoves i all hm
  · intro i all stage here
    rw [start, SharedSignal.member_start] at here
    cases here

theorem fire_eq_record (h : t.shared.fire move = some g) :
    t.fire still move = some (t.record still move g) := by
  rw [fire, h]
  rfl

/-- The wake of a notification leaves one sleeper out, and the notification is back. -/
theorem exists_answered_asleep (still : UInt64 → Bool) {t : SignalHistory (n + 1)}
    {g₁ g₂ g₃ g₄ : SharedSignal (n + 1)} (ht : t.Timed s) (h : t.Unnotified)
    (hspares : t.shared.Spares g₁ g₂ g₃ g₄) :
    ∃ moves t', t.run still moves = some t' ∧ 1 ∈ t'.answered ∧ t'.noted 0 = 0 ∧ t'.lag 0 = 0 ∧
      (t'.shared.member 0).isAsleep = true := by
  let j := Fin.last n
  let t₁ := t.record still (.notify j true) g₁
  let t₂ := t₁.record still (.step j) g₂
  let t₃ := t₂.record still (.step j) g₃
  let t₄ := t₃.record still (.wakeAll j (· ≠ 0)) g₄
  have h₁ : t.shared.event? (.notify j true) = none := rfl
  have h₂ : t₁.shared.event? (.step j) = some (.advance j) :=
    SharedSignal.event?_of_advance hspares.advancing
  have h₃ : t₂.shared.event? (.step j) = none := by
    have hrole : (t₂.shared.member j).role = .notifying true .count := hspares.counting
    rw [SharedSignal.event?, hrole]
  have h₄ : t₃.shared.event? (.wakeAll j (· ≠ 0)) = none := rfl
  have hnumber : t₃.number j = 1 := calc
    t₃.number j = t₂.number j := number_of_ne (by rw [h₃]; simp)
    _ = t₁.advances + 1 := number_of_advance h₂
    _ = t.advances + 1 := congrArg (· + 1) (advances_of_ne (by rw [h₁]; simp))
    _ = 1 := congrArg (· + 1) h.advances
  have hnoted : t₄.noted 0 = 0 := calc
    t₄.noted 0 = t₃.noted 0 := noted_of_ne (by rw [h₄]; simp)
    _ = t₂.noted 0 := noted_of_ne (by rw [h₃]; simp)
    _ = t₁.noted 0 := noted_of_ne (by rw [h₂]; simp)
    _ = t.noted 0 := noted_of_ne (by rw [h₁]; simp)
    _ = 0 := Nat.le_zero.1 (Nat.le_trans (ht.noted 0) (Nat.le_of_eq h.advances))
  have hcompared : t₄.compared 0 = 0 := calc
    t₄.compared 0 = t₃.compared 0 := compared_of_ne (by rw [h₄]; simp)
    _ = t₂.compared 0 := compared_of_ne (by rw [h₃]; simp)
    _ = t₁.compared 0 := compared_of_ne (by rw [h₂]; simp)
    _ = t.compared 0 := compared_of_ne (by rw [h₁]; simp)
    _ = 0 := h.compared 0
  have hback : t₃.shared.isBack g₄ j = true := by
    have hrole : (t₃.shared.member j).role = .notifying true .wake := hspares.waking
    rw [SharedSignal.isBack, hrole]
    change (g₄.member j).isFree = true
    rw [Member.isFree, hspares.back]
  have hrun : t.run still [.notify j true, .step j, .step j, .wakeAll j (· ≠ 0)] = some t₄ :=
    foldlM_cons_eq_some.2 ⟨t₁, fire_eq_record hspares.begins,
      foldlM_cons_eq_some.2 ⟨t₂, fire_eq_record hspares.advances,
        foldlM_cons_eq_some.2 ⟨t₃, fire_eq_record hspares.heeds,
          foldlM_cons_eq_some.2 ⟨t₄, fire_eq_record hspares.wakes, rfl⟩⟩⟩⟩
  refine ⟨_, t₄, hrun, mem_answered.2 (.inr ⟨j, hback, hnumber⟩), hnoted, ?_, hspares.asleep⟩
  rw [lag, hcompared]
  exact Nat.zero_sub _

/-- One sleeper more than a wake can name is too many. -/
theorem exists_missed (hmany : 1 + Waiting.sleeping.wake n 4294967295 = n)
    (hn : n + 1 < UInt32.size) :
    ∃ moves t, (start (n + 1) value s).run still moves = some t ∧ ∃ k ∈ t.answered, ∃ i,
      t.noted i < k ∧ t.lag i < UInt32.size ∧ (t.shared.member i).isAsleep = true := by
  obtain ⟨moves, g, hmoves, hg, hnotify⟩ :=
    SharedSignal.exists_resting (n := n + 1) value { generation := s } (Nat.le_succ n)
  obtain ⟨t, hrun, rfl⟩ := Option.map_eq_some_iff.1
    ((map_shared_run still (start (n + 1) value s) moves).trans hmoves)
  have ho := orderly_run (orderly_start still value s) hrun
  obtain ⟨g₁, g₂, g₃, g₄, hspares⟩ := SharedSignal.exists_spares hg ho.counted hmany hn
  obtain ⟨moves', t', hrun', hanswered, hnoted, hlag, hasleep⟩ :=
    exists_answered_asleep still ho.timed (unnotified_run hrun hnotify) hspares
  refine ⟨moves ++ moves', t', foldlM_append_eq_some.2 ⟨t, hrun, hrun'⟩, 1, hanswered, 0, ?_, ?_,
    hasleep⟩
  · rw [hnoted]
    exact Nat.one_pos
  · rw [hlag]
    decide

/-- A condition that is ended by the check of a waiter, before it notes the generation, is notified
without reaching it; and with more than `2 ^ 31` parties a wake for all cannot name all sleepers. -/
theorem notifyAll_misses :
    (∃ t, (start 2 0 0).run (· != 1) (endedOnTheWay 0 1) = some t ∧
      (t.shared.contest.value != 1) = false ∧ (∀ e ∈ t.ended, ∃ k ∈ t.answered, e < k) ∧
      (∀ i, t.notifying? i = none) ∧ ∃ w deadline checks generation, Awaits (· != 1) w ∧
        t.lag 0 < UInt32.size ∧
        (t.shared.member 0).role = .waiting w deadline checks (.asleep generation)) ∧
    (∃ moves t, (start 2147483649 0 0).run (fun _ => true) moves = some t ∧
      ∃ k ∈ t.answered, ∃ i, t.noted i < k ∧ t.lag i < UInt32.size ∧
        (t.shared.member i).isAsleep = true) := by
  refine ⟨?_, ?_⟩
  · have hsummary : ((start 2 0 0).run (· != 1) (endedOnTheWay 0 1)).map (fun t =>
        (t.ended, t.answered, t.shared.contest.value != 1, decide (∀ i, t.notifying? i = none),
          t.lag 0)) = some ([0], [1], false, true, 0) := by decide +kernel
    have hrole : ((start 2 0 0).run (· != 1) (endedOnTheWay 0 1)).map (fun t =>
        (t.shared.member 0).role) = some (.waiting untilOwn none 1 (.asleep 1)) := by rfl
    obtain ⟨t, hrun, hfacts⟩ := Option.map_eq_some_iff.1 hsummary
    rw [hrun] at hrole
    simp only [Prod.mk.injEq] at hfacts
    obtain ⟨hended, hanswered, hover, hnobody, hlag⟩ := hfacts
    refine ⟨t, hrun, hover, ?_, of_decide_eq_true hnobody, untilOwn, none, 1, 1,
      ⟨_, rfl, fun _ => rfl⟩, ?_, Option.some.inj hrole⟩
    · rw [hended, hanswered]
      decide
    · rw [hlag]
      decide
  · exact exists_missed (n := 2147483648) (by decide) (by decide)

end Cadence.SignalHistory
