import Cadence.Proofs.Lock.Turns
import Cadence.Signal.Shared

/-!
What a move around a signal can do, said once, with one case for each way in which it is possible.
A wait that parts with the lock, and one that asks for it again, makes a move around the lock on the
way; whatever goes on around the lock otherwise leaves the waits and notifications alone.
-/

namespace Cadence.SharedSignal

variable {n : Nat} {g g' : SharedSignal n}

@[simp] theorem member_set_self (g : SharedSignal n) (i : Fin n) (m : Member) :
    (g.set i m).member i = m := get_replaceAt_self g.members i m

theorem member_set_of_ne (g : SharedSignal n) {i j : Fin n} (m : Member) (h : j ≠ i) :
    (g.set i m).member j = g.member j := get_replaceAt_of_ne g.members m h

@[simp] theorem member_start (value : UInt64) (signal : SignalWord) (i : Fin n) :
    (start n value signal).member i = {} := by
  change (Vector.replicate n ({} : Member))[i.val] = {}
  rw [Vector.getElem_replicate]

theorem member_rouseAll (g : SharedSignal n) (reached : Fin n → Bool) (i : Fin n) :
    (g.rouseAll reached).member i =
      if reached i then (g.member i).rouse .woken else g.member i := by
  change (Vector.ofFn _)[i.val] = _
  rw [Vector.getElem_ofFn]

/-- Whatever a wake leaves alone, and has in common with those it reaches. -/
theorem member_rouseAll_elim {P : Member → Prop} {reached : Fin n → Bool} {i : Fin n}
    (h : P ((g.rouseAll reached).member i)) (hrouse : ∀ m : Member, P (m.rouse .woken) → P m) :
    P (g.member i) := by
  rw [member_rouseAll] at h
  split at h
  · exact hrouse _ h
  · exact h

def entry (w : Wait) : WaitStage :=
  if w.condition.isNone then .note else if w.timeout.isSome then .reckon else .check

def onward (w : Wait) : WaitStage := if w.timeout.isSome then .look else .note

theorem entry_cases (w : Wait) : entry w = .note ∨ entry w = .reckon ∨ entry w = .check := by
  rw [entry]
  split
  · exact .inl rfl
  · split
    · exact .inr (.inl rfl)
    · exact .inr (.inr rfl)

theorem entry_of_condition {w : Wait} (h : w.condition.isSome = true) :
    entry w = .reckon ∨ entry w = .check := by
  refine (entry_cases w).resolve_left fun he => ?_
  rw [entry, if_neg (by rw [Option.isNone_iff_eq_none]; rintro hn; rw [hn] at h; cases h)] at he
  split at he <;> cases he

theorem onward_cases (w : Wait) : onward w = .look ∨ onward w = .note := by
  rw [onward]
  split
  · exact .inl rfl
  · exact .inr rfl

inductive Turn (g : SharedSignal n) : Move n → SharedSignal n → Prop
  | lock (move : SharedLock.Move n) (c : SharedLock n) (allowed : g.permits move = true)
      (turn : g.contest.Turn move c) : Turn g (.lock move) { g with contest := c }
  | wait (i : Fin n) (w : Wait) (free : (g.member i).role = .free)
      (idle : (g.contest.party i).doing = .idle) (holds : (g.contest.party i).holds = true) :
      Turn g (.wait i w) (g.set i { g.member i with role := .waiting w none 0 (entry w) })
  | notify (i : Fin n) (all : Bool) (free : (g.member i).role = .free)
      (idle : (g.contest.party i).doing = .idle) :
      Turn g (.notify i all) (g.set i { g.member i with role := .notifying all .advance })
  | reckon (i : Fin n) (w : Wait) (deadline : Option Nat) (checks : Nat)
      (here : (g.member i).role = .waiting w deadline checks .reckon) :
      Turn g (.step i) (g.set i { g.member i with
        role := .waiting w (w.timeout >>= Clock.deadline? g.contest.clock) checks .check })
  | skip (i : Fin n) (w : Wait) (deadline : Option Nat) (checks : Nat)
      (here : (g.member i).role = .waiting w deadline checks .check)
      (bare : w.condition = none) :
      Turn g (.step i) (g.set i { g.member i with role := .waiting w deadline checks .note })
  | goOn (i : Fin n) (w : Wait) (deadline : Option Nat) (checks : Nat)
      (condition : UInt64 → Bool × UInt64)
      (here : (g.member i).role = .waiting w deadline checks .check)
      (asked : w.condition = some condition) (still : (condition g.contest.value).1 = true) :
      Turn g (.step i)
        ({ g with contest := { g.contest with value := (condition g.contest.value).2 } }.set i
          { g.member i with role := .waiting w deadline (checks + 1) (onward w) })
  | finish (i : Fin n) (w : Wait) (deadline : Option Nat) (checks : Nat)
      (condition : UInt64 → Bool × UInt64)
      (here : (g.member i).role = .waiting w deadline checks .check)
      (asked : w.condition = some condition) (settled : (condition g.contest.value).1 = false) :
      Turn g (.step i)
        ({ g with contest := { g.contest with value := (condition g.contest.value).2 } }.set i
          { role := .free, report := some ⟨false, checks + 1⟩ })
  | expire (i : Fin n) (w : Wait) (deadline checks : Nat)
      (here : (g.member i).role = .waiting w (some deadline) checks .look)
      (late : deadline ≤ g.contest.clock) :
      Turn g (.step i) (g.set i { role := .free, report := some ⟨true, checks⟩ })
  | stay (i : Fin n) (w : Wait) (deadline : Option Nat) (checks : Nat)
      (here : (g.member i).role = .waiting w deadline checks .look)
      (early : ∀ d, deadline = some d → g.contest.clock < d) :
      Turn g (.step i) (g.set i { g.member i with role := .waiting w deadline checks .note })
  | note (i : Fin n) (w : Wait) (deadline : Option Nat) (checks : Nat)
      (here : (g.member i).role = .waiting w deadline checks .note) :
      Turn g (.step i) (g.set i { g.member i with
        role := .waiting w deadline checks (.enroll g.signal.generation) })
  | enroll (i : Fin n) (w : Wait) (deadline : Option Nat) (checks : Nat) (generation : UInt32)
      (c : SharedLock n) (here : (g.member i).role = .waiting w deadline checks (.enroll generation))
      (turn : g.contest.Turn (.release i) c) :
      Turn g (.step i) { g.set i { g.member i with
          role := .waiting w deadline checks (.parting generation) } with
        contest := c, signal := { g.signal with waiters := g.signal.waiters + 1 } }
  | part (i : Fin n) (w : Wait) (deadline : Option Nat) (checks : Nat) (generation : UInt32)
      (here : (g.member i).role = .waiting w deadline checks (.parting generation))
      (idle : (g.contest.party i).doing = .idle) :
      Turn g (.step i) (g.set i { g.member i with
        role := .waiting w deadline checks (.doze generation) })
  | sleep (i : Fin n) (w : Wait) (deadline : Option Nat) (checks : Nat) (generation : UInt32)
      (here : (g.member i).role = .waiting w deadline checks (.doze generation))
      (same : g.signal.generation = generation) :
      Turn g (.step i) (g.set i { g.member i with
        role := .waiting w deadline checks (.asleep generation) })
  | miss (i : Fin n) (w : Wait) (deadline : Option Nat) (checks : Nat) (generation : UInt32)
      (here : (g.member i).role = .waiting w deadline checks (.doze generation))
      (changed : g.signal.generation ≠ generation) :
      Turn g (.step i) (g.set i { g.member i with
        role := .waiting w deadline checks (.leave .woken) })
  | leave (i : Fin n) (w : Wait) (deadline : Option Nat) (checks : Nat) (cause : Rousing)
      (c : SharedLock n) (here : (g.member i).role = .waiting w deadline checks (.leave cause))
      (turn : g.contest.Turn (.call i .forever) c) :
      Turn g (.step i) { g.set i { g.member i with
          role := .waiting w deadline checks (.returning (decide (cause = Rousing.timedOut))) } with
        contest := c, signal := { g.signal with waiters := g.signal.waiters - 1 } }
  | recheck (i : Fin n) (w : Wait) (deadline : Option Nat) (checks : Nat) (timedOut : Bool)
      (here : (g.member i).role = .waiting w deadline checks (.returning timedOut))
      (idle : (g.contest.party i).doing = .idle) (asked : w.condition.isSome = true) :
      Turn g (.step i) (g.set i { g.member i with role := .waiting w deadline checks .check })
  | comeBack (i : Fin n) (w : Wait) (deadline : Option Nat) (checks : Nat) (timedOut : Bool)
      (here : (g.member i).role = .waiting w deadline checks (.returning timedOut))
      (idle : (g.contest.party i).doing = .idle) (bare : w.condition = none) :
      Turn g (.step i) (g.set i { role := .free, report := some { timedOut, checks } })
  | advance (i : Fin n) (all : Bool) (here : (g.member i).role = .notifying all .advance) :
      Turn g (.step i) ({ g with signal := g.signal.notify }.set i
        { g.member i with role := .notifying all .count })
  | rest (i : Fin n) (all : Bool) (here : (g.member i).role = .notifying all .count)
      (nobody : g.signal.waiters = 0) :
      Turn g (.step i) (g.set i { g.member i with role := .free })
  | heed (i : Fin n) (all : Bool) (here : (g.member i).role = .notifying all .count)
      (somebody : g.signal.waiters ≠ 0) :
      Turn g (.step i) (g.set i { g.member i with role := .notifying all .wake })
  | wakeOne (i j : Fin n) (w : Wait) (deadline : Option Nat) (checks : Nat) (generation : UInt32)
      (here : (g.member i).role = .notifying false .wake)
      (there : (g.member j).role = .waiting w deadline checks (.asleep generation)) :
      Turn g (.wakeOne i (some j)) ((g.set i { g.member i with role := .free }).set j
        { g.member j with role := .waiting w deadline checks (.leave .woken) })
  | wakeNobody (i : Fin n) (here : (g.member i).role = .notifying false .wake)
      (nobody : ∀ j, (g.member j).isAsleep = false) :
      Turn g (.wakeOne i none) (g.set i { g.member i with role := .free })
  | wakeAll (i : Fin n) (reached : Fin n → Bool)
      (here : (g.member i).role = .notifying true .wake)
      (named : ((g.set i { g.member i with role := .free }).rouseAll reached).asleep +
        Waiting.sleeping.wake g.asleep 4294967295 = g.asleep) :
      Turn g (.wakeAll i reached) ((g.set i { g.member i with role := .free }).rouseAll reached)
  | rouse (i : Fin n) (w : Wait) (deadline : Option Nat) (checks : Nat) (stage : WaitStage)
      (cause : Rousing) (here : (g.member i).role = .waiting w deadline checks stage)
      (down : ∃ generation, stage = .doze generation ∨ stage = .asleep generation)
      (uncalled : cause ≠ .woken) :
      Turn g (.rouse i cause) (g.set i { g.member i with
        role := .waiting w deadline checks (.leave cause) })

theorem lock_eq_some {move : SharedLock.Move n} (h : g.lock move = some g') :
    ∃ c, g.contest.Turn move c ∧ g' = { g with contest := c } := by
  obtain ⟨c, hc, h⟩ := Option.bind_eq_some_iff.1 h
  exact ⟨c, SharedLock.turn_of_fire hc, (Option.some.inj h).symm⟩

theorem free_of_isFree {m : Member} (h : m.isFree = true) : m.role = .free := by
  rw [Member.isFree] at h
  split at h
  · assumption
  · cases h

theorem turn_of_stepWait {i : Fin n} {w : Wait} {deadline : Option Nat} {checks : Nat}
    {stage : WaitStage} (here : (g.member i).role = .waiting w deadline checks stage)
    (h : g.stepWait i w deadline checks stage = some g') : Turn g (.step i) g' := by
  cases stage with
  | reckon =>
    cases h
    exact .reckon i w deadline checks here
  | check =>
    cases hc : w.condition with
    | none =>
      simp only [stepWait, hc] at h
      cases h
      exact .skip i w deadline checks here hc
    | some condition =>
      simp only [stepWait, hc] at h
      split at h
      · cases h
        exact .goOn i w deadline checks condition here hc ‹_›
      · cases h
        exact .finish i w deadline checks condition here hc (Bool.eq_false_iff.2 ‹_›)
  | look =>
    cases deadline with
    | none =>
      cases h
      exact .stay i w none checks here nofun
    | some d =>
      simp only [stepWait] at h
      cases h
      by_cases late : d ≤ g.contest.clock
      · rw [if_pos late]
        exact .expire i w d checks here late
      · rw [if_neg late]
        refine .stay i w (some d) checks here ?_
        rintro _ ⟨⟩
        exact Nat.lt_of_not_le late
  | note =>
    cases h
    exact .note i w deadline checks here
  | enroll generation =>
    obtain ⟨c, hc, rfl⟩ := lock_eq_some h
    exact .enroll i w deadline checks generation c here hc
  | parting generation =>
    obtain ⟨idle, h⟩ := Option.ite_none_right_eq_some.1 h
    cases h
    exact .part i w deadline checks generation here (of_decide_eq_true idle)
  | doze generation =>
    cases h
    by_cases same : g.signal.generation = generation
    · rw [if_pos same]
      exact .sleep i w deadline checks generation here same
    · rw [if_neg same]
      exact .miss i w deadline checks generation here same
  | asleep generation => cases h
  | leave cause =>
    obtain ⟨c, hc, rfl⟩ := lock_eq_some h
    exact .leave i w deadline checks cause c here hc
  | returning timedOut =>
    obtain ⟨idle, h⟩ := Option.ite_none_right_eq_some.1 h
    cases h
    by_cases hs : w.condition.isSome = true
    · rw [if_pos hs]
      exact .recheck i w deadline checks timedOut here (of_decide_eq_true idle) hs
    · rw [if_neg hs]
      exact .comeBack i w deadline checks timedOut here (of_decide_eq_true idle)
        (Option.not_isSome_iff_eq_none.1 hs)

theorem turn_of_stepNotify {i : Fin n} {all : Bool} {stage : NotifyStage}
    (here : (g.member i).role = .notifying all stage) (h : g.stepNotify i all stage = some g') :
    Turn g (.step i) g' := by
  cases stage with
  | advance =>
    cases h
    exact .advance i all here
  | count =>
    cases h
    by_cases nobody : g.signal.waiters = 0
    · rw [if_neg (by rw [nobody]; decide)]
      exact .rest i all here nobody
    · rw [if_pos (UInt32.pos_iff_ne_zero.2 nobody)]
      exact .heed i all here nobody
  | wake => cases h

theorem owesWake_eq_true {i : Fin n} {all : Bool} (h : g.owesWake i all = true) :
    (g.member i).role = .notifying all .wake := by
  rw [owesWake] at h
  split at h
  · rename_i here
    rw [here, eq_of_beq h]
  · cases h

theorem asleep_of_isAsleep {m : Member} (h : m.isAsleep = true) :
    ∃ w deadline checks generation, m.role = .waiting w deadline checks (.asleep generation) := by
  rw [Member.isAsleep] at h
  split at h
  · exact ⟨_, _, _, _, ‹_›⟩
  · cases h

theorem rouse_of_asleep {m : Member} {w : Wait} {deadline : Option Nat} {checks : Nat}
    {generation : UInt32} (h : m.role = .waiting w deadline checks (.asleep generation))
    (cause : Rousing) :
    m.rouse cause = { m with role := .waiting w deadline checks (.leave cause) } := by
  rw [Member.rouse, h]

theorem turn_of_wakeOne {i : Fin n} {sleeper : Option (Fin n)}
    (h : g.fire (.wakeOne i sleeper) = some g') : Turn g (.wakeOne i sleeper) g' := by
  rw [fire] at h
  split at h
  · cases h
  rename_i howes
  have here := owesWake_eq_true (by simpa using howes)
  have hi : ({ g.member i with role := .free } : Member).isAsleep = false := rfl
  cases sleeper with
  | some j =>
    obtain ⟨hasleep, h⟩ := Option.ite_none_right_eq_some.1 h
    have hne : j ≠ i := by
      rintro rfl
      rw [member_set_self, hi] at hasleep
      cases hasleep
    rw [member_set_of_ne _ _ hne] at hasleep h
    obtain ⟨w, deadline, checks, generation, there⟩ := asleep_of_isAsleep hasleep
    rw [rouse_of_asleep there] at h
    cases h
    exact .wakeOne i j w deadline checks generation here there
  | none =>
    obtain ⟨hnone, h⟩ := Option.ite_none_left_eq_some.1 h
    cases h
    refine .wakeNobody i here fun j => ?_
    rw [Option.not_isSome_iff_eq_none, sleeper?, List.find?_eq_none] at hnone
    by_cases hj : j = i
    · rw [hj, Member.isAsleep, here]
    · rw [← member_set_of_ne g { g.member i with role := .free } hj]
      exact Bool.eq_false_iff.2 (hnone j (List.mem_finRange j))

theorem turn_of_rouse {i : Fin n} {cause : Rousing} (h : g.fire (.rouse i cause) = some g') :
    Turn g (.rouse i cause) g' := by
  rw [fire] at h
  split at h
  · obtain ⟨uncalled, h⟩ := Option.ite_none_left_eq_some.1 h
    cases h
    exact .rouse i _ _ _ _ cause ‹_› ⟨_, .inl rfl⟩ uncalled
  · rename_i here
    obtain ⟨uncalled, h⟩ := Option.ite_none_left_eq_some.1 h
    rw [rouse_of_asleep here] at h
    cases h
    exact .rouse i _ _ _ _ cause here ⟨_, .inr rfl⟩ uncalled
  · cases h

theorem turn_of_fire {m : Move n} (h : g.fire m = some g') : Turn g m g' := by
  cases m with
  | lock move =>
    obtain ⟨allowed, h⟩ := Option.ite_none_right_eq_some.1 h
    obtain ⟨c, hc, rfl⟩ := lock_eq_some h
    exact .lock move c allowed hc
  | wait i w =>
    obtain ⟨hi, h⟩ := Option.ite_none_right_eq_some.1 h
    cases h
    obtain ⟨hi, holds⟩ := Bool.and_eq_true_iff.1 hi
    obtain ⟨free, idle⟩ := Bool.and_eq_true_iff.1 hi
    exact .wait i w (free_of_isFree free) (of_decide_eq_true idle) holds
  | notify i all =>
    obtain ⟨hi, h⟩ := Option.ite_none_right_eq_some.1 h
    cases h
    obtain ⟨free, idle⟩ := Bool.and_eq_true_iff.1 hi
    exact .notify i all (free_of_isFree free) (of_decide_eq_true idle)
  | step i =>
    cases here : (g.member i).role with
    | free => simp only [fire, here, reduceCtorEq] at h
    | waiting w deadline checks stage =>
      simp only [fire, here] at h
      exact turn_of_stepWait here h
    | notifying all stage =>
      simp only [fire, here] at h
      exact turn_of_stepNotify here h
  | wakeOne i sleeper => exact turn_of_wakeOne h
  | wakeAll i reached =>
    obtain ⟨hi, h⟩ := Option.ite_none_right_eq_some.1 h
    cases h
    obtain ⟨howes, named⟩ := Bool.and_eq_true_iff.1 hi
    exact .wakeAll i reached (owesWake_eq_true howes) (eq_of_beq named)
  | rouse i cause => exact turn_of_rouse h

end Cadence.SharedSignal
