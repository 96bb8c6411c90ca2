import Cadence.Proofs.Lock.Trying
import Cadence.Proofs.Signal.Noting

/-!
Waits that may take a time and no longer, among all that goes on around a signal. A wait for a
condition goes on from a check that finds the condition still there, and ends at one that does not or
when its deadline has come. The steps by which a call is made, reckons its deadline and checks its
condition are told apart from all others.
-/

namespace Cadence

/-- The longest that a wait under way for a condition may take, if it may not take forever. -/
def Member.timeout? (m : Member) : Option Nat :=
  match m.role with
  | .waiting w _ _ _ => if w.condition.isSome then w.timeout else none
  | _ => none

theorem Member.waiting_of_timeout? {m : Member} {timeout : Nat} (h : m.timeout? = some timeout) :
    ∃ w deadline checks stage, m.role = .waiting w deadline checks stage ∧
      w.condition.isSome = true ∧ w.timeout = some timeout := by
  rw [timeout?] at h
  split at h
  · obtain ⟨asked, h⟩ := Option.ite_none_right_eq_some.1 h
    exact ⟨_, _, _, _, ‹_›, asked, h⟩
  · cases h

namespace SharedSignal

variable {n : Nat} {g g' : SharedSignal n} {move : Move n} {i : Fin n}

inductive Errand where
  | lock
  | wait
  deriving DecidableEq

inductive Step where
  | call
  | reckon
  | check (still : Bool)
  deriving DecidableEq

structure Occasion (n : Nat) where
  party : Fin n
  errand : Errand
  step : Step
  deriving DecidableEq

def occasion? (g : SharedSignal n) : Move n → Option (Occasion n)
  | .lock (.call i _) => some ⟨i, .lock, .call⟩
  | .lock (.step i) =>
    match (g.contest.party i).doing with
    | .acquiring a => if a.stage = .reckon then some ⟨i, .lock, .reckon⟩ else none
    | _ => none
  | .wait i _ => some ⟨i, .wait, .call⟩
  | .step i =>
    match (g.member i).role with
    | .waiting _ _ _ .reckon => some ⟨i, .wait, .reckon⟩
    | .waiting w _ _ .check =>
      w.condition.map fun condition => ⟨i, .wait, .check (condition g.contest.value).1⟩
    | _ => none
  | _ => none

theorem occasion?_of_reckoning {a : Attempt} (doing : (g.contest.party i).doing = .acquiring a)
    (stage : a.stage = .reckon) : g.occasion? (.lock (.step i)) = some ⟨i, .lock, .reckon⟩ := by
  rw [occasion?, doing]
  exact if_pos stage

theorem occasion?_of_acquiring {a : Attempt} (doing : (g.contest.party i).doing = .acquiring a)
    (stage : a.stage ≠ .reckon) : g.occasion? (.lock (.step i)) = none := by
  rw [occasion?, doing]
  exact if_neg stage

theorem occasion?_of_reckon {w : Wait} {deadline : Option Nat} {checks : Nat}
    (role : (g.member i).role = .waiting w deadline checks .reckon) :
    g.occasion? (.step i) = some ⟨i, .wait, .reckon⟩ := by rw [occasion?, role]

theorem occasion?_of_check {w : Wait} {deadline : Option Nat} {checks : Nat}
    {condition : UInt64 → Bool × UInt64}
    (role : (g.member i).role = .waiting w deadline checks .check)
    (asked : w.condition = some condition) :
    g.occasion? (.step i) = some ⟨i, .wait, .check (condition g.contest.value).1⟩ := by
  rw [occasion?, role]
  dsimp only
  rw [asked]
  rfl

/-- Only a move of the lock is part of a call for it. -/
theorem errand_of_not_lock (hmove : ∀ m, move ≠ .lock m) {o : Occasion n}
    (ho : g.occasion? move = some o) : o.errand = .wait := by
  cases move with
  | lock m => exact absurd rfl (hmove m)
  | wait =>
    cases ho
    rfl
  | step j =>
    rw [occasion?] at ho
    split at ho
    · cases ho
      rfl
    · obtain ⟨condition, -, rfl⟩ := Option.map_eq_some_iff.1 ho
      rfl
    · cases ho
  | notify | wakeOne | wakeAll | rouse => cases ho

/-- A call for the lock is remembered when it is made and when it reckons. -/
theorem occasion?_lock {m : SharedLock.Move n} {o : Occasion n}
    (ho : g.occasion? (.lock m) = some o) : o.errand = .lock ∧
      ((∃ patience, m = .call o.party patience) ∨ m = .step o.party ∧
        ∃ a, (g.contest.party o.party).doing = .acquiring a ∧ a.stage = .reckon) := by
  cases m with
  | call j patience =>
    cases ho
    exact ⟨rfl, .inl ⟨patience, rfl⟩⟩
  | step j =>
    rw [occasion?] at ho
    split at ho
    · obtain ⟨stage, ⟨⟩⟩ := Option.ite_none_right_eq_some.1 ho
      exact ⟨rfl, .inr ⟨rfl, _, ‹_›, stage⟩⟩
    · cases ho
  | release | wake | rouse | pass | load | store => cases ho

/-- Around the lock a move makes at most one of its moves. -/
theorem contest_of_turn (turn : Turn g move g') :
    (∃ m, move = .lock m ∧ g.contest.Turn m g'.contest) ∨
      (∀ m, move ≠ .lock m) ∧ ((∃ j, g.contest.Turn (.release j) g'.contest ∨
          g.contest.Turn (.call j .forever) g'.contest) ∨
        g'.contest.parties = g.contest.parties ∧ g'.contest.clock = g.contest.clock) := by
  cases turn with
  | lock m c allowed turn => exact .inl ⟨m, rfl, turn⟩
  | enroll i w deadline checks generation c here turn => exact .inr ⟨nofun, .inl ⟨i, .inl turn⟩⟩
  | leave i w deadline checks cause c here turn => exact .inr ⟨nofun, .inl ⟨i, .inr turn⟩⟩
  | _ => exact .inr ⟨nofun, .inr ⟨rfl, rfl⟩⟩

theorem role_set_elim {j : Fin n} {m : Member} {role : Role} (h : ((g.set j m).member i).role = role) :
    (i = j ∧ m.role = role) ∨ (i ≠ j ∧ (g.member i).role = role) :=
  member_set_elim (P := fun m => m.role = role) h

theorem party_of_step {j : Fin n} {o : Occasion n} (ho : g.occasion? (.step j) = some o) :
    o.party = j := by
  rw [occasion?] at ho
  split at ho
  · cases ho
    rfl
  · obtain ⟨condition, -, rfl⟩ := Option.map_eq_some_iff.1 ho
    rfl
  · cases ho

theorem role_of_rouse {m : Member} {cause : Rousing} {w : Wait} {deadline : Option Nat}
    {checks : Nat} {stage : WaitStage}
    (h : (m.rouse cause).role = .waiting w deadline checks stage) :
    ∃ stage', m.role = .waiting w deadline checks stage' ∧ (stage = .look → stage' = .look) := by
  unfold Member.rouse at h
  split at h
  · cases h
    exact ⟨_, ‹_›, nofun⟩
  · exact ⟨stage, h, id⟩

theorem role_of_rouseAll {reached : Fin n → Bool} {w : Wait} {deadline : Option Nat} {checks : Nat}
    {stage : WaitStage}
    (h : ((g.rouseAll reached).member i).role = .waiting w deadline checks stage) :
    ∃ stage', (g.member i).role = .waiting w deadline checks stage' ∧
      (stage = .look → stage' = .look) := by
  rw [member_rouseAll] at h
  split at h
  · exact role_of_rouse h
  · exact ⟨stage, h, id⟩

theorem role_of_rouse_free {m : Member} {cause : Rousing} (h : (m.rouse cause).role = .free) :
    m.role = .free := by
  unfold Member.rouse at h
  split at h
  · cases h
  · exact h

/-- How a wait comes by its deadline, or by none, and to its stage. -/
inductive Waits (g : SharedSignal n) (move : Move n) (i : Fin n) (w : Wait) :
    Option Nat → WaitStage → Prop
  | called (here : move = .wait i w) : Waits g move i w none (entry w)
  | reckoned (deadline : Option Nat) (checks : Nat) (here : move = .step i)
      (role : (g.member i).role = .waiting w deadline checks .reckon) :
      Waits g move i w (w.timeout >>= Clock.deadline? g.contest.clock) .check
  | checked (deadline : Option Nat) (checks : Nat) (condition : UInt64 → Bool × UInt64)
      (here : move = .step i) (role : (g.member i).role = .waiting w deadline checks .check)
      (asked : w.condition = some condition) (still : (condition g.contest.value).1 = true) :
      Waits g move i w deadline (onward w)
  | goesOn (deadline : Option Nat) (checks : Nat) (stage stage' : WaitStage)
      (role : (g.member i).role = .waiting w deadline checks stage)
      (quiet : ∀ step, g.occasion? move ≠ some ⟨i, .wait, step⟩)
      (same : stage' = .look → stage = .look) : Waits g move i w deadline stage'

theorem waits_of_turn (turn : Turn g move g') {w : Wait} {deadline : Option Nat} {checks : Nat}
    {stage : WaitStage} (h : (g'.member i).role = .waiting w deadline checks stage) :
    g.Waits move i w deadline stage := by
  have hstay (quiet : ∀ step, g.occasion? move ≠ some ⟨i, .wait, step⟩)
      (h : (g.member i).role = .waiting w deadline checks stage) :
      g.Waits move i w deadline stage := .goesOn deadline checks stage stage h quiet id
  have hother {j : Fin n} (hj : i ≠ j) (step : Step) :
      g.occasion? (.step j) ≠ some ⟨i, .wait, step⟩ := fun ho => hj (party_of_step ho)
  cases turn with
  | lock m => exact hstay (fun _ ho => nomatch (occasion?_lock ho).1) h
  | wait j w' free =>
    rcases role_set_elim h with ⟨rfl, h⟩ | ⟨hj, h⟩
    · cases h
      exact .called rfl
    · refine hstay (fun _ => ?_) h
      rintro ⟨⟩
      exact hj rfl
  | notify j all free | wakeNobody j here =>
    rcases role_set_elim h with ⟨-, h⟩ | ⟨-, h⟩
    · cases h
    · exact hstay nofun h
  | reckon j w' deadline' checks' here =>
    rcases role_set_elim h with ⟨rfl, h⟩ | ⟨hj, h⟩
    · cases h
      exact .reckoned deadline' checks rfl here
    · exact hstay (hother hj) h
  | goOn j w' deadline' checks' condition here asked still =>
    rcases role_set_elim h with ⟨rfl, h⟩ | ⟨hj, h⟩
    · cases h
      exact .checked deadline checks' condition rfl here asked still
    · exact hstay (hother hj) h
  | skip j w' deadline' checks' here bare =>
    rcases role_set_elim h with ⟨rfl, h⟩ | ⟨hj, h⟩
    · cases h
      refine .goesOn deadline checks .check .note here ?_ nofun
      rw [occasion?, here]
      dsimp only
      rw [bare]
      nofun
    · exact hstay (hother hj) h
  | stay j w' deadline' checks' here | note j w' deadline' checks' here
  | part j w' deadline' checks' generation here | sleep j w' deadline' checks' generation here
  | miss j w' deadline' checks' generation here | recheck j w' deadline' checks' timedOut here =>
    rcases role_set_elim h with ⟨rfl, h⟩ | ⟨hj, h⟩
    · cases h
      refine .goesOn deadline checks _ _ here ?_ nofun
      rw [occasion?, here]
      nofun
    · exact hstay (hother hj) h
  | enroll j w' deadline' checks' generation c here
  | leave j w' deadline' checks' cause c here =>
    rcases role_set_elim h with ⟨rfl, h⟩ | ⟨hj, h⟩
    · cases h
      refine .goesOn deadline checks _ _ here ?_ nofun
      rw [occasion?, here]
      nofun
    · exact hstay (hother hj) h
  | finish j | expire j | comeBack j | advance j | rest j | heed j =>
    rcases role_set_elim h with ⟨-, h⟩ | ⟨hj, h⟩
    · cases h
    · exact hstay (hother hj) h
  | wakeOne j k w' deadline' checks' generation here there =>
    rcases role_set_elim h with ⟨rfl, h⟩ | ⟨-, h⟩
    · cases h
      exact .goesOn deadline checks _ _ there nofun nofun
    rcases role_set_elim h with ⟨-, h⟩ | ⟨-, h⟩
    · cases h
    · exact hstay nofun h
  | wakeAll j =>
    obtain ⟨stage', hrole, hlook⟩ := role_of_rouseAll h
    rcases role_set_elim hrole with ⟨-, hrole⟩ | ⟨-, hrole⟩
    · cases hrole
    · exact .goesOn deadline checks stage' stage hrole nofun hlook
  | rouse j w' deadline' checks' stage' cause here =>
    rcases role_set_elim h with ⟨rfl, h⟩ | ⟨-, h⟩
    · cases h
      exact .goesOn deadline checks _ _ here nofun nofun
    · exact hstay nofun h

/-- A wait for a condition ends at a check that finds it over, or when its time is. -/
theorem freed_of_turn (turn : Turn g move g') {w : Wait} {deadline : Option Nat} {checks : Nat}
    {stage : WaitStage} (here : (g.member i).role = .waiting w deadline checks stage)
    (asked : w.condition.isSome = true) (h : (g'.member i).role = .free) :
    g'.contest.parties = g.contest.parties ∧
      (stage = .check ∧ g.occasion? move = some ⟨i, .wait, .check false⟩ ∧
          (g'.member i).report = some ⟨false, checks + 1⟩ ∨
        stage = .look ∧ g.occasion? move = none ∧
          (∃ d, deadline = some d ∧ d ≤ g'.contest.clock) ∧
          (g'.member i).report = some ⟨true, checks⟩) := by
  have hstay : (g.member i).role ≠ .free := by
    rw [here]
    nofun
  cases turn with
  | lock => exact absurd h hstay
  | finish j w' deadline' checks' condition here' asked' settled =>
    rcases role_set_elim h with ⟨rfl, -⟩ | ⟨-, h⟩
    · cases here.symm.trans here'
      refine ⟨rfl, .inl ⟨rfl, ?_, by rw [member_set_self]⟩⟩
      rw [occasion?_of_check here asked', settled]
    · exact absurd h hstay
  | expire j w' deadline' checks' here' late =>
    rcases role_set_elim h with ⟨rfl, -⟩ | ⟨-, h⟩
    · cases here.symm.trans here'
      exact ⟨rfl, .inr ⟨rfl, by rw [occasion?, here], ⟨deadline', rfl, late⟩,
        by rw [member_set_self]⟩⟩
    · exact absurd h hstay
  | comeBack j w' deadline' checks' timedOut here' idle bare =>
    rcases role_set_elim h with ⟨rfl, -⟩ | ⟨-, h⟩
    · cases here.symm.trans here'
      rw [bare] at asked
      cases asked
    · exact absurd h hstay
  | rest j all here' | wakeNobody j here' =>
    rcases role_set_elim h with ⟨rfl, -⟩ | ⟨-, h⟩
    · cases here.symm.trans here'
    · exact absurd h hstay
  | wakeOne j k w' deadline' checks' generation here' =>
    rcases role_set_elim h with ⟨-, h⟩ | ⟨-, h⟩
    · cases h
    rcases role_set_elim h with ⟨rfl, -⟩ | ⟨-, h⟩
    · cases here.symm.trans here'
    · exact absurd h hstay
  | wakeAll j reached here' =>
    have h := member_rouseAll_elim (P := fun m => m.role = _) h fun _ => role_of_rouse_free
    rcases role_set_elim h with ⟨rfl, -⟩ | ⟨-, h⟩
    · cases here.symm.trans here'
    · exact absurd h hstay
  | wait j | notify j | reckon j | skip j | goOn j | stay j | note j | enroll j | part j | sleep j
  | miss j | leave j | recheck j | advance j | heed j | rouse j =>
    rcases role_set_elim h with ⟨-, h⟩ | ⟨-, h⟩
    · cases h
    · exact absurd h hstay

/-- What the other moves do around the lock leaves the attempts that wait for a time alone. -/
theorem acquiring_of_beside {b : Attempt} {timeout : Nat}
    (hc : (∃ j, g.contest.Turn (.release j) g'.contest ∨
        g.contest.Turn (.call j .forever) g'.contest) ∨
      g'.contest.parties = g.contest.parties ∧ g'.contest.clock = g.contest.clock)
    (hb : (g'.contest.party i).doing = .acquiring b) (within : b.patience = .within timeout) :
    ∃ a, (g.contest.party i).doing = .acquiring a ∧ a.patience = .within timeout ∧
      a.deadline = b.deadline ∧ (g'.contest.party i).holds = (g.contest.party i).holds := by
  rcases hc with ⟨j, hc | hc⟩ | ⟨hparties, -⟩
  · obtain ⟨a, doing, within, hdue⟩ := (SharedLock.tries_of_turn hc hb within).of_ne nofun nofun
    exact ⟨a, doing, within, hdue, SharedLock.holds_of_acquiring hc hb⟩
  · obtain ⟨a, doing, within, hdue⟩ := (SharedLock.tries_of_turn hc hb within).of_ne nofun nofun
    exact ⟨a, doing, within, hdue, SharedLock.holds_of_acquiring hc hb⟩
  · rw [SharedLock.party_congr hparties] at hb ⊢
    exact ⟨b, hb, within, rfl, rfl⟩

theorem clock_le_of_turn (turn : Turn g move g') : g.contest.clock ≤ g'.contest.clock := by
  rcases contest_of_turn turn with ⟨m, -, hc⟩ | ⟨-, ⟨j, hc | hc⟩ | ⟨-, hc⟩⟩
  · exact SharedLock.clock_le_of_turn hc
  · exact SharedLock.clock_le_of_turn hc
  · exact SharedLock.clock_le_of_turn hc
  · exact Nat.le_of_eq hc.symm

end SharedSignal

end Cadence
