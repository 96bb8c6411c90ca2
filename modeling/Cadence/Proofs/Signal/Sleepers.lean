import Mathlib.Data.List.FinRange
import Cadence.Proofs.Run
import Cadence.Proofs.Signal.Notifying

/-!
Any number of parties can be asleep at once: one after the other takes the lock, begins a bare wait and
lies down. What a party does on its way is followed move by move, and the others stay as they are. With
one sleeper more than a wake can name, a notification of all comes back and leaves that one asleep.
-/

namespace Cadence.SharedSignal

variable {n k : Nat} {g₀ g g' : SharedSignal n} {i : Fin n}

/-- What the moves of `i` alone have made of a state. -/
structure Alone (g₀ : SharedSignal n) (i : Fin n) (g : SharedSignal n) (state : UInt32) (doing : Doing)
    (holds : Bool) (role : Role) : Prop where
  word : g.contest.word.state = state
  doing : (g.contest.party i).doing = doing
  holds : (g.contest.party i).holds = holds
  role : (g.member i).role = role
  generation : g.signal.generation = g₀.signal.generation
  parties : ∀ j, j ≠ i → g.contest.party j = g₀.contest.party j
  members : ∀ j, j ≠ i → g.member j = g₀.member j

namespace Alone

variable {state : UInt32} {doing : Doing} {holds : Bool} {role : Role} {generation : UInt32}

theorem setRole (h : Alone g₀ i g state doing holds role) (role' : Role) :
    Alone g₀ i (g.set i { g.member i with role := role' }) state doing holds role' where
  word := h.word
  doing := h.doing
  holds := h.holds
  role := by rw [member_set_self]
  generation := h.generation
  parties := h.parties
  members j hj := (member_set_of_ne g _ hj).trans (h.members j hj)

theorem setParty (h : Alone g₀ i g state doing holds role) (w : LockWord) (p : Party) :
    Alone g₀ i { g with contest := { g.contest with word := w }.set i p } w.state p.doing p.holds
      role where
  word := rfl
  doing := by rw [SharedLock.party_set_self]
  holds := by rw [SharedLock.party_set_self]
  role := h.role
  generation := h.generation
  parties j hj := (SharedLock.party_set_of_ne _ p hj).trans (h.parties j hj)
  members := h.members

theorem call (h : Alone g₀ i g 0 .idle holds .free) :
    ∃ g' called, g.fire (.lock (.call i .forever)) = some g' ∧
      Alone g₀ i g' 0 (.acquiring { patience := .forever, called }) holds .free := by
  have hset := h.setParty g.contest.word { g.contest.party i with
    doing := .acquiring { patience := .forever, called := g.contest.clock } }
  rw [h.word, h.holds] at hset
  refine ⟨_, _, ?_, hset⟩
  simp only [fire, permits, Member.isFree, h.role, lock, SharedLock.fire, Party.isIdle, h.doing,
    decide_true, if_true]
  rfl

theorem take {called : Nat}
    (h : Alone g₀ i g 0 (.acquiring { patience := .forever, called }) holds .free) :
    ∃ g', g.fire (.lock (.step i)) = some g' ∧ Alone g₀ i g' 1 .idle true .free := by
  refine ⟨_, ?_, h.setParty { g.contest.word with state := 1 }
    { g.contest.party i with doing := .idle, holds := true, verdict := some .acquired }⟩
  simp only [fire, permits, if_true, lock, SharedLock.fire, SharedLock.step, h.doing, Attempt.step,
    h.word, decide_true, Bool.or_true]
  rfl

theorem wait (h : Alone g₀ i g 1 .idle true .free) : ∃ g', g.fire (.wait i {}) = some g' ∧
    Alone g₀ i g' 1 .idle true (.waiting {} none 0 .note) := by
  refine ⟨_, ?_, h.setRole _⟩
  simp only [fire, Member.isFree, h.role, Party.isIdle, h.doing, h.holds, decide_true]
  rfl

theorem note (h : Alone g₀ i g 1 .idle true (.waiting {} none 0 .note)) :
    ∃ g', g.fire (.step i) = some g' ∧
      Alone g₀ i g' 1 .idle true (.waiting {} none 0 (.enroll g₀.signal.generation)) := by
  refine ⟨_, ?_, h.setRole _⟩
  simp only [fire, h.role, stepWait, h.generation]

theorem enroll (h : Alone g₀ i g 1 .idle true (.waiting {} none 0 (.enroll generation))) :
    ∃ g', g.fire (.step i) = some g' ∧
      Alone g₀ i g' 1 .releasing true (.waiting {} none 0 (.parting generation)) := by
  let counted : SharedSignal n :=
    { g with signal := { g.signal with waiters := g.signal.waiters + 1 } }
  have hcounted : Alone g₀ i counted 1 .idle true (.waiting {} none 0 (.enroll generation)) :=
    { h with }
  have hset := (hcounted.setRole (.waiting {} none 0 (.parting generation))).setParty
    g.contest.word { g.contest.party i with doing := .releasing }
  rw [h.word, h.holds] at hset
  refine ⟨_, ?_, hset⟩
  simp only [fire, h.role, stepWait, lock, SharedLock.fire, set, Party.isIdle, h.doing, h.holds,
    decide_true, Bool.and_true, if_true]
  rfl

theorem release (h : Alone g₀ i g 1 .releasing true role) :
    ∃ g', g.fire (.lock (.step i)) = some g' ∧ Alone g₀ i g' 0 .idle false role := by
  refine ⟨_, ?_, h.setParty { g.contest.word with state := 0 }
    { g.contest.party i with doing := .idle, holds := false, seen := none }⟩
  simp only [fire, permits, if_true, lock, SharedLock.fire, SharedLock.step, h.doing, h.word]
  rfl

theorem part (h : Alone g₀ i g 0 .idle false (.waiting {} none 0 (.parting generation))) :
    ∃ g', g.fire (.step i) = some g' ∧
      Alone g₀ i g' 0 .idle false (.waiting {} none 0 (.doze generation)) := by
  refine ⟨_, ?_, h.setRole _⟩
  simp only [fire, h.role, stepWait, Party.isIdle, h.doing, decide_true, if_true]

theorem sleep (h : Alone g₀ i g 0 .idle false (.waiting {} none 0 (.doze g₀.signal.generation))) :
    ∃ g', g.fire (.step i) = some g' ∧
      Alone g₀ i g' 0 .idle false (.waiting {} none 0 (.asleep g₀.signal.generation)) := by
  refine ⟨_, ?_, h.setRole _⟩
  simp only [fire, h.role, stepWait, h.generation, if_true]

end Alone

/-- Falls asleep in a bare wait while nobody else wants the lock. -/
def lieDown (i : Fin n) : List (Move n) :=
  [.lock (.call i .forever), .lock (.step i), .wait i {}, .step i, .step i, .lock (.step i),
    .step i, .step i]

theorem exists_lieDown (h : Alone g₀ i g₀ 0 .idle false .free) :
    ∃ g, (lieDown i).foldlM fire g₀ = some g ∧
      Alone g₀ i g 0 .idle false (.waiting {} none 0 (.asleep g₀.signal.generation)) := by
  obtain ⟨g₁, called, hcall, h₁⟩ := h.call
  obtain ⟨g₂, htake, h₂⟩ := h₁.take
  obtain ⟨g₃, hwait, h₃⟩ := h₂.wait
  obtain ⟨g₄, hnote, h₄⟩ := h₃.note
  obtain ⟨g₅, henroll, h₅⟩ := h₄.enroll
  obtain ⟨g₆, hrelease, h₆⟩ := h₅.release
  obtain ⟨g₇, hpart, h₇⟩ := h₆.part
  obtain ⟨g₈, hsleep, h₈⟩ := h₇.sleep
  refine ⟨g₈, ?_, h₈⟩
  simp only [lieDown, List.foldlM_cons, hcall, htake, hwait, hnote, henroll, hrelease, hpart, hsleep,
    Option.bind_eq_bind, Option.bind_some, List.foldlM_nil]
  rfl

/-- The first `k` parties are asleep, and the others have done nothing yet. -/
structure Resting (g : SharedSignal n) (k : Nat) : Prop where
  word : g.contest.word.state = 0
  idle : ∀ i, (g.contest.party i).doing = .idle ∧ (g.contest.party i).holds = false
  asleep : ∀ i, (g.member i).isAsleep = decide (i.val < k)
  free : ∀ i : Fin n, k ≤ i.val → (g.member i).role = .free

theorem resting_start (value : UInt64) (signal : SignalWord) : (start n value signal).Resting 0 where
  word := rfl
  idle i := by
    have hparty : (start n value signal).contest.party i = {} := SharedLock.party_start {} value i
    rw [hparty]
    exact ⟨rfl, rfl⟩
  asleep i := by
    rw [member_start]
    exact (decide_eq_false (Nat.not_lt_zero _)).symm
  free i _ := by rw [member_start]

theorem Resting.succ (h : g.Resting i.val) :
    ∃ g', (lieDown i).foldlM fire g = some g' ∧ g'.Resting (i.val + 1) := by
  have halone : Alone g i g 0 .idle false .free :=
    ⟨h.word, (h.idle i).1, (h.idle i).2, h.free i (Nat.le_refl _), rfl, fun _ _ => rfl,
      fun _ _ => rfl⟩
  obtain ⟨g', hrun, hi⟩ := exists_lieDown halone
  refine ⟨g', hrun, hi.word, fun j => ?_, fun j => ?_, fun j hj => ?_⟩
  · by_cases hj : j = i
    · rw [hj]
      exact ⟨hi.doing, hi.holds⟩
    · rw [hi.parties j hj]
      exact h.idle j
  · by_cases hj : j = i
    · rw [hj, Member.isAsleep, hi.role]
      exact (decide_eq_true (Nat.lt_succ_self _)).symm
    · rw [hi.members j hj, h.asleep j]
      have hne : j.val ≠ i.val := fun h => hj (Fin.ext h)
      exact decide_eq_decide.2 (by omega)
  · rw [hi.members j (Fin.ne_of_gt hj)]
    exact h.free j (Nat.le_of_succ_le hj)

theorem notify_not_mem_lieDown (j : Fin n) (all : Bool) : Move.notify j all ∉ lieDown i := by
  simp only [lieDown, List.mem_cons, List.not_mem_nil, reduceCtorEq, or_false, not_false_eq_true]

theorem exists_resting (value : UInt64) (signal : SignalWord) (hk : k ≤ n) :
    ∃ (moves : List (Move n)) (g : SharedSignal n),
      moves.foldlM fire (start n value signal) = some g ∧ g.Resting k ∧
      ∀ j all, Move.notify j all ∉ moves := by
  induction k with
  | zero => exact ⟨[], _, rfl, resting_start value signal, fun _ _ => List.not_mem_nil⟩
  | succ k ih =>
    obtain ⟨moves, g, hrun, hg, hmoves⟩ := ih (Nat.le_of_succ_le hk)
    obtain ⟨g', hrun', hg'⟩ := hg.succ (i := ⟨k, hk⟩)
    refine ⟨moves ++ lieDown ⟨k, hk⟩, g', foldlM_append_eq_some.2 ⟨g, hrun, hrun'⟩, hg', ?_⟩
    intro j all hmem
    rcases List.mem_append.1 hmem with hmem | hmem
    · exact hmoves j all hmem
    · exact notify_not_mem_lieDown j all hmem

theorem countP_lt_range (k n : Nat) : (List.range n).countP (fun i => decide (i < k)) = min n k := by
  induction n with
  | zero => exact (Nat.zero_min k).symm
  | succ n ih =>
    rw [List.range_succ, List.countP_append, ih, List.countP_singleton]
    simp only [decide_eq_true_eq]
    split <;> omega

theorem asleep_eq (hk : k ≤ n) (h : ∀ i, (g.member i).isAsleep = decide (i.val < k)) :
    g.asleep = k := by
  have hmembers : g.members = Vector.ofFn g.member := by
    refine Vector.ext fun i hi => ?_
    rw [Vector.getElem_ofFn]
    rfl
  have hfun : (·.isAsleep) ∘ g.member = (fun i => decide (i < k)) ∘ Fin.val := funext h
  rw [asleep, hmembers, ← Vector.countP_toList, Vector.toList_ofFn, List.ofFn_eq_map,
    List.countP_map, hfun, ← List.countP_map, List.map_coe_finRange_eq_range, countP_lt_range]
  exact Nat.min_eq_right hk

/-- A notification that finds more sleepers than a wake can name. -/
structure Spares (g g₁ g₂ g₃ g₄ : SharedSignal (n + 1)) : Prop where
  begins : g.fire (.notify (.last n) true) = some g₁
  advancing : (g₁.member (.last n)).role = .notifying true .advance
  advances : g₁.fire (.step (.last n)) = some g₂
  counting : (g₂.member (.last n)).role = .notifying true .count
  heeds : g₂.fire (.step (.last n)) = some g₃
  waking : (g₃.member (.last n)).role = .notifying true .wake
  wakes : g₃.fire (.wakeAll (.last n) (· ≠ 0)) = some g₄
  back : (g₄.member (.last n)).role = .free
  asleep : (g₄.member 0).isAsleep = true

theorem exists_spares {g : SharedSignal (n + 1)} (h : g.Resting n) (hc : g.Counted)
    (hmany : 1 + Waiting.sleeping.wake n 4294967295 = n) (hn : n + 1 < UInt32.size) :
    ∃ g₁ g₂ g₃ g₄, Spares g g₁ g₂ g₃ g₄ := by
  have hne : n ≠ 0 := by
    rintro rfl
    cases hmany
  have hzero : (0 : Fin (n + 1)) ≠ .last n := fun h => hne (congrArg Fin.val h).symm
  let g₁ := g.set (.last n) { g.member (.last n) with role := .notifying true .advance }
  have hadvancing : (g₁.member (.last n)).role = .notifying true .advance := by
    rw [member_set_self]
  have hbegins := fire_notify (h.free (.last n) (Nat.le_refl n)) (h.idle (.last n)).1 true
  let g₂ := { g₁ with signal := g₁.signal.notify }.set (.last n)
    { g₁.member (.last n) with role := .notifying true .count }
  have hcounting : (g₂.member (.last n)).role = .notifying true .count := by
    rw [member_set_self]
  have hadvances := fire_advance hadvancing
  have hothers : ∀ j, j ≠ .last n → g₂.member j = g.member j := fun j hj =>
    (member_set_of_ne _ _ hj).trans (member_set_of_ne g _ hj)
  have hsomebody : g₂.signal.waiters ≠ 0 := by
    have hc₂ : g₂.Counted :=
      counted_turn (counted_turn hc (turn_of_fire hbegins)) (turn_of_fire hadvances)
    refine hc₂.waiters_ne_zero hn (i := 0) (isRegistered_of_isAsleep ?_)
    rw [hothers 0 hzero, h.asleep]
    exact decide_eq_true (Nat.pos_of_ne_zero hne)
  let g₃ := g₂.set (.last n) { g₂.member (.last n) with role := .notifying true .wake }
  have hwaking : (g₃.member (.last n)).role = .notifying true .wake := by rw [member_set_self]
  have hsleepers : ∀ j, (g₃.member j).isAsleep = decide (j.val < n) := by
    intro j
    by_cases hj : j = .last n
    · rw [hj, Member.isAsleep, hwaking]
      exact (decide_eq_false (Nat.lt_irrefl n)).symm
    · rw [member_set_of_ne _ _ hj, hothers j hj, h.asleep]
  let g₄ := (g₃.set (.last n) { g₃.member (.last n) with role := .free }).rouseAll (· ≠ 0)
  have hspared : ∀ j, (g₄.member j).isAsleep = decide (j.val < 1) := by
    intro j
    rw [member_rouseAll]
    by_cases hj : j = 0
    · rw [hj, member_set_of_ne _ _ hzero, if_neg (by simp), hsleepers]
      exact decide_eq_decide.2 (iff_of_true (Nat.pos_of_ne_zero hne) Nat.one_pos)
    · rw [if_pos (decide_eq_true hj), isAsleep_rouse]
      exact (decide_eq_false fun hlt => hj (Fin.ext (Nat.lt_one_iff.1 hlt))).symm
  have hnamed : g₄.asleep + Waiting.sleeping.wake g₃.asleep 4294967295 = g₃.asleep := by
    rw [asleep_eq (Nat.le_add_left 1 n) hspared, asleep_eq (Nat.le_succ n) hsleepers]
    exact hmany
  refine ⟨g₁, g₂, g₃, g₄, hbegins, hadvancing, hadvances, hcounting, fire_heed hcounting hsomebody,
    hwaking, fire_wakeAll hwaking hnamed, role_of_wakeAll (turn_of_fire (fire_wakeAll hwaking hnamed)),
    ?_⟩
  rw [hspared]
  rfl

end Cadence.SharedSignal
