import Cadence.Lock.Shared

/-!
What a move around a lock can do, said once. An attempt has one case for each way out of each of its
steps; a move around the lock has one for each way in which it is possible. What is proved about the
lock is proved by going through these.
-/

namespace Cadence

namespace Attempt

inductive Turn (w : LockWord) (now : Nat) (a : Attempt) : LockWord → Attempt ⊕ Verdict → Prop
  | take (here : a.stage = .knock) (free : w.state = 0) :
      Turn w now a { w with state := 1 } (.inr .acquired)
  | refuse (here : a.stage = .knock) (taken : w.state ≠ 0) (once : a.patience = .once) :
      Turn w now a w (.inr .refused)
  | persist (here : a.stage = .knock) (taken : w.state ≠ 0) (forever : a.patience = .forever) :
      Turn w now a w (.inl (a.moveTo .swap))
  | allow (timeout : Nat) (here : a.stage = .knock) (taken : w.state ≠ 0)
      (within : a.patience = .within timeout) : Turn w now a w (.inl (a.moveTo .reckon))
  | reckon (timeout : Nat) (here : a.stage = .reckon) (within : a.patience = .within timeout) :
      Turn w now a w
        (.inl { a with deadline := Clock.deadline? now timeout, stage := .swap })
  | skip (here : a.stage = .reckon) (endless : ∀ timeout, a.patience ≠ .within timeout) :
      Turn w now a w (.inl (a.moveTo .swap))
  | seize (here : a.stage = .swap) (free : w.state = 0) :
      Turn w now a { w with state := 2 } (.inr .acquired)
  | mark (here : a.stage = .swap) (taken : w.state ≠ 0) :
      Turn w now a { w with state := 2 } (.inl (a.moveTo a.afterSwap))
  | expire (deadline : Nat) (here : a.stage = .look) (due : a.deadline = some deadline)
      (late : deadline ≤ now) : Turn w now a w (.inr .timedOut)
  | stay (here : a.stage = .look) (early : ∀ d, a.deadline = some d → now < d) :
      Turn w now a w (.inl (a.moveTo .enroll))
  | enroll (here : a.stage = .enroll) :
      Turn w now a { w with waiters := w.waiters + 1 } (.inl (a.moveTo .doze))
  | sleep (here : a.stage = .doze) (marked : w.state = 2) : Turn w now a w (.inl (a.moveTo .asleep))
  | miss (here : a.stage = .doze) (changed : w.state ≠ 2) :
      Turn w now a w (.inl (a.moveTo (.leave .woken)))
  | retry (cause : Rousing) (here : a.stage = .leave cause)
      (goesOn : ∀ why timeout, cause = .failed why → a.patience ≠ .within timeout) :
      Turn w now a { w with waiters := w.waiters - 1 } (.inl (a.moveTo .swap))
  | giveUp (why : Errno) (timeout : Nat) (here : a.stage = .leave (.failed why))
      (within : a.patience = .within timeout) :
      Turn w now a { w with waiters := w.waiters - 1 } (.inr (.failed why))

theorem turn_of_step {w w' : LockWord} {now : Nat} {a : Attempt} {r : Attempt ⊕ Verdict}
    (awake : a.stage ≠ .asleep) (h : a.step w now = (w', r)) : Turn w now a w' r := by
  obtain ⟨rfl, rfl⟩ : (a.step w now).1 = w' ∧ (a.step w now).2 = r := by rw [h]; exact ⟨rfl, rfl⟩
  clear h
  obtain ⟨patience, called, deadline, stage⟩ := a
  cases stage with
  | knock =>
    dsimp only [step]
    by_cases free : w.state = 0
    · rw [if_pos free]
      exact .take rfl free
    · rw [if_neg free]
      cases patience with
      | once => exact .refuse rfl free rfl
      | forever => exact .persist rfl free rfl
      | within timeout => exact .allow timeout rfl free rfl
  | reckon =>
    cases patience with
    | within timeout => exact .reckon timeout rfl rfl
    | once | forever => exact .skip rfl nofun
  | swap =>
    dsimp only [step]
    by_cases free : w.state = 0
    · rw [if_pos free]
      exact .seize rfl free
    · rw [if_neg free]
      exact .mark rfl free
  | look =>
    cases deadline with
    | none => exact .stay rfl nofun
    | some deadline =>
      dsimp only [step]
      by_cases late : deadline ≤ now
      · rw [if_pos late]
        exact .expire deadline rfl rfl late
      · rw [if_neg late]
        refine .stay rfl ?_
        rintro d ⟨⟩
        exact Nat.lt_of_not_le late
  | enroll => exact .enroll rfl
  | doze =>
    dsimp only [step]
    by_cases marked : w.state = 2
    · rw [if_pos marked]
      exact .sleep rfl marked
    · rw [if_neg marked]
      exact .miss rfl marked
  | asleep => exact absurd rfl awake
  | leave cause =>
    cases cause with
    | failed why =>
      cases patience with
      | within timeout => exact .giveUp why timeout rfl rfl
      | once | forever => exact .retry _ rfl nofun
    | woken | spurious | timedOut => exact .retry _ rfl nofun

end Attempt

namespace SharedLock

variable {n : Nat} {c c' : SharedLock n}

@[simp] theorem party_set_self (c : SharedLock n) (i : Fin n) (p : Party) : (c.set i p).party i = p :=
  get_replaceAt_self c.parties i p

theorem party_set_of_ne (c : SharedLock n) {i j : Fin n} (p : Party) (h : j ≠ i) :
    (c.set i p).party j = c.party j := get_replaceAt_of_ne c.parties p h

/-- A step of the party `i` leaves the others as they are. -/
theorem party_eq_of_set {i : Fin n} {p : Party} (h : c'.parties = (c.set i p).parties) :
    c'.party i = p ∧ ∀ j, j ≠ i → c'.party j = c.party j := by
  refine ⟨?_, fun j hj => ?_⟩
  · rw [party, h, ← party, party_set_self]
  · rw [party, h, ← party, party_set_of_ne c p hj]

theorem ne_of_waking {i j : Fin n} {a : Attempt} (here : (c.party i).doing = .waking)
    (there : (c.party j).doing = .acquiring a) : j ≠ i := by
  rintro rfl
  cases here.symm.trans there

@[simp] theorem party_start (w : LockWord) (value : UInt64) (i : Fin n) :
    (start n w value).party i = {} := by
  change (Vector.replicate n ({} : Party))[i.val] = {}
  rw [Vector.getElem_replicate]

theorem isAsleep_of_sleeper? (h : ¬c.sleeper?.isSome) (i : Fin n) :
    (c.party i).isAsleep = false := by
  rw [Option.not_isSome_iff_eq_none, sleeper?, List.find?_eq_none] at h
  exact Bool.eq_false_iff.2 (h i (List.mem_finRange i))

inductive Turn (c : SharedLock n) : Move n → SharedLock n → Prop
  | call (i : Fin n) (patience : Patience) (idle : (c.party i).doing = .idle) :
      Turn c (.call i patience)
        (c.set i { c.party i with doing := .acquiring { patience, called := c.clock } })
  | release (i : Fin n) (idle : (c.party i).doing = .idle) (holds : (c.party i).holds = true) :
      Turn c (.release i) (c.set i { c.party i with doing := .releasing })
  | goOn (i : Fin n) (a b : Attempt) (w : LockWord) (here : (c.party i).doing = .acquiring a)
      (turn : a.Turn c.word c.clock w (.inl b)) :
      Turn c (.step i) ({ c with word := w }.set i { c.party i with doing := .acquiring b })
  | comeBack (i : Fin n) (a : Attempt) (v : Verdict) (w : LockWord)
      (here : (c.party i).doing = .acquiring a) (turn : a.Turn c.word c.clock w (.inr v)) :
      Turn c (.step i) ({ c with word := w }.set i { c.party i with
        doing := .idle, holds := (c.party i).holds || v = Verdict.acquired, verdict := some v })
  | free (i : Fin n) (here : (c.party i).doing = .releasing) :
      Turn c (.step i) ({ c with word := { c.word with state := 0 } }.set i { c.party i with
        doing := if c.word.state = 2 then .waking else .idle, holds := false, seen := none })
  | wake (i j : Fin n) (a : Attempt) (here : (c.party i).doing = .waking)
      (there : (c.party j).doing = .acquiring a) (asleep : a.stage = .asleep) :
      Turn c (.wake i (some j)) ((c.set i { c.party i with doing := .idle }).set j
        { c.party j with doing := .acquiring (a.moveTo (.leave .woken)) })
  | wakeNobody (i : Fin n) (here : (c.party i).doing = .waking)
      (nobody : ∀ j, (c.party j).isAsleep = false) :
      Turn c (.wake i none) (c.set i { c.party i with doing := .idle })
  | rouse (i : Fin n) (a : Attempt) (cause : Rousing) (here : (c.party i).doing = .acquiring a)
      (down : a.stage = .asleep ∨ a.stage = .doze) (uncalled : cause ≠ .woken) :
      Turn c (.rouse i cause) (c.set i { c.party i with
        doing := .acquiring (a.moveTo (.leave cause)) })
  | pass (time : Nat) : Turn c (.pass time) { c with clock := c.clock + time }
  | load (i : Fin n) (idle : (c.party i).doing = .idle) (holds : (c.party i).holds = true) :
      Turn c (.load i) (c.set i { c.party i with seen := some c.value })
  | store (i : Fin n) (value : UInt64) (idle : (c.party i).doing = .idle)
      (holds : (c.party i).holds = true) :
      Turn c (.store i value) ({ c with value }.set i { c.party i with seen := none })

theorem turn_of_step {i : Fin n} (h : c.step i = some c') : Turn c (.step i) c' := by
  cases here : (c.party i).doing with
  | idle | waking => simp only [step, here, reduceCtorEq] at h
  | acquiring a =>
    simp only [step, here] at h
    split at h
    · cases h
    · rename_i awake
      split at h
      · cases h
        exact .goOn i a _ _ here (Attempt.turn_of_step awake ‹_›)
      · cases h
        exact .comeBack i a _ _ here (Attempt.turn_of_step awake ‹_›)
  | releasing =>
    simp only [step, here] at h
    cases h
    exact .free i here

theorem rouse_eq_some {i : Fin n} {cause : Rousing} (h : c.rouse i cause = some c') :
    ∃ a, (c.party i).doing = .acquiring a ∧
      (a.stage = .asleep ∨ a.stage = .doze ∧ cause ≠ .woken) ∧
      c' = c.set i { c.party i with doing := .acquiring (a.moveTo (.leave cause)) } := by
  cases here : (c.party i).doing with
  | acquiring a =>
    simp only [rouse, here] at h
    split at h
    · cases h
      exact ⟨a, rfl, ‹_›, rfl⟩
    · cases h
  | idle | releasing | waking => simp only [rouse, here, reduceCtorEq] at h

theorem turn_of_wake {i : Fin n} {sleeper : Option (Fin n)} (h : c.wake i sleeper = some c') :
    Turn c (.wake i sleeper) c' := by
  rw [wake] at h
  split at h
  · cases h
  rename_i here
  replace here : (c.party i).doing = .waking := Decidable.of_not_not here
  have hi : ∀ p : Party, p.doing = .idle → p.isAsleep = false := fun p hp => by
    rw [Party.isAsleep, hp]
  cases sleeper with
  | some j =>
    dsimp only at h
    split at h
    · rename_i asleep
      have hne : j ≠ i := by
        rintro rfl
        rw [party_set_self, hi _ rfl] at asleep
        cases asleep
      obtain ⟨a, there, hstage, rfl⟩ := rouse_eq_some h
      rw [party_set_of_ne _ _ hne] at there ⊢
      exact .wake i j a here there (hstage.resolve_right fun h => h.2 rfl)
    · cases h
  | none =>
    dsimp only at h
    split at h
    · cases h
    rename_i hnone
    cases h
    refine .wakeNobody i here fun j => ?_
    by_cases hj : j = i
    · rw [hj, Party.isAsleep, here]
    · rw [← party_set_of_ne c _ hj]
      exact isAsleep_of_sleeper? hnone j

theorem turn_of_fire {m : Move n} (h : c.fire m = some c') : Turn c m c' := by
  have hidle : ∀ i, (c.party i).isIdle = true → (c.party i).doing = .idle := fun i hi =>
    of_decide_eq_true hi
  have hboth : ∀ i, ((c.party i).isIdle && (c.party i).holds) = true →
      (c.party i).doing = .idle ∧ (c.party i).holds = true := fun i hi =>
    ⟨hidle i (Bool.and_eq_true_iff.1 hi).1, (Bool.and_eq_true_iff.1 hi).2⟩
  cases m with
  | call i patience =>
    obtain ⟨hi, h⟩ := Option.ite_none_right_eq_some.1 h
    cases h
    exact .call i patience (hidle i hi)
  | release i =>
    obtain ⟨hi, h⟩ := Option.ite_none_right_eq_some.1 h
    cases h
    exact .release i (hboth i hi).1 (hboth i hi).2
  | step i => exact turn_of_step h
  | wake i sleeper => exact turn_of_wake h
  | rouse i cause =>
    obtain ⟨uncalled, h⟩ := Option.ite_none_left_eq_some.1 h
    obtain ⟨a, here, down, rfl⟩ := rouse_eq_some h
    exact .rouse i a cause here (down.imp_right And.left) uncalled
  | pass time =>
    cases h
    exact .pass time
  | load i =>
    obtain ⟨hi, h⟩ := Option.ite_none_right_eq_some.1 h
    cases h
    exact .load i (hboth i hi).1 (hboth i hi).2
  | store i value =>
    obtain ⟨hi, h⟩ := Option.ite_none_right_eq_some.1 h
    cases h
    exact .store i value (hboth i hi).1 (hboth i hi).2

theorem value_of_turn {m : Move n} (turn : Turn c m c') :
    c'.value = c.value ∨ ∃ i value, m = .store i value ∧ c'.value = value := by
  cases turn with
  | store i value idle holds => exact .inr ⟨i, value, rfl, rfl⟩
  | _ => exact .inl rfl

/-- Whether a move is a call of the party `i`, or a use of the lock it holds. -/
def Move.isCallOf (i : Fin n) : Move n → Bool
  | .call j _ | .release j | .load j | .store j _ => i = j
  | _ => false

/-- An idle party only moves by its own calls. -/
theorem party_of_turn_of_idle {m : Move n} {i : Fin n} (turn : Turn c m c')
    (idle : (c.party i).doing = .idle) (hm : m.isCallOf i = false) :
    c'.party i = c.party i := by
  cases turn with
  | call j | release j | load j =>
    exact party_set_of_ne c _ (of_decide_eq_false hm)
  | store j => exact party_set_of_ne _ _ (of_decide_eq_false hm)
  | goOn j a b w here | comeBack j a v w here | free j here | wakeNobody j here
  | rouse j a cause here =>
    refine party_set_of_ne _ _ ?_
    rintro rfl
    cases idle.symm.trans here
  | wake j k a here there =>
    rw [party_set_of_ne, party_set_of_ne]
    · rintro rfl
      cases idle.symm.trans here
    · rintro rfl
      cases idle.symm.trans there
  | pass => rfl

end SharedLock

end Cadence
