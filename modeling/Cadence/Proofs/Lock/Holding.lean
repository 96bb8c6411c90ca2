import Cadence.Proofs.Lock.Turns
import Cadence.Proofs.Run
import Cadence.Proofs.Word
import Mathlib.Logic.ExistsUnique

/-!
Who holds the lock. Nothing in memory says who does, so the invariant reads it off the parties: the
state is 0 while none of them holds the lock and 1 or 2 while exactly one does. The swap that does
not know whether the lock is free is no exception, since what it finds tells its caller. The second
word counts the parties between their counting in and their counting out, modulo its size.
-/

namespace Cadence

namespace Attempt

def isEnrolled (a : Attempt) : Bool :=
  match a.stage with
  | .doze | .asleep | .leave _ => true
  | _ => false

variable {w w' : LockWord} {now : Nat} {a b : Attempt} {v : Verdict}

theorem isEnrolled_of_down (h : a.stage = .asleep ∨ a.stage = .doze) : a.isEnrolled = true := by
  rcases h with h | h <;> rw [isEnrolled, h]

theorem isEnrolled_afterSwap (a : Attempt) : (a.moveTo a.afterSwap).isEnrolled = false := by
  rw [afterSwap]
  split <;> rfl

/-- An attempt that goes on leaves the state alone or marks a taken lock. -/
theorem Turn.state_of_inl (h : Turn w now a w' (.inl b)) :
    w'.state = w.state ∨ w.state ≠ 0 ∧ w'.state = 2 := by
  cases h with
  | mark here taken => exact .inr ⟨taken, rfl⟩
  | _ => exact .inl rfl

/-- An attempt that comes back with the lock found it free, and otherwise leaves the state alone. -/
theorem Turn.state_of_inr (h : Turn w now a w' (.inr v)) :
    v = .acquired ∧ w.state = 0 ∧ (w'.state = 1 ∨ w'.state = 2) ∨
      v ≠ .acquired ∧ w'.state = w.state := by
  cases h with
  | take here free => exact .inl ⟨rfl, free, .inl rfl⟩
  | seize here free => exact .inl ⟨rfl, free, .inr rfl⟩
  | refuse | expire | giveUp => exact .inr ⟨nofun, rfl⟩

theorem Turn.waiters_of_inl (h : Turn w now a w' (.inl b)) :
    w'.waiters + .ofNat a.isEnrolled.toNat = w.waiters + .ofNat b.isEnrolled.toNat := by
  cases h with
  | enroll here =>
    rw [isEnrolled, here]
    exact UInt32.add_zero _
  | retry cause here goesOn =>
    rw [isEnrolled, here]
    exact (UInt32.sub_add_cancel _ _).trans (UInt32.add_zero _).symm
  | mark here taken =>
    rw [isEnrolled_afterSwap, isEnrolled, here]
  | persist here | allow _ here | reckon _ here | skip here | stay here | sleep here | miss here =>
    rw [isEnrolled, here]
    rfl

theorem Turn.waiters_of_inr (h : Turn w now a w' (.inr v)) :
    w'.waiters + .ofNat a.isEnrolled.toNat = w.waiters := by
  cases h with
  | giveUp why timeout here =>
    rw [isEnrolled, here]
    exact UInt32.sub_add_cancel _ _
  | take here | refuse here | seize here | expire _ here =>
    rw [isEnrolled, here]
    exact UInt32.add_zero _

end Attempt

def Party.isEnrolled (p : Party) : Bool :=
  match p.doing with
  | .acquiring a => a.isEnrolled
  | _ => false

theorem Party.isEnrolled_of_acquiring {p : Party} {a : Attempt} (h : p.doing = .acquiring a) :
    p.isEnrolled = a.isEnrolled := by rw [isEnrolled, h]

theorem Party.isEnrolled_of_idle {p : Party} (h : p.doing = .idle) : p.isEnrolled = false := by
  rw [isEnrolled, h]

namespace SharedLock

variable {n : Nat} {c c' : SharedLock n}

structure Exclusive (c : SharedLock n) : Prop where
  state : c.word.state = 0 ∧ (∀ i, (c.party i).holds = false) ∨
    (c.word.state = 1 ∨ c.word.state = 2) ∧ ∃! i, (c.party i).holds = true
  releasing : ∀ i, (c.party i).doing = .releasing → (c.party i).holds = true

theorem exclusive_start (value : UInt64) : (start n {} value).Exclusive := by
  refine ⟨.inl ⟨rfl, fun i => ?_⟩, fun i h => ?_⟩
  · rw [party_start]
  · rw [party_start] at h
    cases h

theorem Exclusive.state_of_holds (h : c.Exclusive) {i : Fin n} (hi : (c.party i).holds = true) :
    (c.word.state = 1 ∨ c.word.state = 2) ∧ ∀ j, (c.party j).holds = true → j = i := by
  rcases h.state with ⟨-, hnone⟩ | ⟨hstate, k, hk, huniq⟩
  · rw [hnone i] at hi
    cases hi
  · exact ⟨hstate, fun j hj => (huniq j hj).trans (huniq i hi).symm⟩

theorem Exclusive.none_holds (h : c.Exclusive) (hstate : c.word.state = 0) (i : Fin n) :
    (c.party i).holds = false := by
  rcases h.state with ⟨-, hnone⟩ | ⟨hstate', -⟩
  · exact hnone i
  · rw [hstate] at hstate'
    exact absurd hstate' (by decide)

/-- A step in which the lock stays with whoever has it. -/
theorem Exclusive.of_holds (h : c.Exclusive)
    (hstate : c'.word.state = c.word.state ∨ c.word.state ≠ 0 ∧ c'.word.state = 2)
    (hholds : ∀ i, (c'.party i).holds = (c.party i).holds)
    (hreleasing : ∀ i, (c'.party i).doing = .releasing → (c'.party i).holds = true) :
    c'.Exclusive := by
  refine ⟨?_, hreleasing⟩
  simp only [hholds]
  rcases hstate with hstate | ⟨htaken, hstate⟩
  · rw [hstate]
    exact h.state
  · exact .inr ⟨.inr hstate, (h.state.resolve_left fun h => htaken h.1).2⟩

/-- A step of the party `i`, which does not acquire the lock or let go of it. -/
theorem Exclusive.of_set (h : c.Exclusive) {i : Fin n} {p : Party}
    (hparties : c'.parties = (c.set i p).parties)
    (hstate : c'.word.state = c.word.state ∨ c.word.state ≠ 0 ∧ c'.word.state = 2)
    (hholds : p.holds = (c.party i).holds)
    (hreleasing : p.doing = .releasing → (c.party i).holds = true) : c'.Exclusive := by
  obtain ⟨hself, hother⟩ := party_eq_of_set hparties
  refine h.of_holds hstate (fun j => ?_) (fun j => ?_) <;> by_cases hj : j = i
  · rw [hj, hself, hholds]
  · rw [hother j hj]
  · rw [hj, hself, hholds]
    exact hreleasing
  · rw [hother j hj]
    exact h.releasing j

theorem Exclusive.acquire (h : c.Exclusive) {i : Fin n} {p : Party}
    (hparties : c'.parties = (c.set i p).parties) (hfree : c.word.state = 0)
    (hstate : c'.word.state = 1 ∨ c'.word.state = 2) (hholds : p.holds = true) :
    c'.Exclusive := by
  obtain ⟨hself, hother⟩ := party_eq_of_set hparties
  refine ⟨.inr ⟨hstate, i, ?_, fun j hj => ?_⟩, fun j hj => ?_⟩
  · exact (congrArg Party.holds hself).trans hholds
  · refine Decidable.byContradiction fun hne => ?_
    have hj : (c'.party j).holds = true := hj
    rw [hother j hne, h.none_holds hfree] at hj
    cases hj
  · by_cases hne : j = i
    · rw [hne, hself]
      exact hholds
    · rw [hother j hne] at hj ⊢
      exact h.releasing j hj

theorem Exclusive.free (h : c.Exclusive) {i : Fin n} {p : Party}
    (hparties : c'.parties = (c.set i p).parties) (hhold : (c.party i).holds = true)
    (hstate : c'.word.state = 0) (hholds : p.holds = false) (hdoing : p.doing ≠ .releasing) :
    c'.Exclusive := by
  obtain ⟨hself, hother⟩ := party_eq_of_set hparties
  have hnone : ∀ j, j ≠ i → (c.party j).holds = false := fun j hj =>
    Bool.eq_false_iff.2 fun hj' => hj ((h.state_of_holds hhold).2 j hj')
  refine ⟨.inl ⟨hstate, fun j => ?_⟩, fun j hj => ?_⟩
  · by_cases hne : j = i
    · rw [hne, hself, hholds]
    · rw [hother j hne, hnone j hne]
  · by_cases hne : j = i
    · rw [hne, hself] at hj
      exact absurd hj hdoing
    · rw [hother j hne] at hj ⊢
      exact h.releasing j hj

theorem exclusive_turn {m : Move n} (h : c.Exclusive) (turn : Turn c m c') : c'.Exclusive := by
  cases turn with
  | call i patience idle => exact h.of_set rfl (.inl rfl) rfl nofun
  | release i idle holds => exact h.of_set rfl (.inl rfl) rfl fun _ => holds
  | goOn i a b w here turn => exact h.of_set (c := c) rfl turn.state_of_inl rfl nofun
  | comeBack i a v w here turn =>
    rcases turn.state_of_inr with ⟨rfl, hfree, hstate⟩ | ⟨hv, hstate⟩
    · exact h.acquire (c := c) rfl hfree hstate (Bool.or_true _)
    · refine h.of_set (c := c) rfl (.inl hstate) ?_ nofun
      exact (congrArg _ (decide_eq_false hv)).trans (Bool.or_false _)
  | free i here =>
    refine h.free (c := c) rfl (h.releasing i here) rfl rfl ?_
    dsimp only
    split <;> nofun
  | wake i j a here there asleep =>
    have hi : (c.set i { c.party i with doing := .idle }).Exclusive :=
      h.of_set rfl (.inl rfl) rfl nofun
    refine hi.of_set rfl (.inl rfl) ?_ nofun
    rw [party_set_of_ne _ _ (ne_of_waking here there)]
  | wakeNobody i here nobody => exact h.of_set rfl (.inl rfl) rfl nofun
  | rouse i a cause here down uncalled => exact h.of_set rfl (.inl rfl) rfl nofun
  | pass time => exact ⟨h.state, h.releasing⟩
  | load i idle holds => exact h.of_set rfl (.inl rfl) rfl fun _ => holds
  | store i value idle holds => exact h.of_set (c := c) rfl (.inl rfl) rfl fun _ => holds

def enrolled (c : SharedLock n) : Nat := c.parties.countP (·.isEnrolled)

def Counted (c : SharedLock n) : Prop := c.word.waiters = .ofNat c.enrolled

theorem counted_start (value : UInt64) : (start n {} value).Counted := by
  rw [Counted, enrolled, start, Vector.countP_replicate]
  rfl

theorem Counted.of_set (h : c.Counted) {i : Fin n} {p : Party}
    (hparties : c'.parties = (c.set i p).parties)
    (hwaiters : c'.word.waiters + .ofNat (c.party i).isEnrolled.toNat =
      c.word.waiters + .ofNat p.isEnrolled.toNat) : c'.Counted := by
  rw [Counted, enrolled, hparties]
  exact eq_ofNat_countP_replaceAt h hwaiters

theorem counted_turn {m : Move n} (h : c.Counted) (turn : Turn c m c') : c'.Counted := by
  cases turn with
  | call i patience idle =>
    refine h.of_set rfl ?_
    rw [Party.isEnrolled_of_idle idle]
    rfl
  | release i idle =>
    refine h.of_set rfl ?_
    rw [Party.isEnrolled_of_idle idle]
    rfl
  | goOn i a b w here turn =>
    refine h.of_set (c := c) rfl ?_
    rw [Party.isEnrolled_of_acquiring here]
    exact turn.waiters_of_inl
  | comeBack i a v w here turn =>
    refine h.of_set (c := c) rfl ?_
    rw [Party.isEnrolled_of_acquiring here]
    exact turn.waiters_of_inr.trans (UInt32.add_zero _).symm
  | free i here =>
    refine h.of_set (c := c) rfl ?_
    rw [Party.isEnrolled, Party.isEnrolled, here]
    dsimp only
    split <;> rfl
  | wake i j a here there asleep =>
    have hi : (c.set i { c.party i with doing := .idle }).Counted := by
      refine h.of_set rfl ?_
      rw [Party.isEnrolled, here]
      rfl
    refine hi.of_set rfl ?_
    rw [party_set_of_ne _ _ (ne_of_waking here there), Party.isEnrolled_of_acquiring there,
      Attempt.isEnrolled_of_down (.inl asleep)]
    rfl
  | wakeNobody i here nobody =>
    refine h.of_set rfl ?_
    rw [Party.isEnrolled, here]
    rfl
  | rouse i a cause here down uncalled =>
    refine h.of_set rfl ?_
    rw [Party.isEnrolled_of_acquiring here, Attempt.isEnrolled_of_down down]
    rfl
  | pass time => exact h
  | load i idle holds =>
    exact h.of_set rfl rfl
  | store i value idle holds => exact h.of_set (c := c) rfl rfl

end SharedLock

end Cadence
