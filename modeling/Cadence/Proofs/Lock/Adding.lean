import Cadence.Proofs.Lock.Holding
import Mathlib.Algebra.BigOperators.Fin

/-!
What the lock is good for. While its holder alone reads and writes the guarded value, what it has
read is still there when it writes, so an increment is never lost, however the parties come by the
lock and however often they sleep over it.
-/

namespace Cadence.SharedLock

variable {n : Nat} {c c' : SharedLock n} {v : UInt64}

namespace Move

def isStore : Move n → Bool
  | .store _ _ => true
  | _ => false

def isStoreOf (i : Fin n) : Move n → Bool
  | .store j _ => i = j
  | _ => false

end Move

/-- A move among parties that only ever store one more than what they have read. -/
def fireAdding (c : SharedLock n) : Move n → Option (SharedLock n)
  | .store i value =>
    if (c.party i).seen.map (· + 1) = some value then c.fire (.store i value) else none
  | m => c.fire m

def runAdding (c : SharedLock n) (moves : List (Move n)) : Option (SharedLock n) :=
  moves.foldlM fireAdding c

theorem fireAdding_eq_some {m : Move n} (h : c.fireAdding m = some c') :
    c.fire m = some c' ∧
      ∀ i value, m = .store i value → (c.party i).seen.map (· + 1) = some value := by
  cases m with
  | store i value =>
    obtain ⟨hseen, h⟩ := Option.ite_none_right_eq_some.1 h
    refine ⟨h, ?_⟩
    rintro _ _ ⟨⟩
    exact hseen
  | _ => exact ⟨h, nofun⟩

/-- What a party has read it still holds the lock for, and it is what the value is. -/
def Fresh (c : SharedLock n) : Prop :=
  ∀ i w, (c.party i).seen = some w → (c.party i).holds = true ∧ c.value = w

theorem fresh_start (value : UInt64) : (start n {} value).Fresh := by
  intro i w h
  rw [party_start] at h
  cases h

/-- A step of the party `i`, which does not touch the value. -/
theorem Fresh.of_set (h : c.Fresh) {i : Fin n} {p : Party}
    (hparties : c'.parties = (c.set i p).parties) (hvalue : c'.value = c.value)
    (hseen : ∀ w, p.seen = some w → p.holds = true ∧ c.value = w) : c'.Fresh := by
  obtain ⟨hself, hother⟩ := party_eq_of_set hparties
  intro j w hj
  rw [hvalue]
  by_cases hne : j = i
  · rw [hne, hself] at hj ⊢
    exact hseen w hj
  · rw [hother j hne] at hj ⊢
    exact h j w hj

theorem fresh_turn {m : Move n} (h : c.Fresh) (he : c.Exclusive) (turn : Turn c m c') :
    c'.Fresh := by
  cases turn with
  | call i patience idle => exact h.of_set rfl rfl (h i)
  | release i idle holds => exact h.of_set rfl rfl (h i)
  | goOn i a b w here turn => exact h.of_set (c := c) rfl rfl (h i)
  | comeBack i a v w here turn =>
    refine h.of_set (c := c) rfl rfl fun w hw => ?_
    obtain ⟨hholds, hvalue⟩ := h i w hw
    exact ⟨Bool.or_eq_true_iff.2 (.inl hholds), hvalue⟩
  | free i here => exact h.of_set (c := c) rfl rfl nofun
  | wake i j a here there asleep =>
    have hi : (c.set i { c.party i with doing := .idle }).Fresh := h.of_set rfl rfl (h i)
    exact hi.of_set rfl rfl (h j)
  | wakeNobody i here nobody => exact h.of_set rfl rfl (h i)
  | rouse i a cause here down uncalled => exact h.of_set rfl rfl (h i)
  | pass time => exact h
  | load i idle holds =>
    refine h.of_set rfl rfl ?_
    rintro w ⟨⟩
    exact ⟨holds, rfl⟩
  | store i value idle holds =>
    intro j w hj
    by_cases hne : j = i
    · rw [hne, party_set_self] at hj
      cases hj
    · -- what another party has read would be out of date, but only a holder has read anything
      rw [party_set_of_ne _ _ hne] at hj
      exact absurd ((he.state_of_holds holds).2 j (h j w hj).1) hne

theorem value_of_fireAdding {m : Move n} (h : c.Fresh) (hm : c.fireAdding m = some c') :
    c'.value = c.value + .ofNat m.isStore.toNat := by
  obtain ⟨hm, hseen⟩ := fireAdding_eq_some hm
  have hvalue := turn_of_fire hm
  cases m with
  | store i value =>
    obtain ⟨w, hw, rfl⟩ := Option.map_eq_some_iff.1 (hseen i value rfl)
    cases hvalue with
    | store i value idle holds =>
      rw [(h i w hw).2]
      rfl
  | _ =>
    refine Eq.trans ?_ (UInt64.add_zero _).symm
    exact (value_of_turn hvalue).resolve_right nofun

theorem value_of_runAdding {moves : List (Move n)} (he : c.Exclusive) (h : c.Fresh)
    (hrun : c.runAdding moves = some c') :
    c'.value = c.value + .ofNat (moves.countP (·.isStore)) := by
  induction moves generalizing c with
  | nil =>
    obtain rfl : c = c' := Option.some.inj hrun
    exact (UInt64.add_zero _).symm
  | cons m moves ih =>
    obtain ⟨c₁, hm, hrun⟩ := foldlM_cons_eq_some.1 hrun
    have turn := turn_of_fire (fireAdding_eq_some hm).1
    rw [ih (exclusive_turn he turn) (fresh_turn h he turn) hrun, value_of_fireAdding h hm,
      UInt64.add_assoc, ← UInt64.ofNat_add, List.countP_cons, Nat.add_comm]
    cases m.isStore <;> rfl

theorem run_of_runAdding {moves : List (Move n)} (hrun : c.runAdding moves = some c') :
    c.run moves = some c' := by
  induction moves generalizing c with
  | nil => exact hrun
  | cons m moves ih =>
    obtain ⟨c₁, hm, hrun⟩ := foldlM_cons_eq_some.1 hrun
    exact foldlM_cons_eq_some.2 ⟨c₁, (fireAdding_eq_some hm).1, ih hrun⟩

/-- Every store is somebody's. -/
theorem countP_isStore (moves : List (Move n)) :
    moves.countP (·.isStore) = ∑ i, moves.countP (·.isStoreOf i) := by
  induction moves with
  | nil => simp
  | cons m moves ih =>
    simp only [List.countP_cons, Finset.sum_add_distrib, ih]
    cases m with
    | store j value => simp [Move.isStore, Move.isStoreOf]
    | _ => simp [Move.isStore, Move.isStoreOf]

structure MutualExclusion (c : SharedLock n) : Prop where
  state : c.word.state = 0 ∨ c.word.state = 1 ∨ c.word.state = 2
  taken : c.word.state ≠ 0 ↔ ∃! i, (c.party i).holds = true
  free : c.word.state = 0 ↔ ∀ i, (c.party i).holds = false
  waiters : c.word.waiters.toNat = c.parties.countP (·.isEnrolled)

theorem mutualExclusion_of_exclusive (hn : n < UInt32.size) (he : c.Exclusive) (hc : c.Counted) :
    c.MutualExclusion where
  state := he.state.imp And.left And.left
  taken := by
    refine ⟨fun htaken => (he.state.resolve_left fun h => htaken h.1).2, ?_⟩
    rintro ⟨i, hi, -⟩ hfree
    rw [he.none_holds hfree i] at hi
    cases hi
  free := by
    refine ⟨he.none_holds, fun hnone => ?_⟩
    rcases he.state with ⟨hfree, -⟩ | ⟨-, i, hi, -⟩
    · exact hfree
    · rw [hnone i] at hi
      cases hi
  waiters := toNat_eq_countP hc hn

theorem keeps_run {moves : List (Move n)} (h : c.Exclusive ∧ c.Counted)
    (hrun : c.run moves = some c') : c'.Exclusive ∧ c'.Counted :=
  run_keeps (P := fun c => c.Exclusive ∧ c.Counted)
    (fun _ _ _ hk hm =>
      ⟨exclusive_turn hk.1 (turn_of_fire hm), counted_turn hk.2 (turn_of_fire hm)⟩) h hrun

/-- Once everybody is done, nothing is left but the value. -/
theorem word_of_done (he : c.Exclusive) (hc : c.Counted)
    (hidle : ∀ i, (c.party i).doing = .idle) (hopen : ∀ i, (c.party i).holds = false) :
    c.word = {} := by
  have hstate : c.word.state = 0 := by
    rcases he.state with ⟨hfree, -⟩ | ⟨-, i, hi, -⟩
    · exact hfree
    · rw [hopen i] at hi
      cases hi
  have hcount : c.enrolled = 0 := by
    refine Vector.countP_eq_zero.2 fun p hp => ?_
    obtain ⟨i, hi, rfl⟩ := Vector.getElem_of_mem hp
    rw [show c.parties[i] = c.party ⟨i, hi⟩ from rfl, Party.isEnrolled_of_idle (hidle _)]
    exact Bool.false_ne_true
  have hwaiters : c.word.waiters = 0 := by rw [hc, hcount]; rfl
  obtain ⟨⟨state, waiters⟩, _, _, _⟩ := c
  obtain rfl : state = 0 := hstate
  obtain rfl : waiters = 0 := hwaiters
  rfl

/-- The lock is held by one party at a time in every interleaving, and so `n` parties that each add
one `k` times have added `n * k` when they are done. -/
theorem mutualExclusion_run (hn : n < UInt32.size) (v : UInt64) :
    (∀ moves c, (start n {} v).run moves = some c → c.MutualExclusion) ∧
      ∀ moves c k, (start n {} v).runAdding moves = some c →
        (∀ i, moves.countP (·.isStoreOf i) = k) →
        (∀ i, (c.party i).doing = .idle) → (∀ i, (c.party i).holds = false) →
        c.value = v + .ofNat (n * k) ∧ c.word = {} := by
  have hstart : (start n {} v).Exclusive ∧ (start n {} v).Counted :=
    ⟨exclusive_start v, counted_start v⟩
  refine ⟨fun moves c hrun => ?_, fun moves c k hrun hk hidle hopen => ?_⟩
  · obtain ⟨he, hc⟩ := keeps_run hstart hrun
    exact mutualExclusion_of_exclusive hn he hc
  · obtain ⟨he, hc⟩ := keeps_run hstart (run_of_runAdding hrun)
    refine ⟨?_, word_of_done he hc hidle hopen⟩
    rw [value_of_runAdding (exclusive_start v) (fresh_start v) hrun, countP_isStore]
    simp only [hk, Finset.sum_const, Finset.card_univ, Fintype.card_fin, smul_eq_mul]
    rfl

/-- One party sleeps until the other has added, and marks the lock it is then handed. -/
def oneAfterTheOther (i j : Fin 2) : List (Move 2) :=
  [.call i .forever, .step i, .load i, .call j .forever, .step j, .step j, .step j, .step j,
    .store i 6, .release i, .step i, .wake i (some j), .step j, .step j, .load j, .store j 7,
    .release j, .step j, .wake j none]

theorem mutualExclusion_run_oneAfterTheOther :
    ∃ c, (start 2 {} 5).runAdding (oneAfterTheOther 0 1) = some c ∧
      c.MutualExclusion ∧ c.value = 5 + .ofNat (2 * 1) ∧ c.word = {} := by
  obtain ⟨c, hrun, hcount, hidle, hopen⟩ :
      ∃ c, (start 2 {} 5).runAdding (oneAfterTheOther 0 1) = some c ∧
        (∀ i, (oneAfterTheOther 0 1).countP (·.isStoreOf i) = 1) ∧
        (∀ i, (c.party i).doing = .idle) ∧ ∀ i, (c.party i).holds = false :=
    ⟨_, rfl, by decide, by decide, by decide⟩
  have h := mutualExclusion_run (n := 2) (by decide) 5
  exact ⟨c, hrun, h.1 _ _ (run_of_runAdding hrun), h.2 _ _ 1 hrun hcount hidle hopen⟩

end Cadence.SharedLock
