import Cadence.Lock.Inheriting
import Cadence.Proofs.Run

/-!
Guards that travel. While a guard lives no other is granted, and once it is dropped by the thread that
the lock was granted to, the lock is there for everyone. Dropped by any other thread it leaves the lock
with an owner who has nothing left to drop, and no guard is granted ever again.
-/

namespace Cadence.InheritingLock

inductive Move where
  | lock (caller : ThreadId)
  | tryLock (caller : ThreadId)
  | hand (giver taker : ThreadId)
  | drop (caller : ThreadId)

/-- A call that comes back, and what is done with a guard that is there. A call that sleeps comes back
later, as a move of its own. -/
def fire (l : InheritingLock) : Move → Option InheritingLock
  | .lock caller =>
    match l.lock caller with
    | (_, .blocks) => none
    | (l, _) => some l
  | .tryLock caller => some (l.tryLock caller).1
  | .hand giver taker => if giver ∈ l.guards then some (l.hand giver taker) else none
  | .drop caller => if caller ∈ l.guards then some (l.drop caller).1 else none

def run (l : InheritingLock) (moves : List Move) : Option InheritingLock := moves.foldlM fire l

def Astray (l : InheritingLock) (move : Move) : Prop :=
  ∃ caller, move = .drop caller ∧ l.owner ≠ some caller

inductive Strays : InheritingLock → List Move → Prop where
  | now {l : InheritingLock} {move : Move} {moves : List Move} (astray : l.Astray move) :
      Strays l (move :: moves)
  | later {l l' : InheritingLock} {move : Move} {moves : List Move}
      (fired : l.fire move = some l') (strays : Strays l' moves) : Strays l (move :: moves)

/-- Granted to one thread, with the guard at another by now. -/
def held (owner carrier : ThreadId) : InheritingLock := ⟨some owner, [carrier]⟩

def lost (owner : ThreadId) : InheritingLock := ⟨some owner, []⟩

variable {l l' : InheritingLock} {move : Move} {moves : List Move} {owner carrier : ThreadId}

theorem strays_cons (fired : l.fire move = some l') :
    Strays l (move :: moves) ↔ l.Astray move ∨ Strays l' moves := by
  refine ⟨fun h => ?_, fun h => h.elim .now (.later fired)⟩
  cases h with
  | now astray => exact .inl astray
  | later fired' strays =>
    cases fired.symm.trans fired'
    exact .inr strays

theorem not_strays_nil : ¬ Strays l [] := nofun

/-! A lock with an owner is granted to nobody, its owner included. -/

theorem tryLock_of_owner (h : l.owner = some owner) (caller : ThreadId) :
    l.tryLock caller = (l, false) := by
  unfold tryLock
  rw [h]

theorem lock_of_owner (h : l.owner = some owner) (caller : ThreadId) :
    (l.lock caller).1 = l ∧ (l.lock caller).2 ≠ .yes := by
  unfold lock
  rw [h]
  dsimp only
  split
  · exact ⟨rfl, nofun⟩
  · exact ⟨rfl, nofun⟩

theorem fire_lock_of_owner (h : l.owner = some owner) {caller : ThreadId}
    (fired : l.fire (.lock caller) = some l') : l' = l := by
  have hsame := (lock_of_owner h caller).1
  rcases hlock : l.lock caller with ⟨l₁, granted⟩
  rw [hlock] at hsame
  rw [fire, hlock] at fired
  cases granted with
  | yes | refused =>
    cases fired
    exact hsame
  | blocks => cases fired

/-! Every state is that of a new lock, of a lock with one guard, or of a lock that lost it. -/

theorem fire_free (fired : ({} : InheritingLock).fire move = some l) :
    (∃ caller, l = held caller caller) ∧ ¬ Astray {} move := by
  cases move with
  | lock caller | tryLock caller =>
    cases fired
    exact ⟨⟨caller, rfl⟩, nofun⟩
  | hand giver taker | drop caller => cases fired

theorem fire_held (fired : (held owner carrier).fire move = some l) :
    (¬ (held owner carrier).Astray move ∧ (l = {} ∨ ∃ carrier', l = held owner carrier')) ∨
      ((held owner carrier).Astray move ∧ l = lost owner) := by
  cases move with
  | lock caller =>
    obtain rfl := fire_lock_of_owner rfl fired
    exact .inl ⟨nofun, .inr ⟨carrier, rfl⟩⟩
  | tryLock caller =>
    cases fired
    exact .inl ⟨nofun, .inr ⟨carrier, rfl⟩⟩
  | hand giver taker =>
    obtain ⟨here, ⟨⟩⟩ := Option.ite_none_right_eq_some.1 fired
    obtain rfl : giver = carrier := List.mem_singleton.1 here
    refine .inl ⟨nofun, .inr ⟨taker, ?_⟩⟩
    simp [hand, held]
  | drop caller =>
    obtain ⟨here, hdrop⟩ := Option.ite_none_right_eq_some.1 fired
    obtain rfl : caller = carrier := List.mem_singleton.1 here
    rw [drop, if_pos here, Option.some.injEq] at hdrop
    subst hdrop
    by_cases hhome : owner = caller
    · subst hhome
      refine .inl ⟨?_, .inl ?_⟩
      · rintro ⟨_, ⟨⟩, away⟩
        exact away rfl
      · simp [held]
    · refine .inr ⟨⟨caller, rfl, fun e => hhome (Option.some.inj e)⟩, ?_⟩
      simp [held, lost, hhome]

theorem fire_lost (fired : (lost owner).fire move = some l) : l = lost owner := by
  cases move with
  | lock caller => exact fire_lock_of_owner rfl fired
  | tryLock caller =>
    cases fired
    rfl
  | hand giver taker | drop caller => cases fired

theorem run_lost (hrun : (lost owner).run moves = some l) : l = lost owner :=
  run_keeps (P := (· = lost owner)) (fun _ _ _ h fired => fire_lost (h ▸ fired)) rfl hrun

/-- As long as no guard goes astray the lock is new or has one guard, and when one does it is lost. -/
theorem stage_of_run (hl : l = {} ∨ ∃ owner carrier, l = held owner carrier)
    (hrun : l.run moves = some l') :
    (¬ Strays l moves ∧ (l' = {} ∨ ∃ owner carrier, l' = held owner carrier)) ∨
      (Strays l moves ∧ ∃ owner, l' = lost owner) := by
  induction moves generalizing l with
  | nil =>
    cases hrun
    exact .inl ⟨not_strays_nil, hl⟩
  | cons move moves ih =>
    obtain ⟨l₁, fired, hrest⟩ := foldlM_cons_eq_some.1 hrun
    rw [strays_cons fired]
    rcases hl with rfl | ⟨owner, carrier, rfl⟩
    · obtain ⟨⟨caller, rfl⟩, hhome⟩ := fire_free fired
      rw [or_iff_right hhome]
      exact ih (.inr ⟨caller, caller, rfl⟩) hrest
    · rcases fire_held fired with ⟨hhome, hl₁⟩ | ⟨away, rfl⟩
      · rw [or_iff_right hhome]
        exact ih (hl₁.imp_right fun ⟨c, h⟩ => ⟨owner, c, h⟩) hrest
      · exact .inr ⟨.inl away, owner, run_lost hrest⟩

/-- What a lock has come to by some moves, and what it grants from now on. -/
structure Guarded (moves : List Move) (l : InheritingLock) : Prop where
  single : l.guards.length ≤ 1
  /-- A lock without a guard is free, unless the guard has gone astray. -/
  locked : l.isLocked = true ↔ l.guards ≠ [] ∨ Strays {} moves
  grants : l.isLocked = false → ∀ caller, (l.tryLock caller).2 = true ∧ (l.lock caller).2 = .yes
  refuses : l.isLocked = true → ∀ caller,
    (l.tryLock caller).2 = false ∧ (l.lock caller).2 ≠ .yes
  spent : Strays {} moves → l.guards = []

theorem guarded_run (hrun : ({} : InheritingLock).run moves = some l) : Guarded moves l := by
  have refuses {l : InheritingLock} {owner : ThreadId} (h : l.owner = some owner) (caller : ThreadId) :
      (l.tryLock caller).2 = false ∧ (l.lock caller).2 ≠ .yes :=
    ⟨congrArg Prod.snd (tryLock_of_owner h caller), (lock_of_owner h caller).2⟩
  rcases stage_of_run (.inl rfl) hrun with ⟨home, rfl | ⟨owner, carrier, rfl⟩⟩ | ⟨away, owner, rfl⟩
  · exact ⟨by decide, by simp [isLocked, home], fun _ _ => ⟨rfl, rfl⟩, nofun, fun h => (home h).elim⟩
  · exact ⟨Nat.le_refl _, by simp [isLocked, held], nofun, fun _ => refuses rfl,
      fun h => (home h).elim⟩
  · exact ⟨Nat.zero_le _, by simp [isLocked, lost, away], nofun, fun _ => refuses rfl, fun _ => rfl⟩

/-- A guard goes to another thread and comes back; the lock is granted again. -/
theorem guarded_run_thereAndBack : ∃ l,
    ({} : InheritingLock).run [.lock 1, .hand 1 2, .lock 1, .hand 2 1, .drop 1, .tryLock 3] = some l ∧
    l = held 3 3 ∧
    Guarded [.lock 1, .hand 1 2, .lock 1, .hand 2 1, .drop 1, .tryLock 3] l :=
  ⟨_, rfl, rfl, guarded_run rfl⟩

/-- A guard that is dropped by another thread leaves no guard, and a lock that is still taken. -/
theorem drop_elsewhere_keeps_locked : ¬ ∀ (moves : List Move) (l : InheritingLock),
    ({} : InheritingLock).run moves = some l → l.guards = [] →
      l.isLocked = false ∧ ∀ caller, (l.tryLock caller).2 = true ∧ (l.lock caller).2 = .yes := by
  intro hall
  have hfree := (hall [.lock 1, .hand 1 2, .drop 2] (lost 1) rfl rfl).1
  exact absurd hfree (by decide)

end Cadence.InheritingLock
