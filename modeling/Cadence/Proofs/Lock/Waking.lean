import Cadence.Proofs.Lock.Holding

/-!
No sleeper is forgotten. A party may take a free lock past those that sleep on it, which sets the
state to 1; a sleeper that is woken may give up, and one that fails does not swap again. Somebody
still sees to the other sleepers every time: the holder whose release finds a 2, a releaser before
its wake, or a party before its swap.
-/

namespace Cadence

namespace Attempt

/-- Before a swap of 2 that nothing can keep it from. -/
def willSwap (a : Attempt) : Bool :=
  match a.stage, a.patience with
  | .swap, _ => true
  | .leave (.failed _), .within _ => false
  | .leave _, _ => true
  | _, _ => false

variable {w w' : LockWord} {now : Nat} {a b : Attempt} {v : Verdict}

theorem willSwap_of_down (h : a.stage = .asleep ∨ a.stage = .doze) : a.willSwap = false := by
  rcases h with h | h <;> rw [willSwap, h]

/-- Whatever an attempt does, somebody still sees to the sleepers if somebody did. -/
theorem Turn.attends_of_inl (h : Turn w now a w' (.inl b))
    (ha : w.state = 2 ∨ a.willSwap = true) : w'.state = 2 ∨ b.willSwap = true := by
  cases h with
  | mark => exact .inl rfl
  | retry | persist | reckon | skip => exact .inr rfl
  | allow _ here | stay here | enroll here | sleep here | miss here =>
    refine .inl (ha.resolve_right ?_)
    rw [willSwap, here]
    exact Bool.false_ne_true

theorem Turn.attends_of_inr (h : Turn w now a w' (.inr v))
    (ha : w.state = 2 ∨ a.willSwap = true) : w'.state = 2 := by
  cases h with
  | take here free =>
    rw [free, willSwap, here] at ha
    rcases ha with ha | ha
    · exact absurd ha (by decide)
    · cases ha
  | seize => rfl
  | refuse here | expire _ here =>
    refine ha.resolve_right ?_
    rw [willSwap, here]
    exact Bool.false_ne_true
  | giveUp why timeout here within =>
    refine ha.resolve_right ?_
    rw [willSwap, here, within]
    exact Bool.false_ne_true

theorem Turn.marked_of_asleep (h : Turn w now a w' (.inl b)) (hb : b.stage = .asleep) :
    w'.state = 2 := by
  cases h with
  | sleep here marked => exact marked
  | mark => rfl
  | _ => cases hb

end Attempt

namespace Party

def willSwap (p : Party) : Bool :=
  match p.doing with
  | .acquiring a => a.willSwap
  | _ => false

/-- Has yet to wake somebody, or to swap in the 2 that will. -/
def Attends (p : Party) : Prop := p.doing = .waking ∨ p.willSwap = true

theorem Attends.willSwap_of_acquiring {p : Party} {a : Attempt} (h : p.Attends)
    (hp : p.doing = .acquiring a) : a.willSwap = true := by
  rcases h with h | h
  · rw [hp] at h
    cases h
  · rwa [willSwap, hp] at h

theorem not_attends {p : Party} (h : p.doing = .idle ∨ p.doing = .releasing) : ¬p.Attends := by
  rintro (hp | hp)
  · rw [hp] at h
    exact absurd h (by decide)
  · rw [willSwap] at hp
    rcases h with h | h <;> rw [h] at hp <;> cases hp

theorem acquiring_of_isAsleep {p : Party} (h : p.isAsleep = true) :
    ∃ a, p.doing = .acquiring a ∧ a.stage = .asleep := by
  rw [isAsleep] at h
  split at h
  · exact ⟨_, ‹_›, of_decide_eq_true h⟩
  · cases h

end Party

namespace SharedLock

variable {n : Nat} {c c' : SharedLock n}

/-- Somebody sees to the sleepers: whoever holds the marked lock, or a party on its way. -/
def Attended (c : SharedLock n) : Prop := c.word.state = 2 ∨ ∃ i, (c.party i).Attends

def NoLostWakeup (c : SharedLock n) : Prop := ∀ i, (c.party i).isAsleep = true → c.Attended

theorem noLostWakeup_start (value : UInt64) : (start n {} value).NoLostWakeup := by
  intro i h
  rw [party_start] at h
  cases h

/-- A step of the party `i`, which leaves sleepers no worse off. -/
theorem NoLostWakeup.of_set (h : c.NoLostWakeup) {i : Fin n} {p : Party}
    (hparties : c'.parties = (c.set i p).parties)
    (hattends : c.word.state = 2 ∨ (c.party i).Attends → c'.word.state = 2 ∨ p.Attends)
    (hasleep : p.isAsleep = true → c'.word.state = 2) : c'.NoLostWakeup := by
  obtain ⟨hself, hother⟩ := party_eq_of_set hparties
  have hkeep : c'.word.state = 2 ∨ p.Attends → c'.Attended := fun hk =>
    hk.imp_right fun hp => ⟨i, by rwa [hself]⟩
  intro j hj
  by_cases hne : j = i
  · rw [hne, hself] at hj
    exact .inl (hasleep hj)
  · rw [hother j hne] at hj
    rcases h j hj with hstate | ⟨k, hk⟩
    · exact hkeep (hattends (.inl hstate))
    · by_cases hki : k = i
      · exact hkeep (hattends (.inr (hki ▸ hk)))
      · exact .inr ⟨k, by rwa [hother k hki]⟩

theorem noLostWakeup_turn {m : Move n} (h : c.NoLostWakeup) (turn : Turn c m c') :
    c'.NoLostWakeup := by
  cases turn with
  | call i patience idle =>
    exact h.of_set rfl (fun ha => .inl (ha.resolve_right (Party.not_attends (.inl idle)))) nofun
  | release i idle holds =>
    exact h.of_set rfl (fun ha => .inl (ha.resolve_right (Party.not_attends (.inl idle)))) nofun
  | goOn i a b w here turn =>
    refine h.of_set (c := c) rfl (fun ha => ?_) fun hb => ?_
    · exact (turn.attends_of_inl (ha.imp_right (·.willSwap_of_acquiring here))).imp_right .inr
    · exact turn.marked_of_asleep (of_decide_eq_true hb)
  | comeBack i a v w here turn =>
    refine h.of_set (c := c) rfl (fun ha => .inl ?_) nofun
    exact turn.attends_of_inr (ha.imp_right (·.willSwap_of_acquiring here))
  | free i here =>
    -- a marked lock makes the releaser a waker; an unmarked one did not see to anybody
    refine h.of_set (c := c) rfl (fun ha => .inr (.inl ?_)) ?_
    · exact if_pos (ha.resolve_right (Party.not_attends (.inr here)))
    · intro hasleep
      obtain ⟨a, ha, -⟩ := Party.acquiring_of_isAsleep hasleep
      dsimp only at ha
      split at ha <;> cases ha
  | wake i j a here there asleep =>
    -- the woken party itself will swap before it does anything else about the lock
    intro k hk
    refine .inr ⟨j, .inr ?_⟩
    rw [party_set_self]
    rfl
  | wakeNobody i here nobody =>
    intro j hj
    by_cases hne : j = i
    · rw [hne, party_set_self] at hj
      cases hj
    · rw [party_set_of_ne c _ hne, nobody j] at hj
      cases hj
  | rouse i a cause here down uncalled =>
    refine h.of_set rfl (fun ha => .inl (ha.resolve_right fun ha => ?_)) nofun
    have hswap := ha.willSwap_of_acquiring here
    rw [Attempt.willSwap_of_down down] at hswap
    cases hswap
  | pass time => exact h
  | load i idle holds =>
    refine h.of_set rfl (fun ha => .inl (ha.resolve_right (Party.not_attends (.inl idle)))) ?_
    intro hasleep
    obtain ⟨a, ha, -⟩ := Party.acquiring_of_isAsleep hasleep
    cases idle.symm.trans ha
  | store i value idle holds =>
    refine h.of_set (c := c) rfl
      (fun ha => .inl (ha.resolve_right (Party.not_attends (.inl idle)))) ?_
    intro hasleep
    obtain ⟨a, ha, -⟩ := Party.acquiring_of_isAsleep hasleep
    cases idle.symm.trans ha

theorem noLostWakeup_keeps {moves : List (Move n)} (h : c.Exclusive ∧ c.NoLostWakeup)
    (hrun : c.run moves = some c') : c'.Exclusive ∧ c'.NoLostWakeup :=
  run_keeps (P := fun c => c.Exclusive ∧ c.NoLostWakeup)
    (fun _ _ _ hk hm =>
      ⟨exclusive_turn hk.1 (turn_of_fire hm), noLostWakeup_turn hk.2 (turn_of_fire hm)⟩) h hrun

/-- No interleaving strands a sleeper. In particular, there is none once the lock is free and
everybody else is done. -/
theorem noLostWakeup_run {value : UInt64} {moves : List (Move n)}
    (hrun : (start n {} value).run moves = some c) :
    ((∃ i, (c.party i).isAsleep = true) →
      (c.word.state = 2 ∧ ∃ i, (c.party i).holds = true) ∨
        (∃ i, (c.party i).doing = .waking) ∨ ∃ i, (c.party i).willSwap = true) ∧
      ¬(c.word.state = 0 ∧ (∀ i, (c.party i).isIdle = true ∨ (c.party i).isAsleep = true) ∧
        ∃ i, (c.party i).isAsleep = true) := by
  obtain ⟨he, hw⟩ := noLostWakeup_keeps ⟨exclusive_start value, noLostWakeup_start value⟩ hrun
  refine ⟨?_, ?_⟩
  · rintro ⟨i, hi⟩
    rcases hw i hi with hmarked | ⟨j, hj⟩
    · obtain ⟨-, k, hk, -⟩ := he.state.resolve_left fun h => by
        rw [hmarked] at h
        exact absurd h.1 (by decide)
      exact .inl ⟨hmarked, k, hk⟩
    · exact .inr (hj.imp (fun h => ⟨j, h⟩) fun h => ⟨j, h⟩)
  · rintro ⟨hfree, hrest, i, hi⟩
    rcases hw i hi with hmarked | ⟨j, hj⟩
    · rw [hfree] at hmarked
      exact absurd hmarked (by decide)
    · rcases hrest j with hidle | hasleep
      · exact Party.not_attends (.inl (of_decide_eq_true hidle)) hj
      · obtain ⟨a, ha, hstage⟩ := Party.acquiring_of_isAsleep hasleep
        have hswap := hj.willSwap_of_acquiring ha
        rw [Attempt.willSwap_of_down (.inl hstage)] at hswap
        cases hswap

/-- Of two sleepers the first is woken, finds the lock taken past it, and gives up. -/
def takenPast (i j k : Fin 3) : List (Move 3) :=
  [.call i .forever, .step i, .call j (.within 5), .step j, .step j, .step j, .step j, .step j,
    .step j, .call k .forever, .step k, .step k, .step k, .step k, .release i, .step i,
    .wake i (some j), .call i .once, .step i, .pass 5, .step j, .step j, .step j]

theorem noLostWakeup_run_takenPast : ∃ c, (start 3).run (takenPast 0 1 2) = some c ∧
    (c.party 1).verdict = some .timedOut ∧ (c.party 2).isAsleep = true ∧
    ((c.word.state = 2 ∧ ∃ i, (c.party i).holds = true) ∨
      (∃ i, (c.party i).doing = .waking) ∨ ∃ i, (c.party i).willSwap = true) := by
  obtain ⟨c, hrun, hverdict, hasleep⟩ : ∃ c, (start 3).run (takenPast 0 1 2) = some c ∧
      (c.party 1).verdict = some .timedOut ∧ (c.party 2).isAsleep = true := ⟨_, rfl, rfl, rfl⟩
  exact ⟨c, hrun, hverdict, hasleep, (noLostWakeup_run hrun).1 ⟨2, hasleep⟩⟩

end SharedLock

end Cadence
