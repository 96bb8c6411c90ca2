import Cadence.Proofs.Signal.NotifyAll

/-!
A notification of one, and whom it reaches. Between its increment and its wake others may move: one that
notes the new generation and falls asleep at once is a sleeper like those that were there before, and the
wake may go to it. Whoever was still on its way to sleep at the increment does not fall asleep any more,
so this takes that all who were there before slept already; and nobody can note anything while
the notifier holds the lock.
-/

namespace Cadence

namespace SharedSignal

variable {n : Nat} {g g' : SharedSignal n} {move : Move n} {i : Fin n}

theorem role_of_advance (turn : Turn g (.step i) g') {all : Bool}
    (here : (g.member i).role = .notifying all .advance) :
    (g'.member i).role = .notifying all .count := by
  have hnotifies := notifies_of_turn turn here
  generalize (g'.member i).role = role at hnotifies
  cases hnotifies with
  | stay _ other => exact absurd rfl (of_decide_eq_false other)
  | advance => rfl

/-- A notification of one that is past its increment and not back. -/
def IsWaking (g : SharedSignal n) (i : Fin n) : Prop :=
  ∃ stage, (g.member i).role = .notifying false stage ∧ stage ≠ .advance

theorem isWaking_of_turn (turn : Turn g move g') (h : g.IsWaking i)
    (busy : (g'.member i).role ≠ .free) : g'.IsWaking i := by
  obtain ⟨stage, here, hstage⟩ := h
  have hnotifies := notifies_of_turn turn here
  unfold IsWaking
  generalize (g'.member i).role = role at hnotifies busy
  cases hnotifies with
  | stay => exact ⟨stage, rfl, hstage⟩
  | advance => exact absurd rfl hstage
  | heed => exact ⟨.wake, rfl, nofun⟩
  | rest | wakeOne | wakeAll => exact absurd rfl busy

/-- Only an idle party notifies, and it stays idle with regard to the lock. -/
def Unoccupied (g : SharedSignal n) : Prop :=
  ∀ i all stage, (g.member i).role = .notifying all stage → (g.contest.party i).doing = .idle

theorem unoccupied_start (value : UInt64) (signal : SignalWord) :
    (start n value signal).Unoccupied := by
  intro i all stage here
  rw [member_start] at here
  cases here

theorem party_of_turn_of_notifying (turn : Turn g move g') {all : Bool} {stage : NotifyStage}
    (here : (g.member i).role = .notifying all stage)
    (idle : (g.contest.party i).doing = .idle) : g'.contest.party i = g.contest.party i := by
  cases turn with
  | lock move c allowed turn =>
    exact SharedLock.party_of_turn_of_idle turn idle
      (isCallOf_of_permits allowed (by rw [here]; exact nofun))
  | enroll j w deadline checks generation c there turn
  | leave j w deadline checks cause c there turn =>
    refine SharedLock.party_of_turn_of_idle turn idle (decide_eq_false ?_)
    rintro rfl
    cases here.symm.trans there
  | _ => rfl

theorem unoccupied_turn (h : g.Unoccupied) (turn : Turn g move g') : g'.Unoccupied := by
  intro i all stage here
  rcases notifying_of_turn turn here with ⟨stage', there⟩ | ⟨-, -, idle, hcontest⟩
  · rw [party_of_turn_of_notifying turn there (h i all stage' there)]
    exact h i all stage' there
  · rw [hcontest]
    exact idle

end SharedSignal

namespace SignalHistory

variable {n : Nat} {t t₁ t' u u' : SignalHistory n} {still : UInt64 → Bool} {move : SharedSignal.Move n}
  {g : SharedSignal n} {s : UInt32} {i j : Fin n} {reached : Option (Fin n)}

/-- Has noted the generation and is asleep or on its way to sleep. -/
def Waits (t : SignalHistory n) (j : Fin n) : Prop := (t.shared.member j).noting?.isSome = true

/-- Is asleep in a wait that noted the generation after so many advances at most. -/
def SleepsSince (t : SignalHistory n) (advances : Nat) (j : Fin n) : Prop :=
  (t.shared.member j).isAsleep = true ∧ t.noted j ≤ advances

instance (t : SignalHistory n) (j : Fin n) : Decidable (t.Waits j) :=
  inferInstanceAs (Decidable (_ = true))

instance (t : SignalHistory n) (advances : Nat) (j : Fin n) : Decidable (t.SleepsSince advances j) :=
  inferInstanceAs (Decidable (_ ∧ _))

/-- From within a notification of one by `i` up to its return, and whom its wake reaches. -/
inductive WakesOne (still : UInt64 → Bool) (i : Fin n) :
    SignalHistory n → Option (Fin n) → SignalHistory n → Prop
  | rest {t t' : SignalHistory n} (fires : t.fire still (.step i) = some t')
      (back : (t'.shared.member i).role = .free) : WakesOne still i t none t'
  | wake {t t' : SignalHistory n} {reached : Option (Fin n)}
      (fires : t.fire still (.wakeOne i reached) = some t') : WakesOne still i t reached t'
  | wait {t t₁ t' : SignalHistory n} {move : SharedSignal.Move n} {reached : Option (Fin n)}
      (fires : t.fire still move = some t₁) (busy : (t₁.shared.member i).role ≠ .free)
      (later : WakesOne still i t₁ reached t') : WakesOne still i t reached t'

theorem waits_of_isAsleep (h : (t.shared.member j).isAsleep = true) : t.Waits j := by
  obtain ⟨x, hx⟩ := noting?_of_isAsleep h
  unfold Waits
  rw [hx]
  rfl

/-- Whoever is asleep after a move was asleep in the same wait before, or has just noted the present
generation, unless the word has come around since. -/
theorem sleepsSince_of_turn {advances : Nat} (ht : u.Timed s)
    (turn : u.shared.Turn move g) (hlag : (u.record still move g).lag j < UInt32.size)
    (hsleeps : (u.record still move g).SleepsSince advances j) :
    u.SleepsSince advances j ∧ u.lag j < UInt32.size ∨
      u.shared.event? move = some (.compare j) ∧ u.advances ≤ advances := by
  obtain ⟨hasleep, hnoted⟩ := hsleeps
  unfold lag at hlag ⊢
  rcases SharedSignal.isAsleep_of_turn turn hasleep with hold | ⟨w, deadline, checks, rfl, hrole⟩
  · obtain ⟨x, hx⟩ := noting?_of_isAsleep hold
    have hcompared : u.shared.event? move ≠ some (.compare j) := by
      intro he
      obtain ⟨-, w, deadline, checks, generation, hrole⟩ := SharedSignal.occurs_of_event? he
      rw [Member.isAsleep, hrole] at hold
      cases hold
    rw [noted_of_ne (event?_ne_note hx)] at hnoted
    rw [noted_of_ne (event?_ne_note hx), compared_of_ne hcompared] at hlag
    exact .inl ⟨⟨hold, hnoted⟩, hlag⟩
  · have hnoting : (u.shared.member j).noting? = some (w, u.shared.signal.generation) := by
      rw [Member.noting?, hrole]
    rw [noted_of_ne (event?_ne_note hnoting)] at hnoted
    rw [noted_of_ne (event?_ne_note hnoting),
      compared_of_compare (SharedSignal.event?_of_doze hrole)] at hlag
    have hsame := ht.same j _ _ hnoting
    rw [ht.generation, UInt32.add_right_inj] at hsame
    rw [UInt32.eq_of_ofNat_eq hsame.symm (ht.noted j) hlag] at hnoted
    exact .inr ⟨SharedSignal.event?_of_doze hrole, hnoted⟩

/-- What holds from the increment of a notification by `i` in the state `t` up to its return. -/
structure NotifiedSince (t : SignalHistory n) (i : Fin n) (u : SignalHistory n) : Prop where
  waking : u.shared.IsWaking i
  past : t.advances < u.advances
  slept : ∀ j, u.SleepsSince t.advances j → u.lag j < UInt32.size →
    (t.shared.member j).isAsleep = true
  party : u.shared.contest.party i = t.shared.contest.party i
  unnoted : (t.shared.contest.party i).holds = true → ∀ j, u.noted j ≤ t.advances

theorem notifiedSince_of_advance (ht : t.Timed s) (hu : t.shared.Unoccupied)
    (here : (t.shared.member i).role = .notifying false .advance)
    (turn : t.shared.Turn (.step i) g) : t.NotifiedSince i (t.record still (.step i) g) := by
  have hevent := SharedSignal.event?_of_advance here
  refine ⟨?_, ?_, ?_, ?_, ?_⟩
  · exact ⟨.count, SharedSignal.role_of_advance turn here, nofun⟩
  · rw [advances_of_advance hevent]
    exact Nat.lt_succ_self _
  · intro j hsleeps hlag
    rcases sleepsSince_of_turn ht turn hlag hsleeps with ⟨hold, -⟩ | ⟨hcompare, -⟩
    · exact hold.1
    · rw [hevent] at hcompare
      cases hcompare
  · exact SharedSignal.party_of_turn_of_notifying turn here (hu i _ _ here)
  · intro _ j
    rw [noted_of_ne (by rw [hevent]; exact nofun)]
    exact ht.noted j

theorem notifiedSince_turn (hw : t.NotifiedSince i u) (ht : u.Timed s) (hh : u.shared.Housed)
    (hu : u.shared.Unoccupied) (turn : u.shared.Turn move g)
    (busy : (g.member i).role ≠ .free) : t.NotifiedSince i (u.record still move g) := by
  obtain ⟨stage, here, -⟩ := hw.waking
  refine ⟨SharedSignal.isWaking_of_turn turn hw.waking busy, ?_, ?_, ?_, ?_⟩
  · exact Nat.lt_of_lt_of_le hw.past advances_le
  · intro j hsleeps hlag
    rcases sleepsSince_of_turn ht turn hlag hsleeps with ⟨hold, hlag⟩ | ⟨-, hle⟩
    · exact hw.slept j hold hlag
    · exact absurd hle (Nat.not_le_of_lt hw.past)
  · exact (SharedSignal.party_of_turn_of_notifying turn here (hu i _ _ here)).trans hw.party
  · intro holds j
    by_cases hnote : u.shared.event? move = some (.note j)
    · -- Whoever notes the generation holds the lock, and that is `i`.
      obtain ⟨-, w, deadline, checks, hrole⟩ := SharedSignal.occurs_of_event? hnote
      have hj : _ ∧ _ := hh.suits j _ _ _ _ hrole
      rw [← hw.party] at holds
      obtain rfl := hh.eq_of_holds holds hj.2
      cases here.symm.trans hrole
    · rw [noted_of_ne hnote]
      exact hw.unnoted holds j

/-- Some party that waited in the state `t` does not sleep on. Or else all of them slept already, and
the wake has gone to one that came later, while the notifier did not hold the lock. -/
def Reaches (t : SignalHistory n) (i : Fin n) (reached : Option (Fin n))
    (t' : SignalHistory n) : Prop :=
  (∃ j, t.Waits j ∧ ¬ t'.SleepsSince t.advances j) ∨
    (t.shared.contest.party i).holds = false ∧
      (∀ j, t.Waits j → (t.shared.member j).isAsleep = true) ∧
      ∃ k, reached = some k ∧ t.advances < t'.noted k

/-- The last move of a notification, if all who waited sleep on. -/
theorem sleepsSince_of_last (hw : t.NotifiedSince i u) (ht : u.Timed s)
    (turn : u.shared.Turn move g)
    (hlag : ∀ j, (u.record still move g).lag j < UInt32.size)
    (hall : ∀ j, t.Waits j → (u.record still move g).SleepsSince t.advances j) {j : Fin n}
    (hj : t.Waits j) :
    (u.shared.member j).isAsleep = true ∧ (t.shared.member j).isAsleep = true := by
  rcases sleepsSince_of_turn ht turn (hlag j) (hall j hj) with ⟨hold, hlag⟩ | ⟨-, hle⟩
  · exact ⟨hold.1, hw.slept j hold hlag⟩
  · exact absurd hle (Nat.not_le_of_lt hw.past)

theorem reaches_of_rest (hn : n < UInt32.size) (hw : t.NotifiedSince i u) (ht : u.Timed s)
    (hc : u.shared.Counted) (turn : u.shared.Turn (.step i) g)
    (hlag : ∀ j, (u.record still (.step i) g).lag j < UInt32.size) (hj : t.Waits j)
    (back : (g.member i).role = .free) : t.Reaches i none (u.record still (.step i) g) := by
  obtain ⟨stage, here, hstage⟩ := hw.waking
  refine .inl (Classical.byContradiction fun hnone => ?_)
  have hall : ∀ j, t.Waits j → (u.record still (.step i) g).SleepsSince t.advances j :=
    fun j hj => Classical.byContradiction fun h => hnone ⟨j, hj, h⟩
  have hasleep := (sleepsSince_of_last hw ht turn hlag hall hj).1
  have hnotifies := SharedSignal.notifies_of_turn turn here
  rw [back] at hnotifies
  cases hnotifies with
  | rest _ hnobody =>
    exact hc.waiters_ne_zero hn (SharedSignal.isRegistered_of_isAsleep hasleep) hnobody
  | wakeOne _ own | wakeAll _ own => cases own

theorem reaches_of_wake (hw : t.NotifiedSince i u) (ht : u.Timed s)
    (turn : u.shared.Turn (.wakeOne i reached) g)
    (hlag : ∀ j, (u.record still (.wakeOne i reached) g).lag j < UInt32.size) (hj : t.Waits j) :
    t.Reaches i reached (u.record still (.wakeOne i reached) g) := by
  unfold Reaches
  refine Classical.or_iff_not_imp_left.2 fun hnone => ?_
  have hall : ∀ j, t.Waits j →
      (u.record still (.wakeOne i reached) g).SleepsSince t.advances j :=
    fun j hj => Classical.byContradiction fun h => hnone ⟨j, hj, h⟩
  have hlast := fun {j} => sleepsSince_of_last hw ht turn hlag hall (j := j)
  cases reached with
  | none =>
    obtain ⟨hasleep, -⟩ := hlast hj
    cases turn with
    | wakeNobody _ _ nobody => cases (nobody j).symm.trans hasleep
  | some k =>
    have hwoken : (g.member k).isAsleep = false ∧ (u.shared.member k).isAsleep = true := by
      cases turn with
      | wakeOne _ _ w deadline checks generation _ there =>
        exact ⟨by rw [SharedSignal.member_set_self]; rfl, by rw [Member.isAsleep, there]⟩
    have hnoted : t.advances < u.noted k := by
      refine Nat.lt_of_not_le fun hle => ?_
      -- Else it slept at the increment and would sleep on.
      have hwaits := waits_of_isAsleep (hw.slept k ⟨hwoken.2, hle⟩ (hlag k))
      cases hwoken.1.symm.trans (hall k hwaits).1
    refine ⟨Bool.eq_false_iff.2 fun holds => ?_, fun j hj => (hlast hj).2, k, rfl, hnoted⟩
    exact absurd (hw.unnoted holds k) (Nat.not_le_of_lt hnoted)

theorem reaches_of_wakesOne (hn : n < UInt32.size) (hwakes : WakesOne still i u reached t')
    (ho : u.Orderly still s) (hu : u.shared.Unoccupied) (hw : t.NotifiedSince i u)
    (hlag : ∀ j, t'.lag j < UInt32.size) (hj : t.Waits j) : t.Reaches i reached t' := by
  induction hwakes with
  | rest fires back =>
    obtain ⟨g, turn, rfl⟩ := fire_eq_some fires
    exact reaches_of_rest hn hw ho.timed ho.counted turn hlag hj back
  | wake fires =>
    obtain ⟨g, turn, rfl⟩ := fire_eq_some fires
    exact reaches_of_wake hw ho.timed turn hlag hj
  | wait fires busy _ ih =>
    have ho' := orderly_fire ho fires
    obtain ⟨g, turn, rfl⟩ := fire_eq_some fires
    exact ih ho' (SharedSignal.unoccupied_turn hu turn)
      (notifiedSince_turn hw ho.timed ho.housed hu turn busy) hlag

theorem unoccupied_run {moves : List (SharedSignal.Move n)} (h : t.shared.Unoccupied)
    (hrun : t.run still moves = some t') : t'.shared.Unoccupied := by
  refine run_keeps (P := fun u : SignalHistory n => u.shared.Unoccupied) (fun _ _ _ hu hm => ?_) h
    hrun
  obtain ⟨g, turn, rfl⟩ := fire_eq_some hm
  exact SharedSignal.unoccupied_turn hu turn

/-- A notification of one brings somebody on who waited at its increment, with one exception: it does
not hold the lock, all of them are asleep by then, and before its wake there is another
sleeper, which noted the generation after the increment and takes the wake. -/
theorem notifyOne_wakes_run (hn : n < UInt32.size) {value : UInt64}
    {moves : List (SharedSignal.Move n)} (hrun : (start n value s).run still moves = some t)
    (here : (t.shared.member i).role = .notifying false .advance)
    (hadvance : t.fire still (.step i) = some t₁) (hwakes : WakesOne still i t₁ reached t')
    (hlag : ∀ j, t'.lag j < UInt32.size) (hwaits : ∃ j, t.Waits j) : t.Reaches i reached t' := by
  have ho := orderly_run (orderly_start still value s) hrun
  have hu := unoccupied_run (SharedSignal.unoccupied_start value { generation := s }) hrun
  have ho₁ := orderly_fire ho hadvance
  obtain ⟨j, hj⟩ := hwaits
  obtain ⟨g, turn, rfl⟩ := fire_eq_some hadvance
  exact reaches_of_wakesOne hn hwakes ho₁ (SharedSignal.unoccupied_turn hu turn)
    (notifiedSince_of_advance ho.timed hu here turn) hlag hj

/-- The moves of a notification that sees somebody, with others before its look at the count. -/
def notification (i : Fin n) (between : List (SharedSignal.Move n)) (reached : Option (Fin n)) :
    List (SharedSignal.Move n) :=
  .step i :: (between ++ [.step i, .wakeOne i reached])

/-- Moves of others go before the rest of a notification. -/
theorem WakesOne.after {between : List (SharedSignal.Move n)} (hwakes : WakesOne still i u' reached t')
    (hrun : u.run still between = some u')
    (here : (u.shared.member i).role = .notifying false .count)
    (hothers : ∀ move ∈ between, move.isOwn i = false) : WakesOne still i u reached t' := by
  induction between generalizing u with
  | nil =>
    cases hrun
    exact hwakes
  | cons move between ih =>
    obtain ⟨u₁, hmove, hrun⟩ := foldlM_cons_eq_some.1 hrun
    have there : (u₁.shared.member i).role = .notifying false .count := by
      obtain ⟨g, turn, rfl⟩ := fire_eq_some hmove
      exact SharedSignal.role_of_turn_of_notifying turn here (hothers move (.head _))
    exact .wait hmove (there ▸ nofun)
      (ih hrun there fun move' hmem => hothers move' (.tail _ hmem))

theorem wakesOne_of_notification {between : List (SharedSignal.Move n)}
    (hrun : t.run still (notification i between reached) = some t')
    (here : (t.shared.member i).role = .notifying false .advance)
    (hothers : ∀ move ∈ between, move.isOwn i = false) :
    ∃ t₁, t.fire still (.step i) = some t₁ ∧ WakesOne still i t₁ reached t' := by
  obtain ⟨t₁, hadvance, hrun⟩ := foldlM_cons_eq_some.1 hrun
  obtain ⟨u, hbetween, hrun⟩ := foldlM_append_eq_some.1 hrun
  obtain ⟨u₁, hcount, hrun⟩ := foldlM_cons_eq_some.1 hrun
  obtain ⟨u₂, hwake, hrun⟩ := foldlM_cons_eq_some.1 hrun
  cases hrun
  have hthere : (t₁.shared.member i).role = .notifying false .count := by
    obtain ⟨g, turn, rfl⟩ := fire_eq_some hadvance
    exact SharedSignal.role_of_advance turn here
  have hbusy : (u₁.shared.member i).role ≠ .free := by
    intro hfree
    obtain ⟨g, turn, -⟩ := fire_eq_some hwake
    cases turn with
    | wakeOne _ _ _ _ _ _ there | wakeNobody _ there => cases hfree.symm.trans there
  have hlast : WakesOne still i u reached t' := .wait hcount hbusy (.wake hwake)
  exact ⟨t₁, hadvance, hlast.after hbetween hthere hothers⟩

/-- One party sleeps and the last is about to notify it, without the lock. -/
def oneAsleep (n : Nat) : List (SharedSignal.Move (n + 2)) :=
  SharedSignal.lieDown 0 ++ [.notify (Fin.last (n + 1)) false]

/-- With nobody else around the wake reaches the one that sleeps. -/
theorem notifyOne_wakes_run_oneAsleep :
    ∃ t t₁ t', (start 2 0 4294967295).run (fun _ => true) (oneAsleep 0) = some t ∧
      t.fire (fun _ => true) (.step 1) = some t₁ ∧ WakesOne (fun _ => true) 1 t₁ (some 0) t' ∧
      t.Waits 0 ∧ t.Reaches 1 (some 0) t' := by
  have hbefore : ((start 2 0 4294967295).run (fun _ => true) (oneAsleep 0)).map (fun t =>
      (t.notifying? 1, decide (t.Waits 0))) = some (some (false, .advance), true) := by
    decide +kernel
  have hafter : ((start 2 0 4294967295).run (fun _ => true)
      (oneAsleep 0 ++ notification 1 [] (some 0))).map (fun t =>
        decide (∀ j, t.lag j < UInt32.size)) = some true := by decide +kernel
  obtain ⟨t', hrun', hlag⟩ := Option.map_eq_some_iff.1 hafter
  obtain ⟨t, hrun, hnotify⟩ := foldlM_append_eq_some.1 hrun'
  have hfacts := (congrArg (Option.map _) hrun).symm.trans hbefore
  simp only [Option.map_some, Option.some.injEq, Prod.mk.injEq, decide_eq_true_eq] at hfacts
  have here := role_of_notifying? hfacts.1
  obtain ⟨t₁, hadvance, hwakes⟩ := wakesOne_of_notification hnotify here nofun
  exact ⟨t, t₁, t', hrun, hadvance, hwakes, hfacts.2,
    notifyOne_wakes_run (by decide) hrun here hadvance hwakes (of_decide_eq_true hlag) ⟨0, hfacts.2⟩⟩

/-- A party that comes later notes the new generation, falls asleep and takes the wake, and the one that
slept before sleeps on. -/
theorem newcomer_takes_wake :
    ∃ t t₁ t', (start 3 0 0).run (fun _ => true) (oneAsleep 1) = some t ∧
      (t.shared.member 2).role = .notifying false .advance ∧
      t.fire (fun _ => true) (.step 2) = some t₁ ∧ WakesOne (fun _ => true) 2 t₁ (some 1) t' ∧
      (∀ j, t'.lag j < UInt32.size) ∧ t.Waits 0 ∧
      ¬ ∃ j, t.Waits j ∧ ¬ t'.SleepsSince t.advances j := by
  have hbefore : ((start 3 0 0).run (fun _ => true) (oneAsleep 1)).map (fun t =>
      (t.notifying? 2, t.advances, decide (∀ j, t.Waits j ↔ j = 0))) =
        some (some (false, .advance), 0, true) := by decide +kernel
  have hafter : ((start 3 0 0).run (fun _ => true)
      (oneAsleep 1 ++ notification 2 (SharedSignal.lieDown 1) (some 1))).map (fun t =>
        (decide (∀ j, t.lag j < UInt32.size), decide (t.SleepsSince 0 0))) =
          some (true, true) := by decide +kernel
  obtain ⟨t', hrun', hend⟩ := Option.map_eq_some_iff.1 hafter
  obtain ⟨t, hrun, hnotify⟩ := foldlM_append_eq_some.1 hrun'
  have hfacts := (congrArg (Option.map _) hrun).symm.trans hbefore
  simp only [Option.map_some, Option.some.injEq, Prod.mk.injEq, decide_eq_true_eq] at hfacts hend
  obtain ⟨hstage, hadvances, hwaits⟩ := hfacts
  have here := role_of_notifying? hstage
  obtain ⟨t₁, hadvance, hwakes⟩ := wakesOne_of_notification hnotify here (by decide)
  refine ⟨t, t₁, t', hrun, here, hadvance, hwakes, hend.1, (hwaits 0).2 rfl, ?_⟩
  rintro ⟨j, hj, hsleeps⟩
  obtain rfl := (hwaits j).1 hj
  rw [hadvances] at hsleeps
  exact hsleeps hend.2

end SignalHistory

end Cadence
