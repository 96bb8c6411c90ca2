import Cadence.Proofs.Run
import Cadence.Proofs.Signal.Waiting

/-!
No call gives up early. What the parties remember of their calls that wait for a time, for the lock
or for a condition is written down beside the shared without touching it. However sleeps end, and
whatever the others do, such a call does not take the end of a sleep for the end of its time, and
what it comes back with tells whether it has the lock and what its last check found.
-/

namespace Cadence

namespace TimedCalls

structure Span where
  since : Nat := 0
  reckoned : Nat := 0

namespace Span

/-- A deadline that is a timeout away from when it was reckoned, and that the clock can show. -/
structure Sets (s : Span) (timeout deadline : Nat) : Prop where
  since_le : s.since ≤ s.reckoned
  eq : deadline = s.reckoned + timeout
  lt_limit : deadline < Clock.limit

theorem sets_of_deadline? {s : Span} {now timeout deadline : Nat} (hpast : s.since ≤ now)
    (h : Clock.deadline? now timeout = some deadline) :
    { s with reckoned := now }.Sets timeout deadline := by
  obtain ⟨hlt, ⟨⟩⟩ := Option.ite_none_right_eq_some.1 h
  exact ⟨hpast, rfl, hlt⟩

/-- The clock has got to the end of a timeout that began with the call or later. -/
structure IsOver (s : Span) (timeout now : Nat) : Prop where
  since_le : s.since ≤ s.reckoned
  reached : s.reckoned + timeout ≤ now
  lt_limit : s.reckoned + timeout < Clock.limit

/-- What the clock cannot show it does not get to. -/
theorem IsOver.deadline?_ne_none {s : Span} {timeout now : Nat} (h : s.IsOver timeout now) :
    Clock.deadline? s.since timeout ≠ none := by
  have hlt : s.since + timeout < Clock.limit :=
    Nat.lt_of_le_of_lt (Nat.add_le_add_right h.since_le timeout) h.lt_limit
  rw [Clock.deadline?, if_pos hlt]
  nofun

theorem Sets.isOver {s : Span} {timeout deadline now : Nat} (h : s.Sets timeout deadline)
    (hle : deadline ≤ now) : s.IsOver timeout now :=
  ⟨h.since_le, h.eq ▸ hle, h.eq ▸ h.lt_limit⟩

end Span

structure Memory where
  span : Span := {}
  /-- Whether it had the lock when it made the call. -/
  had : Bool := false
  still : Bool := false
  /-- Whether it has had the lock ever since that check. -/
  kept : Bool := false

def Memory.after (m : Memory) (now : Nat) (holds : Bool) : SharedSignal.Step → Memory
  | .call => { span := { since := now }, had := holds }
  | .reckon => { m with span := { m.span with reckoned := now } }
  | .check still => { m with still, kept := true }

end TimedCalls

/-- A shared with what each party remembers of its last call of either kind. -/
structure TimedCalls (n : Nat) where
  shared : SharedSignal n
  memory : Fin n → SharedSignal.Errand → TimedCalls.Memory := fun _ _ => {}

namespace TimedCalls

variable {n : Nat}

def start (n : Nat) (value : UInt64) (signal : SignalWord) : TimedCalls n :=
  { shared := .start n value signal }

/-- What a party remembers of a call, but for what becomes of the lock. -/
def remember (t : TimedCalls n) (move : SharedSignal.Move n) (i : Fin n) (e : SharedSignal.Errand) :
    Memory :=
  match t.shared.occasion? move with
  | some o =>
    if o.party = i ∧ o.errand = e then
      (t.memory i e).after t.shared.contest.clock (t.shared.contest.party i).holds o.step
    else t.memory i e
  | none => t.memory i e

def record (t : TimedCalls n) (move : SharedSignal.Move n) (g : SharedSignal n) : TimedCalls n where
  shared := g
  memory i e :=
    let m := t.remember move i e
    { m with kept := m.kept && (g.contest.party i).holds }

def fire (t : TimedCalls n) (move : SharedSignal.Move n) : Option (TimedCalls n) :=
  (t.shared.fire move).map (t.record move)

def run (t : TimedCalls n) (moves : List (SharedSignal.Move n)) : Option (TimedCalls n) :=
  moves.foldlM fire t

variable {t t' : TimedCalls n} {move : SharedSignal.Move n} {g : SharedSignal n} {i : Fin n}
  {e : SharedSignal.Errand}

theorem fire_eq_some (h : t.fire move = some t') :
    ∃ g, t.shared.Turn move g ∧ t' = t.record move g := by
  obtain ⟨g, hg, h⟩ := Option.map_eq_some_iff.1 h
  exact ⟨g, SharedSignal.turn_of_fire hg, h.symm⟩

theorem map_shared_run (t : TimedCalls n) (moves : List (SharedSignal.Move n)) :
    (t.run moves).map (·.shared) = moves.foldlM SharedSignal.fire t.shared :=
  map_run (fun t move => by rw [fire]; cases t.shared.fire move <;> rfl) t moves

theorem remember_of_occasion {step : SharedSignal.Step}
    (h : t.shared.occasion? move = some ⟨i, e, step⟩) : t.remember move i e =
      (t.memory i e).after t.shared.contest.clock (t.shared.contest.party i).holds step := by
  rw [remember, h]
  exact if_pos ⟨rfl, rfl⟩

theorem remember_of_quiet (h : ∀ step, t.shared.occasion? move ≠ some ⟨i, e, step⟩) :
    t.remember move i e = t.memory i e := by
  rw [remember]
  split
  · refine if_neg ?_
    rintro ⟨rfl, rfl⟩
    exact h _ ‹_›
  · rfl

theorem remember_of_none (h : t.shared.occasion? move = none) :
    t.remember move i e = t.memory i e := by rw [remember, h]

theorem span_record : ((t.record move g).memory i e).span = (t.remember move i e).span := rfl

theorem had_record : ((t.record move g).memory i e).had = (t.remember move i e).had := rfl

theorem still_record : ((t.record move g).memory i e).still = (t.remember move i e).still := rfl

theorem kept_record : ((t.record move g).memory i e).kept =
    ((t.remember move i e).kept && (g.contest.party i).holds) := rfl

def Asks (t : TimedCalls n) (i : Fin n) : Prop := ∀ a timeout,
  (t.shared.contest.party i).doing = .acquiring a → a.patience = .within timeout →
    (t.shared.contest.party i).holds = (t.memory i .lock).had ∧
      ∀ d, a.deadline = some d → (t.memory i .lock).span.Sets timeout d

def Bides (t : TimedCalls n) (i : Fin n) : Prop := ∀ w deadline checks stage,
  (t.shared.member i).role = .waiting w deadline checks stage →
    (∀ d, deadline = some d → ∃ timeout, w.timeout = some timeout ∧
      (t.memory i .wait).span.Sets timeout d) ∧
    (stage = .look → (t.memory i .wait).still = true ∧ (t.memory i .wait).kept = true)

structure Mindful (t : TimedCalls n) : Prop where
  housed : t.shared.Housed
  since_le : ∀ i e, (t.memory i e).span.since ≤ t.shared.contest.clock
  asks : ∀ i, t.Asks i
  bides : ∀ i, t.Bides i

theorem mindful_start (value : UInt64) (signal : SignalWord) :
    (start n value signal).Mindful where
  housed := SharedSignal.housed_start value signal
  since_le _ _ := Nat.le_refl 0
  asks i a timeout h := by
    have hparty : (start n value signal).shared.contest.party i = {} :=
      SharedLock.party_start {} value i
    rw [hparty] at h
    cases h
  bides i w deadline checks stage h := by
    have hmember : (start n value signal).shared.member i = {} :=
      SharedSignal.member_start value signal i
    rw [hmember] at h
    cases h

theorem since_le_record (h : ∀ i e, (t.memory i e).span.since ≤ t.shared.contest.clock)
    (turn : t.shared.Turn move g) (i : Fin n) (e : SharedSignal.Errand) :
    ((t.record move g).memory i e).span.since ≤ g.contest.clock := by
  refine Nat.le_trans ?_ (SharedSignal.clock_le_of_turn turn)
  change (t.remember move i e).span.since ≤ _
  rw [remember]
  split
  · split
    · rename_i o _ _
      cases o.step with
      | call => exact Nat.le_refl _
      | reckon | check => exact h i e
    · exact h i e
  · exact h i e

theorem asks_record (h : t.Asks i)
    (hpast : (t.memory i .lock).span.since ≤ t.shared.contest.clock)
    (turn : t.shared.Turn move g) : (t.record move g).Asks i := by
  intro b timeout hb within
  change (g.contest.party i).doing = _ at hb
  change (g.contest.party i).holds = (t.remember move i .lock).had ∧
    ∀ d, b.deadline = some d → (t.remember move i .lock).span.Sets timeout d
  rcases SharedSignal.contest_of_turn turn with ⟨m, rfl, hc⟩ | ⟨hmove, hc⟩
  · have hholds := SharedLock.holds_of_acquiring hc hb
    generalize hdue : b.deadline = due
    have htries := SharedLock.tries_of_turn hc hb within
    rw [hdue] at htries
    cases htries with
    | called here =>
      subst here
      have ho : t.shared.occasion? (.lock (.call i (.within timeout))) =
        some ⟨i, .lock, .call⟩ := rfl
      rw [remember_of_occasion ho]
      exact ⟨hholds, nofun⟩
    | reckoned a here doing stage within =>
      subst here
      rw [remember_of_occasion (SharedSignal.occasion?_of_reckoning doing stage)]
      exact ⟨hholds.trans (h a timeout doing within).1, fun d => Span.sets_of_deadline? hpast⟩
    | goesOn a doing within uncalled past =>
      rw [remember_of_quiet]
      · exact ⟨hholds.trans (h a timeout doing within).1, (h a timeout doing within).2⟩
      · intro step ho
        obtain ⟨-, ⟨patience, hcall⟩ | ⟨hstep, a', doing', stage⟩⟩ := SharedSignal.occasion?_lock ho
        · exact uncalled patience hcall
        · cases doing.symm.trans doing'
          exact past hstep stage
  · rw [remember_of_quiet (e := .lock) fun _ ho => nomatch SharedSignal.errand_of_not_lock hmove ho]
    obtain ⟨a, doing, within, hdue, hholds⟩ := SharedSignal.acquiring_of_beside hc hb within
    rw [hholds, ← hdue]
    exact h a timeout doing within

theorem bides_record (h : t.Bides i) (hg : g.Housed)
    (hpast : (t.memory i .wait).span.since ≤ t.shared.contest.clock)
    (turn : t.shared.Turn move g) : (t.record move g).Bides i := by
  intro w deadline checks stage hrole
  change (g.member i).role = _ at hrole
  -- between the check and the look, nobody takes the lock from the waiter
  have hholds : stage = .look → (g.contest.party i).holds = true := by
    rintro rfl
    exact (hg.suits i w deadline checks .look hrole).2
  change (∀ d, deadline = some d → ∃ timeout, w.timeout = some timeout ∧
      (t.remember move i .wait).span.Sets timeout d) ∧ (stage = .look →
    (t.remember move i .wait).still = true ∧
      ((t.remember move i .wait).kept && (g.contest.party i).holds) = true)
  cases SharedSignal.waits_of_turn turn hrole with
  | called here =>
    refine ⟨nofun, fun hlook => ?_⟩
    rcases SharedSignal.entry_cases w with he | he | he <;> rw [he] at hlook <;> cases hlook
  | reckoned deadline₀ checks₀ here role =>
    subst here
    rw [remember_of_occasion (SharedSignal.occasion?_of_reckon role)]
    refine ⟨fun d hd => ?_, nofun⟩
    obtain ⟨timeout, htimeout, hd⟩ := Option.bind_eq_some_iff.1 hd
    exact ⟨timeout, htimeout, Span.sets_of_deadline? hpast hd⟩
  | checked deadline₀ checks₀ condition here role asked still =>
    subst here
    have ho := SharedSignal.occasion?_of_check role asked
    rw [still] at ho
    rw [remember_of_occasion ho]
    exact ⟨(h w deadline checks₀ .check role).1, fun hlook => ⟨rfl, hholds hlook⟩⟩
  | goesOn deadline₀ checks₀ stage₀ stage' role quiet same =>
    rw [remember_of_quiet quiet]
    obtain ⟨hdue, hstill⟩ := h w deadline checks₀ stage₀ role
    refine ⟨hdue, fun hlook => ?_⟩
    obtain ⟨hstill, hkept⟩ := hstill (same hlook)
    exact ⟨hstill, by rw [hkept, hholds hlook]; rfl⟩

theorem mindful_record (h : t.Mindful) (turn : t.shared.Turn move g) :
    (t.record move g).Mindful where
  housed := SharedSignal.housed_turn h.housed turn
  since_le := since_le_record h.since_le turn
  asks i := asks_record (h.asks i) (h.since_le i .lock) turn
  bides i := bides_record (h.bides i) (SharedSignal.housed_turn h.housed turn) (h.since_le i .wait)
    turn

/-- How a call for the lock comes back that may take a time: with a lock that was not its own before,
or with nothing. -/
inductive Answered (t : TimedCalls n) (i : Fin n) (timeout : Nat) : Verdict → Prop
  | acquired (had : (t.memory i .lock).had = false) (owns : t.shared.contest.Owns i) :
      Answered t i timeout .acquired
  | timedOut (same : (t.shared.contest.party i).holds = (t.memory i .lock).had)
      (late : (t.memory i .lock).span.IsOver timeout t.shared.contest.clock) :
      Answered t i timeout .timedOut
  | failed (why : Errno) (same : (t.shared.contest.party i).holds = (t.memory i .lock).had) :
      Answered t i timeout (.failed why)

/-- How a wait for a condition comes back that may take a time: with the lock, which it has had since
its last check. -/
structure Returned (t : TimedCalls n) (i : Fin n) (timeout : Nat) (r : Report) : Prop where
  idle : (t.shared.contest.party i).doing = .idle
  owns : t.shared.contest.Owns i
  still : (t.memory i .wait).still = r.timedOut
  kept : (t.memory i .wait).kept = true
  late : r.timedOut = true → (t.memory i .wait).span.IsOver timeout t.shared.contest.clock

theorem answered_record (h : t.Mindful) (turn : t.shared.Turn move g) {timeout : Nat}
    (htimeout : (t.shared.contest.party i).timeout? = some timeout)
    (hidle : (g.contest.party i).doing = .idle) : ∃ v, (g.contest.party i).verdict = some v ∧
      (t.record move g).Answered i timeout v := by
  obtain ⟨a, doing, within⟩ := Party.acquiring_of_timeout? htimeout
  have hexclusive := (SharedSignal.housed_turn h.housed turn).exclusive
  rcases SharedSignal.contest_of_turn turn with ⟨m, rfl, hc⟩ | ⟨-, ⟨j, hc | hc⟩ | ⟨hparties, -⟩⟩
  · obtain ⟨rfl, v, w, hturn, hverdict, hholds⟩ := SharedLock.comeBack_of_turn hc doing hidle
    refine ⟨v, hverdict, ?_⟩
    obtain ⟨hsame, hdue⟩ := h.asks i a timeout doing within
    have hquiet : t.remember (.lock (.step i)) i .lock = t.memory i .lock :=
      remember_of_none (SharedSignal.occasion?_of_acquiring doing hturn.stage_of_inr)
    have hhad : ((t.record (.lock (.step i)) g).memory i .lock).had = (t.memory i .lock).had := by
      rw [had_record, hquiet]
    have hfree (hstate : t.shared.contest.word.state = 0) :
        (t.memory i .lock).had = false := by
      rw [← hsame]
      exact h.housed.exclusive.none_holds hstate i
    have hnothing (hv : v ≠ .acquired) : (g.contest.party i).holds =
        ((t.record (.lock (.step i)) g).memory i .lock).had := by
      rw [hholds, hhad, decide_eq_false hv, Bool.or_false, hsame]
    cases hturn with
    | take here free | seize here free =>
      refine .acquired (hhad.trans (hfree free)) (hexclusive.owns ?_)
      rw [hholds]
      exact Bool.or_true _
    | refuse here taken once => cases within.symm.trans once
    | expire deadline here due late =>
      refine .timedOut (hnothing nofun) ?_
      rw [span_record, hquiet]
      exact (hdue deadline due).isOver (Nat.le_trans late (SharedSignal.clock_le_of_turn turn))
    | giveUp why timeout' here => exact .failed why (hnothing nofun)
  · cases (SharedLock.comeBack_of_turn hc doing hidle).1
  · cases (SharedLock.comeBack_of_turn hc doing hidle).1
  · rw [SharedLock.party_congr hparties, doing] at hidle
    cases hidle

theorem returned_record (h : t.Mindful) (turn : t.shared.Turn move g) {timeout : Nat}
    (htimeout : (t.shared.member i).timeout? = some timeout)
    (hfree : (g.member i).role = .free) : ∃ r, (g.member i).report = some r ∧
      (t.record move g).Returned i timeout r := by
  obtain ⟨w, deadline, checks, stage, role, asked, htimeout⟩ := Member.waiting_of_timeout? htimeout
  obtain ⟨hdue, hlook⟩ := h.bides i w deadline checks stage role
  obtain ⟨hparties, hend⟩ := SharedSignal.freed_of_turn turn role asked hfree
  have hsuits : (g.contest.party i).doing = .idle ∧ (g.contest.party i).holds = true := by
    rw [SharedLock.party_congr hparties]
    rcases hend with ⟨rfl, -⟩ | ⟨rfl, -⟩ <;> exact h.housed.suits i w deadline checks _ role
  have howns := (SharedSignal.housed_turn h.housed turn).exclusive.owns hsuits.2
  rcases hend with ⟨-, ho, hreport⟩ | ⟨rfl, ho, ⟨d, rfl, hle⟩, hreport⟩
  · refine ⟨⟨false, checks + 1⟩, hreport, hsuits.1, howns, ?_, ?_, nofun⟩
    · rw [still_record, remember_of_occasion ho]
      rfl
    · rw [kept_record, remember_of_occasion ho]
      exact hsuits.2
  · have hquiet : t.remember move i .wait = t.memory i .wait := remember_of_none ho
    refine ⟨⟨true, checks⟩, hreport, hsuits.1, howns, ?_, ?_, fun _ => ?_⟩
    · rw [still_record, hquiet]
      exact (hlook rfl).1
    · rw [kept_record, hquiet, (hlook rfl).2]
      exact hsuits.2
    · obtain ⟨timeout', hw, hsets⟩ := hdue d rfl
      cases htimeout.symm.trans hw
      rw [span_record, hquiet]
      exact hsets.isOver hle

/-- How the calls come back that may take a time, whatever the next move is. -/
structure Punctual (t : TimedCalls n) : Prop where
  lock : ∀ move t' i timeout, t.fire move = some t' →
    (t.shared.contest.party i).timeout? = some timeout →
      (t'.shared.contest.party i).isIdle = true →
        ∃ v, (t'.shared.contest.party i).verdict = some v ∧ t'.Answered i timeout v ∧
          (Clock.deadline? (t'.memory i .lock).span.since timeout = none → v ≠ .timedOut)
  wait : ∀ move t' i timeout, t.fire move = some t' →
    (t.shared.member i).timeout? = some timeout → (t'.shared.member i).isFree = true →
      ∃ r, (t'.shared.member i).report = some r ∧ t'.Returned i timeout r ∧
        (Clock.deadline? (t'.memory i .wait).span.since timeout = none → r.timedOut = false)

theorem Answered.ne_timedOut {timeout : Nat} {v : Verdict} (h : t.Answered i timeout v)
    (hnone : Clock.deadline? (t.memory i .lock).span.since timeout = none) : v ≠ .timedOut := by
  cases h with
  | acquired | failed => nofun
  | timedOut same late => exact absurd hnone late.deadline?_ne_none

theorem Returned.timedOut_eq_false {timeout : Nat} {r : Report} (h : t.Returned i timeout r)
    (hnone : Clock.deadline? (t.memory i .wait).span.since timeout = none) :
    r.timedOut = false :=
  Bool.eq_false_iff.2 fun htimedOut => (h.late htimedOut).deadline?_ne_none hnone

/-- Whatever ends the sleeps and whatever the others do, a call reports the end of its time only when
the clock has got there, and says truly who has the lock and what became of the condition. -/
theorem punctual_run {value : UInt64} {signal : SignalWord} {moves : List (SharedSignal.Move n)}
    {g : SharedSignal n} (hrun : moves.foldlM SharedSignal.fire (.start n value signal) = some g) :
    ∃ t, (start n value signal).run moves = some t ∧ t.shared = g ∧ t.Punctual := by
  have hmap := (map_shared_run (start n value signal) moves).trans hrun
  obtain ⟨t, ht, rfl⟩ := Option.map_eq_some_iff.1 hmap
  have h : t.Mindful := run_keeps (fun t move t' h hfire => by
    obtain ⟨g, turn, rfl⟩ := fire_eq_some hfire
    exact mindful_record h turn) (mindful_start value signal) ht
  refine ⟨t, ht, rfl, fun move t' i timeout hfire htimeout hidle => ?_,
    fun move t' i timeout hfire htimeout hfree => ?_⟩
  · obtain ⟨g, turn, rfl⟩ := fire_eq_some hfire
    obtain ⟨v, hverdict, hanswered⟩ := answered_record h turn htimeout (of_decide_eq_true hidle)
    exact ⟨v, hverdict, hanswered, hanswered.ne_timedOut⟩
  · obtain ⟨g, turn, rfl⟩ := fire_eq_some hfire
    obtain ⟨r, hreport, hreturned⟩ :=
      returned_record h turn htimeout (SharedSignal.free_of_isFree hfree)
    exact ⟨r, hreport, hreturned, hreturned.timedOut_eq_false⟩

/-- One party has the lock for longer than the other would wait for it. Its sleep ends too early once
before it ends in time. -/
def outlasted (i j : Fin 2) : List (SharedSignal.Move 2) :=
  [.lock (.call i .forever), .lock (.step i), .lock (.call j (.within 5))] ++
    List.replicate 6 (.lock (.step j)) ++ [.lock (.rouse j .timedOut)] ++
    List.replicate 2 (.lock (.step j)) ++ [.lock (.pass 5)]

/-- The first then waits for a value that nobody writes, and is roused too early as well. -/
def unheeded (i j : Fin 2) : List (SharedSignal.Move 2) :=
  outlasted i j ++ [.lock (.step j), .wait i (.whileBelow 1 (some 7))] ++
    List.replicate 5 (.step i) ++ [.lock (.step i), .lock (.wake i none)] ++
    List.replicate 2 (.step i) ++ [.rouse i .timedOut, .step i, .lock (.step i)] ++
    List.replicate 2 (.step i) ++ [.lock (.pass 7)]

theorem punctual_run_unheeded :
    (∃ t t', (start 2 0 {}).run (outlasted 0 1) = some t ∧ t.fire (.lock (.step 1)) = some t' ∧
      t'.Answered 1 5 .timedOut) ∧
    ∃ t t', (start 2 0 {}).run (unheeded 0 1) = some t ∧ t.fire (.step 0) = some t' ∧
      t'.Returned 0 7 ⟨true, 2⟩ := by
  refine ⟨?_, ?_⟩
  · obtain ⟨g, hrun⟩ := Option.isSome_iff_exists.1 (show
      ((outlasted 0 1).foldlM SharedSignal.fire (.start 2 0 {})).isSome = true by decide +kernel)
    obtain ⟨t, ht, -, hpunctual⟩ := punctual_run hrun
    have hseen : ((start 2 0 {}).run (outlasted 0 1) >>= fun t =>
        (t.fire (.lock (.step 1))).map fun t' => ((t.shared.contest.party 1).timeout?,
          (t'.shared.contest.party 1).isIdle, (t'.shared.contest.party 1).verdict)) =
        some (some 5, true, some .timedOut) := by decide +kernel
    rw [ht] at hseen
    obtain ⟨t', hfire, hseen⟩ := Option.map_eq_some_iff.1 hseen
    simp only [Prod.mk.injEq] at hseen
    obtain ⟨v, hverdict, hanswered, -⟩ := hpunctual.lock _ t' 1 5 hfire hseen.1 hseen.2.1
    cases hverdict.symm.trans hseen.2.2
    exact ⟨t, t', ht, hfire, hanswered⟩
  · obtain ⟨g, hrun⟩ := Option.isSome_iff_exists.1 (show
      ((unheeded 0 1).foldlM SharedSignal.fire (.start 2 0 {})).isSome = true by decide +kernel)
    obtain ⟨t, ht, -, hpunctual⟩ := punctual_run hrun
    have hseen : ((start 2 0 {}).run (unheeded 0 1) >>= fun t =>
        (t.fire (.step 0)).map fun t' => ((t.shared.member 0).timeout?,
          (t'.shared.member 0).isFree, (t'.shared.member 0).report)) =
        some (some 7, true, some ⟨true, 2⟩) := by decide +kernel
    rw [ht] at hseen
    obtain ⟨t', hfire, hseen⟩ := Option.map_eq_some_iff.1 hseen
    simp only [Prod.mk.injEq] at hseen
    obtain ⟨r, hreport, hreturned, -⟩ := hpunctual.wait _ t' 0 7 hfire hseen.1 hseen.2.1
    cases hreport.symm.trans hseen.2.2
    exact ⟨t, t', ht, hfire, hreturned⟩

end TimedCalls

end Cadence
