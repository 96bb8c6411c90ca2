import Cadence.Clock
import Cadence.Periodic.Worker
import Cadence.Proofs.Run
import Cadence.Scheduling.Linux
import Mathlib.Data.Finset.Card

/-!
The pace of a worker's cycles. Whatever happens between two waits, each moves the deadline on by at
least one interval, and a cycle begins no sooner than the deadline of the wait before it. So cycles
never come closer together to make up for late ones, and as long as none is late, the deadlines do
not drift. The clock may stand still, but it does not go back, and no sleep is over before its
deadline.
-/

namespace Cadence

namespace Pacer

/-- What one wait does to the deadline, by what the clock showed. -/
structure Lap (interval : Int) (before after reading : Instant) (late : Bool) : Prop where
  late_iff : late = true ↔ before.toNanos + interval < reading.toNanos
  rebased : late = true → after = reading
  onTime : late = false → after.toNanos = before.toNanos + interval

variable {interval : Int} {before after reading : Instant} {late : Bool} {p p' : Pacer}

theorem Lap.spaced (h : Lap interval before after reading late) :
    before.toNanos + interval ≤ after.toNanos := by
  cases late with
  | true =>
    rw [h.rebased rfl]
    exact Int.le_of_lt (h.late_iff.1 rfl)
  | false => exact Int.le_of_eq (h.onTime rfl).symm

/-- Only a late wait moves the deadline on by more than one interval. -/
theorem Lap.onTime_iff (h : Lap interval before after reading late) :
    after.toNanos = before.toNanos + interval ↔ late = false := by
  refine ⟨fun heq => ?_, h.onTime⟩
  cases late with
  | true =>
    have hlate := h.late_iff.1 rfl
    rw [← h.rebased rfl, heq] at hlate
    exact absurd hlate (Int.lt_irrefl _)
  | false => rfl

theorem advance_of_add? {next : Instant} (h : p.next.add? p.interval = some next)
    (reading : Instant) : p.advance (.ok reading) = .ok (if next.toNanos < reading.toNanos
      then ({ p with next := reading }, true) else ({ p with next }, false)) := by
  have hsub : 0 < reading.sub next ↔ next.toNanos < reading.toNanos := by
    rw [Instant.sub_eq, Int.sub_pos]
  rw [advance, h]
  change (if 0 < reading.sub next then Except.ok _ else Except.ok _) = _
  simp only [hsub]
  split <;> rfl

theorem lap_of_advance (h : p.advance (.ok reading) = .ok (p', late)) :
    p'.interval = p.interval ∧ Lap p.interval.toInt p.next p'.next reading late := by
  cases hnext : p.next.add? p.interval with
  | none =>
    rw [advance, hnext] at h
    cases h
  | some next =>
    have hdue := Instant.toNanos_of_add? hnext
    rw [advance_of_add? hnext, Except.ok.injEq] at h
    split at h
    · cases h
      exact ⟨rfl, iff_of_true rfl (by omega), fun _ => rfl, nofun⟩
    · cases h
      exact ⟨rfl, iff_of_false nofun (by omega), nofun, fun _ => hdue⟩

/-- Only the end of the clock keeps a wait from finding its deadline. -/
theorem exists_advance (hpos : 0 ≤ p.interval.toInt)
    (hfits : p.next.toNanos + p.interval.toInt < Clock.limit) (reading : Instant) :
    ∃ p' late, p.advance (.ok reading) = .ok (p', late) := by
  obtain ⟨next, hnext⟩ := Instant.exists_add? hpos hfits
  exact ⟨_, _, advance_of_add? hnext reading⟩

theorem exists_reading {reading : Except Errno Instant} (h : p.advance reading = .ok (p', late)) :
    ∃ now, reading = .ok now := by
  cases reading with
  | ok now => exact ⟨now, rfl⟩
  | error e =>
    rw [advance] at h
    cases hnext : p.next.add? p.interval with
    | none | some =>
      rw [hnext] at h
      cases h

theorem start_eq_ok {nanos : Nat} {reading : Except Errno Instant}
    (h : start nanos reading = .ok p) : reading = .ok p.next ∧ p.interval = .ofNat nanos := by
  cases reading with
  | error e => cases h
  | ok now =>
    rw [start, intervalOf] at h
    split at h
    · cases h
      exact ⟨rfl, rfl⟩
    · cases h

/-- The whole call comes to the same, however often its sleep is taken up again. -/
theorem waitNext_of_advance (h : p.advance (.ok reading) = .ok (p', late)) (interruptions : Nat) :
    p.waitNext (.ok reading) (List.replicate interruptions .interrupted ++ [.over]) =
      some (.ok (p', late)) := by
  have hsleep : sleep (List.replicate interruptions .interrupted ++ [.over]) = some (.ok ()) := by
    induction interruptions with
    | zero => rfl
    | succ k ih => exact ih
  rw [waitNext, h]
  cases late with
  | true => rfl
  | false =>
    rw [hsleep]
    rfl

end Pacer

namespace Worker

inductive Stage.IsEarly : Stage → Prop
  | schedule : IsEarly .schedule
  | setup : IsEarly .setup
  | openClock : IsEarly .openClock

def Stage.pacer? : Stage → Option Pacer
  | .check p | .process p | .count p | .pace p | .countLate p | .sleep p => some p
  | _ => none

inductive Stage.IsOver : Stage → Prop
  | teardown (result : Except Fault Unit) : IsOver (.teardown result)
  | leave (exit : Exit) : IsOver (.leave exit)
  | gone (exit : Exit) : IsOver (.gone exit)

/-- A step by what it has to do with the pace. -/
inductive Stride (interval : Nat) (m : Moment) (w w' : Worker) : Prop
  | prepare (early : w.stage.IsEarly) (still : w'.stage.IsEarly) (same : w'.calls = w.calls)
  | openClock (p : Pacer) (here : w.stage = .openClock)
      (opened : Pacer.start interval m.reading = .ok p) (there : w'.stage = .check p)
      (same : w'.calls = w.calls)
  | begin (p : Pacer) (here : w.stage = .check p) (there : w'.stage = .process p)
      (same : w'.calls = w.calls)
  | call (p : Pacer) (here : w.stage = .process p)
      (there : w'.stage = .count p ∨ w'.stage.IsOver) (more : w'.calls = w.calls + 1)
  | count (p : Pacer) (here : w.stage = .count p) (there : w'.stage = .pace p)
      (same : w'.calls = w.calls)
  | pace (p p' : Pacer) (late : Bool) (here : w.stage = .pace p)
      (advanced : p.advance m.reading = .ok (p', late))
      (there : w'.stage = if late then .countLate p' else .sleep p') (same : w'.calls = w.calls)
  | countLate (p : Pacer) (here : w.stage = .countLate p) (there : w'.stage = .check p)
      (same : w'.calls = w.calls)
  | wake (p : Pacer) (here : w.stage = .sleep p) (awake : m.nap = .over)
      (there : w'.stage = .check p) (same : w'.calls = w.calls)
  | doze (p : Pacer) (here : w.stage = .sleep p) (there : w'.stage = .sleep p)
      (same : w'.calls = w.calls)
  | close (idle : ∀ p, w.stage ≠ .process p) (ended : w'.stage.IsOver) (same : w'.calls = w.calls)

variable {a : Assignment} {h : Host} {born : Machine} {m : Moment} {g g' : Gauges}
  {w w' : Worker}

theorem stride_of_step (hstep : w.step a h born m g = some (g', w')) :
    Stride a.interval m w w' := by
  unfold step at hstep
  split at hstep
  case h_1 here =>
    split at hstep
    case h_1 =>
      cases hstep
      exact .close (by rw [here]; nofun) (.leave _) rfl
    case h_2 =>
      cases hstep
      exact .prepare (by rw [here]; exact .schedule) .setup rfl
  case h_2 here =>
    dsimp only at hstep
    split at hstep
    case h_1 ending =>
      cases hstep
      exact .prepare (by rw [here]; exact .setup) .openClock rfl
    case h_2 | h_3 =>
      cases hstep
      exact .close (by rw [here]; nofun) (.leave _) rfl
  case h_3 here =>
    split at hstep
    case h_1 p opened =>
      cases hstep
      exact .openClock p here opened rfl rfl
    case h_2 =>
      cases hstep
      exact .close (by rw [here]; nofun) (.teardown _) rfl
  case h_4 p here =>
    cases hstep
    cases hrunning : g.running with
    | true => exact .begin p here (by simp [moveTo]) rfl
    | false => exact .close (by rw [here]; nofun) (by simp [moveTo]; exact .teardown _) rfl
  case h_5 p here =>
    dsimp only at hstep
    split at hstep
    case h_1 ending =>
      cases hstep
      exact .call p here (.inl rfl) rfl
    case h_2 =>
      cases hstep
      exact .call p here (.inr (.teardown _)) rfl
    case h_3 =>
      cases hstep
      exact .call p here (.inr (.leave _)) rfl
  case h_6 p here =>
    cases hstep
    exact .count p here rfl rfl
  case h_7 p here =>
    split at hstep
    case h_1 p' advanced =>
      cases hstep
      exact .pace p p' true here advanced rfl rfl
    case h_2 p' advanced =>
      cases hstep
      exact .pace p p' false here advanced rfl rfl
    case h_3 =>
      cases hstep
      exact .close (by rw [here]; nofun) (.teardown _) rfl
  case h_8 p here =>
    cases hstep
    exact .countLate p here rfl rfl
  case h_9 p here =>
    split at hstep
    case h_1 =>
      cases hstep
      exact .doze p here here rfl
    case h_2 slept =>
      cases hstep
      refine .wake p here ?_ rfl rfl
      cases hnap : m.nap with
      | interrupted | failed =>
        rw [hnap] at slept
        cases slept
      | _ => rfl
    case h_3 =>
      cases hstep
      exact .close (by rw [here]; nofun) (.teardown _) rfl
  case h_10 here =>
    cases hstep
    exact .close (by rw [here]; nofun) (.leave _) rfl
  case h_11 here =>
    cases hstep
    exact .close (by rw [here]; nofun) (.gone _) rfl
  case h_12 => cases hstep

end Worker

/-- A step of a worker at its time, with what else it meets. -/
structure Beat where
  now : Instant
  unreadable : Option Errno := none
  nap : Nap := .over
  running : Bool := true

def Beat.moment (b : Beat) : Moment where
  reading := b.unreadable.elim (.ok b.now) .error
  nap := b.nap

theorem Beat.eq_now {b : Beat} {reading : Instant} (h : b.moment.reading = .ok reading) :
    reading = b.now := by
  unfold moment at h
  cases hunreadable : b.unreadable with
  | none =>
    rw [hunreadable] at h
    exact (Except.ok.inj h).symm
  | some e =>
    rw [hunreadable] at h
    cases h

/-- A worker with the times that go with its cycles and waits, both counted from zero. -/
structure Timeline where
  worker : Worker
  clock : Instant
  waits : Nat := 0
  /-- The deadline after so many waits; at first, the time at which the clock was opened. -/
  deadline : Nat → Instant
  reading : Nat → Instant
  late : Nat → Bool := fun _ => false
  begun : Nat → Instant

namespace Timeline

def start (duty : Duty) (clock : Instant) : Timeline where
  worker := { duty }
  clock := clock
  deadline := fun _ => clock
  reading := fun _ => clock
  begun := fun _ => clock

def lap (t : Timeline) (reading next : Instant) (late : Bool) : Timeline :=
  { t with
    waits := t.waits + 1
    deadline := fun k => if k = t.waits + 1 then next else t.deadline k
    reading := fun k => if k = t.waits then reading else t.reading k
    late := fun k => if k = t.waits then late else t.late k }

/-- What is written down, at its time, of a step from one stage to another. -/
def mark (t : Timeline) (calls : Nat) : Worker.Stage → Worker.Stage → Timeline
  | .openClock, .check _ => { t with deadline := fun _ => t.clock }
  | .process _, _ => { t with begun := fun k => if k = calls then t.clock else t.begun k }
  | .pace _, .countLate p => t.lap t.clock p.next true
  | .pace _, .sleep p => t.lap t.clock p.next false
  | _, _ => t

/-- What is written down once a step has led to `w`. -/
def record (t : Timeline) (now : Instant) (w : Worker) : Timeline :=
  { t with worker := w, clock := now }.mark t.worker.calls t.worker.stage w.stage

def isDue (t : Timeline) (now : Instant) : Bool :=
  match t.worker.stage with
  | .sleep p => p.next.toNanos ≤ now.toNanos
  | _ => true

/-- The clock does not go back, and no sleep is over before its deadline. -/
def fire (a : Assignment) (h : Host) (born : Machine) (t : Timeline) (b : Beat) :
    Option Timeline :=
  if t.clock.toNanos ≤ b.now.toNanos ∧ (b.nap = .over → t.isDue b.now = true) then
    (t.worker.step a h born b.moment { running := b.running }).map fun r => t.record b.now r.2
  else none

def run (a : Assignment) (h : Host) (born : Machine) (t : Timeline) (beats : List Beat) :
    Option Timeline := beats.foldlM (fire a h born) t

def pacer (t : Timeline) (interval : Nat) (k : Nat) : Pacer where
  next := t.deadline k
  interval := .ofNat interval

/-- How far cycles and waits have come at a stage, and that a cycle has its deadline behind it. -/
def Stands (interval : Nat) (t : Timeline) : Worker.Stage → Prop
  | .schedule | .setup | .openClock => t.worker.calls = 0 ∧ t.waits = 0
  | .check p | .process p | .countLate p =>
    t.worker.calls = t.waits ∧ p = t.pacer interval t.waits ∧ p.next.toNanos ≤ t.clock.toNanos
  | .count p | .pace p => t.worker.calls = t.waits + 1 ∧ p = t.pacer interval t.waits
  | .sleep p => t.worker.calls = t.waits ∧ p = t.pacer interval t.waits
  | .teardown _ | .leave _ | .gone _ =>
    t.worker.calls = t.waits ∨ t.worker.calls = t.waits + 1

structure Steady (interval : Nat) (t : Timeline) : Prop where
  stands : t.Stands interval t.worker.stage
  laps : ∀ k, k < t.waits → (t.pacer interval k).advance (.ok (t.reading k)) =
    .ok (t.pacer interval (k + 1), t.late k)
  begun : ∀ k, k < t.worker.calls → (t.deadline k).toNanos ≤ (t.begun k).toNanos

variable {a : Assignment} {h : Host} {born : Machine} {interval : Nat} {t t' : Timeline}
  {b : Beat} {w : Worker}

theorem steady_start (interval : Nat) (duty : Duty) (clock : Instant) :
    (start duty clock).Steady interval :=
  ⟨⟨rfl, rfl⟩, fun _ hk => absurd hk (Nat.not_lt_zero _), fun _ hk => absurd hk (Nat.not_lt_zero _)⟩

theorem pacer_lap_self (reading next : Instant) (late : Bool) :
    (t.lap reading next late).pacer interval (t.waits + 1) = ⟨next, .ofNat interval⟩ := by
  rw [pacer, lap]
  dsimp only
  rw [if_pos rfl]

theorem pacer_lap_of_le (reading next : Instant) (late : Bool) {k : Nat} (hk : k ≤ t.waits) :
    (t.lap reading next late).pacer interval k = t.pacer interval k := by
  rw [pacer, lap]
  dsimp only
  rw [if_neg (by omega), pacer]

/-- One more wait is one more call of the pacer. -/
theorem laps_lap {reading : Instant} {p' : Pacer} {late : Bool}
    (hlaps : ∀ k, k < t.waits → (t.pacer interval k).advance (.ok (t.reading k)) =
      .ok (t.pacer interval (k + 1), t.late k))
    (advanced : (t.pacer interval t.waits).advance (.ok reading) = .ok (p', late)) :
    ∀ k, k < t.waits + 1 → ((t.lap reading p'.next late).pacer interval k).advance
      (.ok ((t.lap reading p'.next late).reading k)) =
        .ok ((t.lap reading p'.next late).pacer interval (k + 1),
          (t.lap reading p'.next late).late k) := by
  intro k hk
  have hreading : (t.lap reading p'.next late).reading k =
      if k = t.waits then reading else t.reading k := rfl
  have hlate : (t.lap reading p'.next late).late k = if k = t.waits then late else t.late k := rfl
  rw [hreading, hlate, pacer_lap_of_le _ _ _ (Nat.le_of_lt_succ hk)]
  rcases Nat.lt_or_eq_of_le (Nat.le_of_lt_succ hk) with hlt | rfl
  · rw [if_neg (Nat.ne_of_lt hlt), if_neg (Nat.ne_of_lt hlt), pacer_lap_of_le _ _ _ hlt]
    exact hlaps k hlt
  · have hinterval : p'.interval = .ofNat interval := (Pacer.lap_of_advance advanced).1
    rw [if_pos rfl, if_pos rfl, pacer_lap_self, advanced, ← hinterval]

theorem fire_eq_some (hfire : t.fire a h born b = some t') :
    t.clock.toNanos ≤ b.now.toNanos ∧ (b.nap = .over → t.isDue b.now = true) ∧
      ∃ w, t.worker.Stride a.interval b.moment w ∧ t' = t.record b.now w := by
  obtain ⟨⟨hclock, hdue⟩, hfire⟩ := Option.ite_none_right_eq_some.1 hfire
  obtain ⟨⟨g, w⟩, hstep, rfl⟩ := Option.map_eq_some_iff.1 hfire
  exact ⟨hclock, hdue, w, Worker.stride_of_step hstep, rfl⟩

theorem record_eq_mark {now : Instant} {s s' : Worker.Stage} (here : t.worker.stage = s)
    (there : w.stage = s') : t.record now w =
      { t with worker := w, clock := now }.mark t.worker.calls s s' := by
  rw [record, here, there]

/-- A step that is neither the beginning of a cycle nor a wait. -/
theorem Steady.of_quiet (hs : t.Steady interval) {now : Instant}
    (hquiet : t.record now w = { t with worker := w, clock := now })
    (same : w.calls = t.worker.calls)
    (hstands : Stands interval { t with worker := w, clock := now } w.stage) :
    (t.record now w).Steady interval := by
  rw [hquiet]
  refine ⟨hstands, hs.laps, fun k hk => hs.begun k ?_⟩
  rwa [← same]

theorem record_of_close {now : Instant} (idle : ∀ p, t.worker.stage ≠ .process p)
    (ended : w.stage.IsOver) : t.record now w = { t with worker := w, clock := now } := by
  unfold record mark
  split
  · rename_i hover
    rw [hover] at ended
    cases ended
  · rename_i p hp
    exact absurd hp (idle p)
  · rename_i hover
    rw [hover] at ended
    cases ended
  · rename_i hover
    rw [hover] at ended
    cases ended
  · rfl

/-- Wherever a worker leaves its loop, the last cycle may be without a wait. -/
theorem Stands.calls_eq {stage : Worker.Stage} (hstands : t.Stands interval stage) :
    t.worker.calls = t.waits ∨ t.worker.calls = t.waits + 1 := by
  cases stage with
  | schedule | setup | openClock => exact .inl (hstands.1.trans hstands.2.symm)
  | check | process | countLate | sleep => exact .inl hstands.1
  | count | pace => exact .inr hstands.1
  | teardown | leave | gone => exact hstands

theorem Steady.opening (hs : t.Steady interval) {p : Pacer} (here : t.worker.stage = .openClock)
    (opened : Pacer.start interval b.moment.reading = .ok p) (there : w.stage = .check p)
    (same : w.calls = t.worker.calls) : (t.record b.now w).Steady interval := by
  obtain ⟨hcalls, hwaits⟩ : t.worker.calls = 0 ∧ t.waits = 0 := by
    have hstands := hs.stands
    rwa [here] at hstands
  obtain ⟨hreading, hinterval⟩ := Pacer.start_eq_ok opened
  have hnow := Beat.eq_now hreading
  have hrecord : t.record b.now w =
      { t with worker := w, clock := b.now, deadline := fun _ => b.now } :=
    record_eq_mark here there
  rw [hrecord]
  refine ⟨?_, fun k hk => ?_, fun k hk => ?_⟩
  · rw [there]
    refine ⟨(same.trans hcalls).trans hwaits.symm, ?_, Int.le_of_eq (by rw [hnow])⟩
    rw [pacer, ← hinterval, ← hnow]
  · dsimp only at hk
    rw [hwaits] at hk
    exact absurd hk (Nat.not_lt_zero k)
  · dsimp only at hk
    rw [same, hcalls] at hk
    exact absurd hk (Nat.not_lt_zero k)

/-- A cycle has the deadline behind it that the stage before it stands at. -/
theorem Steady.calling (hs : t.Steady interval) (hclock : t.clock.toNanos ≤ b.now.toNanos) {p : Pacer}
    (here : t.worker.stage = .process p) (there : w.stage = .count p ∨ w.stage.IsOver)
    (more : w.calls = t.worker.calls + 1) : (t.record b.now w).Steady interval := by
  obtain ⟨hcalls, hpacer, hbehind⟩ : t.worker.calls = t.waits ∧
      p = t.pacer interval t.waits ∧ p.next.toNanos ≤ t.clock.toNanos := by
    have hstands := hs.stands
    rwa [here] at hstands
  have hrecord : t.record b.now w =
      { t with
        worker := w, clock := b.now,
        begun := fun k => if k = t.worker.calls then b.now else t.begun k } :=
    record_eq_mark here rfl
  rw [hrecord]
  refine ⟨?_, hs.laps, fun k hk => ?_⟩
  · rcases there with there | ended
    · rw [there]
      exact ⟨by rw [more, hcalls], hpacer⟩
    · have hlast : w.calls = t.waits + 1 := by rw [more, hcalls]
      generalize w.stage = s' at ended
      cases ended <;> exact .inr hlast
  · dsimp only at hk ⊢
    rw [more] at hk
    by_cases hlast : k = t.worker.calls
    · rw [if_pos hlast, hlast, hcalls]
      rw [hpacer] at hbehind
      exact Int.le_trans hbehind hclock
    · rw [if_neg hlast]
      exact hs.begun k (by omega)

/-- A wait that is late leaves its deadline behind at once. -/
theorem Steady.pacing (hs : t.Steady interval) {p p' : Pacer} {late : Bool}
    (here : t.worker.stage = .pace p) (advanced : p.advance b.moment.reading = .ok (p', late))
    (there : w.stage = if late then .countLate p' else .sleep p')
    (same : w.calls = t.worker.calls) : (t.record b.now w).Steady interval := by
  obtain ⟨hcalls, rfl⟩ : t.worker.calls = t.waits + 1 ∧ p = t.pacer interval t.waits := by
    have hstands := hs.stands
    rwa [here] at hstands
  have hrecord : t.record b.now w =
      { t with worker := w, clock := b.now }.lap b.now p'.next late := by
    rw [record_eq_mark here there]
    cases late <;> rfl
  obtain ⟨reading, hreading⟩ := Pacer.exists_reading advanced
  obtain rfl := Beat.eq_now hreading
  rw [hreading] at advanced
  have hinterval : p'.interval = .ofNat interval := (Pacer.lap_of_advance advanced).1
  have hp' : p' = (t.lap b.now p'.next late).pacer interval (t.waits + 1) := by
    rw [pacer_lap_self, ← hinterval]
  rw [hrecord]
  refine ⟨?_, laps_lap hs.laps advanced, fun k hk => ?_⟩
  · change Stands interval _ w.stage
    rw [there]
    have hlast : w.calls = t.waits + 1 := same.trans hcalls
    cases late with
    | true =>
      have hnow : p'.next = b.now := (Pacer.lap_of_advance advanced).2.rebased rfl
      exact ⟨hlast, hp', Int.le_of_eq (by rw [hnow]; rfl)⟩
    | false => exact ⟨hlast, hp'⟩
  · have hlt : k < t.worker.calls := same ▸ hk
    change (if k = t.waits + 1 then p'.next else t.deadline k).toNanos ≤ _
    rw [if_neg (by omega)]
    exact hs.begun k hlt

theorem steady_record (hs : t.Steady interval) (hclock : t.clock.toNanos ≤ b.now.toNanos)
    (hdue : b.nap = .over → t.isDue b.now = true)
    (stride : t.worker.Stride interval b.moment w) : (t.record b.now w).Steady interval := by
  have hstands := hs.stands
  cases stride with
  | prepare early still same =>
    have hzero : t.worker.calls = 0 ∧ t.waits = 0 := by
      cases hstage : t.worker.stage with
      | schedule | setup | openClock => rwa [hstage] at hstands
      | _ => rw [hstage] at early; cases early
    refine hs.of_quiet ?_ same ?_
    · unfold record
      generalize t.worker.stage = s at early
      generalize w.stage = s' at still
      cases early <;> cases still <;> rfl
    · generalize w.stage = s' at still
      cases still <;> exact ⟨same.trans hzero.1, hzero.2⟩
  | openClock p here opened there same => exact hs.opening here opened there same
  | begin p here there same =>
    rw [here] at hstands
    refine hs.of_quiet (record_eq_mark here there) same ?_
    rw [there]
    exact ⟨same.trans hstands.1, hstands.2.1, Int.le_trans hstands.2.2 hclock⟩
  | call p here there more => exact hs.calling hclock here there more
  | count p here there same =>
    rw [here] at hstands
    refine hs.of_quiet (record_eq_mark here there) same ?_
    rw [there]
    exact ⟨same.trans hstands.1, hstands.2⟩
  | pace p p' late here advanced there same => exact hs.pacing here advanced there same
  | countLate p here there same =>
    rw [here] at hstands
    refine hs.of_quiet (record_eq_mark here there) same ?_
    rw [there]
    exact ⟨same.trans hstands.1, hstands.2.1, Int.le_trans hstands.2.2 hclock⟩
  | wake p here awake there same =>
    rw [here] at hstands
    have hover := hdue awake
    rw [isDue, here] at hover
    refine hs.of_quiet (record_eq_mark here there) same ?_
    rw [there]
    exact ⟨same.trans hstands.1, hstands.2, of_decide_eq_true hover⟩
  | doze p here there same =>
    rw [here] at hstands
    refine hs.of_quiet (record_eq_mark here there) same ?_
    rw [there]
    exact ⟨same.trans hstands.1, hstands.2⟩
  | close idle ended same =>
    refine hs.of_quiet (record_of_close idle ended) same ?_
    have hcalls := hstands.calls_eq
    rw [← same] at hcalls
    generalize hstage : w.stage = s' at ended ⊢
    cases ended <;> exact hcalls

/-- How the cycles of a worker are paced. Times are nanoseconds of the clock. -/
structure Paced (interval : Nat) (t : Timeline) : Prop where
  /-- The pacer is at the deadline of its last wait. -/
  pacer : ∀ p, t.worker.stage.pacer? = some p → p = t.pacer interval t.waits
  /-- Each wait is a whole call, which signals make no difference to. -/
  waited : ∀ k, k < t.waits → ∀ interruptions,
    (t.pacer interval k).waitNext (.ok (t.reading k))
      (List.replicate interruptions .interrupted ++ [.over]) =
        some (.ok (t.pacer interval (k + 1), t.late k))
  /-- Only the end of the clock keeps a wait from its deadline. -/
  found : (t.deadline t.waits).toNanos + interval < Clock.limit → ∀ now,
    ∃ p late, (t.pacer interval t.waits).advance (.ok now) = .ok (p, late)
  late_iff : ∀ k, k < t.waits →
    (t.late k = true ↔ (t.deadline k).toNanos + interval < (t.reading k).toNanos)
  rebased : ∀ k, k < t.waits → t.late k = true → t.deadline (k + 1) = t.reading k
  onTime : ∀ k, k < t.waits → t.late k = false →
    (t.deadline (k + 1)).toNanos = (t.deadline k).toNanos + interval
  /-- The deadline of the wait after a late one is reckoned from what the late one saw. -/
  resumed : ∀ k, k + 1 < t.waits → t.late k = true →
    (t.late (k + 1) = true ↔ (t.reading k).toNanos + interval < (t.reading (k + 1)).toNanos) ∧
    (t.late (k + 1) = false →
      (t.deadline (k + 2)).toNanos = (t.reading k).toNanos + interval)
  spaced : ∀ k, k < t.waits → (t.deadline k).toNanos + interval ≤ (t.deadline (k + 1)).toNanos
  least : ∀ k, k ≤ t.waits → (t.deadline 0).toNanos + k * interval ≤ (t.deadline k).toNanos
  undrifted : ∀ k, k ≤ t.waits →
    ((t.deadline k).toNanos = (t.deadline 0).toNanos + k * interval ↔
      ∀ j, j < k → t.late j = false)
  calls_le : t.worker.calls ≤ t.waits + 1
  begun : ∀ k, k < t.worker.calls → (t.deadline k).toNanos ≤ (t.begun k).toNanos
  unhurried : ∀ now : Int, (t.deadline 0).toNanos ≤ now →
    (((Finset.range t.worker.calls).filter fun k => (t.begun k).toNanos ≤ now).card : Int) ≤
      (now - (t.deadline 0).toNanos) / interval + 1

theorem toInt_interval (hfits : interval ≤ 9223372036854775807) :
    (Int64.ofNat interval).toInt = interval :=
  Int64.toInt_ofNat_of_lt (Nat.lt_succ_of_le hfits)

theorem Steady.lap (hs : t.Steady interval) (hfits : interval ≤ 9223372036854775807) {k : Nat}
    (hk : k < t.waits) :
    Pacer.Lap interval (t.deadline k) (t.deadline (k + 1)) (t.reading k) (t.late k) := by
  have hlap := (Pacer.lap_of_advance (hs.laps k hk)).2
  rwa [Timeline.pacer, Timeline.pacer, toInt_interval hfits] at hlap

theorem Steady.least (hs : t.Steady interval) (hfits : interval ≤ 9223372036854775807) {k : Nat}
    (hk : k ≤ t.waits) : (t.deadline 0).toNanos + k * interval ≤ (t.deadline k).toNanos := by
  induction k with
  | zero => omega
  | succ k ih =>
    have hspaced := (hs.lap hfits hk).spaced
    have hleast := ih (Nat.le_of_succ_le hk)
    rw [Int.natCast_succ, Int.add_mul, Int.one_mul]
    omega

/-- What is gained at one wait is never lost again. -/
theorem Steady.undrifted (hs : t.Steady interval) (hfits : interval ≤ 9223372036854775807) {k : Nat}
    (hk : k ≤ t.waits) : (t.deadline k).toNanos = (t.deadline 0).toNanos + k * interval ↔
      ∀ j, j < k → t.late j = false := by
  induction k with
  | zero => exact iff_of_true (by omega) fun j hj => absurd hj (Nat.not_lt_zero j)
  | succ k ih =>
    have hlap := hs.lap hfits hk
    have hspaced := hlap.spaced
    have hleast := hs.least hfits (Nat.le_of_succ_le hk)
    rw [Nat.forall_lt_succ_right, ← ih (Nat.le_of_succ_le hk), ← hlap.onTime_iff,
      Int.natCast_succ, Int.add_mul, Int.one_mul]
    omega

theorem Steady.pacer_eq (hs : t.Steady interval) {p : Pacer}
    (hp : t.worker.stage.pacer? = some p) : p = t.pacer interval t.waits := by
  have hstands := hs.stands
  cases hstage : t.worker.stage with
  | check | process | countLate =>
    rw [hstage] at hp hstands
    cases hp
    exact hstands.2.1
  | count | pace | sleep =>
    rw [hstage] at hp hstands
    cases hp
    exact hstands.2
  | _ =>
    rw [hstage] at hp
    cases hp

/-- A cycle that has begun by a time is the first or has its interval behind it. -/
theorem card_begun_le (hpos : 0 < interval)
    (hbegun : ∀ k, k < t.worker.calls →
      (t.deadline 0).toNanos + k * interval ≤ (t.begun k).toNanos)
    {now : Int} (hnow : (t.deadline 0).toNanos ≤ now) :
    (((Finset.range t.worker.calls).filter fun k => (t.begun k).toNanos ≤ now).card : Int) ≤
      (now - (t.deadline 0).toNanos) / interval + 1 := by
  obtain ⟨span, hspan⟩ := Int.eq_ofNat_of_zero_le (Int.sub_nonneg_of_le hnow)
  rw [hspan]
  have hsub : (Finset.range t.worker.calls).filter (fun k => (t.begun k).toNanos ≤ now) ⊆
      Finset.range (span / interval + 1) := by
    intro k hk
    obtain ⟨hk, hle⟩ := Finset.mem_filter.1 hk
    have hlow := hbegun k (Finset.mem_range.1 hk)
    rw [Finset.mem_range, Nat.lt_succ_iff, Nat.le_div_iff_mul_le hpos]
    have hcast : ((k * interval : Nat) : Int) = k * interval := Int.natCast_mul ..
    omega
  have hcard := Finset.card_le_card hsub
  rw [Finset.card_range] at hcard
  exact_mod_cast hcard

theorem steady_run (duty : Duty) (clock : Instant) {beats : List Beat}
    (hrun : (start duty clock).run a h born beats = some t) : t.Steady a.interval :=
  run_keeps (fun _ _ _ hs hfire => by
    obtain ⟨hclock, hdue, w, stride, rfl⟩ := fire_eq_some hfire
    exact steady_record hs hclock hdue stride) (steady_start a.interval duty clock) hrun

/-- However long the cycles take and the sleeps are drawn out, and whatever the clock shows as long
as it does not go back, the cycles keep their distance. -/
theorem paced_run {duty : Duty} {clock : Instant} {beats : List Beat} (hpos : 1 ≤ a.interval)
    (hfits : a.interval ≤ 9223372036854775807)
    (hrun : (start duty clock).run a h born beats = some t) : t.Paced a.interval := by
  have hs := steady_run duty clock hrun
  have hcalls := hs.stands.calls_eq
  exact {
    pacer := fun p hp => hs.pacer_eq hp
    waited := fun k hk => Pacer.waitNext_of_advance (hs.laps k hk)
    found := fun hend => by
      refine Pacer.exists_advance ?_ ?_
      · rw [pacer, toInt_interval hfits]
        omega
      · rwa [pacer, toInt_interval hfits]
    late_iff := fun k hk => (hs.lap hfits hk).late_iff
    rebased := fun k hk => (hs.lap hfits hk).rebased
    onTime := fun k hk => (hs.lap hfits hk).onTime
    resumed := fun k hk hlate => by
      have hlap := hs.lap hfits hk
      rw [(hs.lap hfits (Nat.lt_of_succ_lt hk)).rebased hlate] at hlap
      exact ⟨hlap.late_iff, hlap.onTime⟩
    spaced := fun k hk => (hs.lap hfits hk).spaced
    least := fun k hk => hs.least hfits hk
    undrifted := fun k hk => hs.undrifted hfits hk
    calls_le := by omega
    begun := hs.begun
    unhurried := fun now hnow => card_begun_le hpos (fun k hk =>
      Int.le_trans (hs.least hfits (by omega)) (hs.begun k hk)) hnow }

/-- At ten nanoseconds, with a signal in the first sleep and a second cycle that takes too long. -/
def lateOnce : List Beat :=
  let tick (time : Nat) : Beat := { now := .ofNanos time }
  [tick 100, tick 100, tick 100, tick 100, tick 100, tick 104, tick 105,
    { now := .ofNanos 107, nap := .interrupted }, tick 110, tick 110, tick 111, tick 134, tick 135,
    tick 135, tick 135, tick 136, tick 139, tick 140, tick 146, tick 146, tick 146]

theorem paced_run_lateOnce :
    ∃ t, (start {} (.ofNanos 100)).run { interval := 10 } (.linux 2 true) (Host.newThread 2)
        lateOnce = some t ∧
      (List.range 4).map (fun k => (t.deadline k).toNanos) = [100, 110, 135, 145] ∧
      (List.range 4).map (fun k => (t.begun k).toNanos) = [100, 111, 136, 146] ∧
      (List.range 3).map t.late = [false, true, false] ∧ t.waits = 3 ∧ t.Paced 10 := by
  have hseen : ((start {} (.ofNanos 100)).run { interval := 10 } (.linux 2 true) (Host.newThread 2)
      lateOnce).map (fun t => ((List.range 4).map fun k => (t.deadline k).toNanos,
        (List.range 4).map fun k => (t.begun k).toNanos, (List.range 3).map t.late, t.waits)) =
      some ([100, 110, 135, 145], [100, 111, 136, 146], [false, true, false], 3) := by
    decide +kernel
  obtain ⟨t, hrun, hseen⟩ := Option.map_eq_some_iff.1 hseen
  simp only [Prod.mk.injEq] at hseen
  obtain ⟨hdeadline, hbegun, hlate, hwaits⟩ := hseen
  exact ⟨t, hrun, hdeadline, hbegun, hlate, hwaits, paced_run (by decide) (by decide) hrun⟩

end Timeline

end Cadence
