import Cadence.Periodic.Worker

/-!
The course of a worker's life. The stage that it has come to tells what has happened to its duty so far,
up to the number of calls, so that every question about the order of events is one about a list that is
known. A step goes on from there, and the ways in which it can are listed once.
-/

namespace Cadence

/-- The schedule came into force, or was refused, on a host and a new thread that were met. -/
def Assignment.Meets (a : Assignment) (met : Host → Machine → Prop)
    (outcome : Except Refusal Unit) : Prop :=
  ∃ h born, met h born ∧ a.putInForce h born = outcome

theorem Assignment.Meets.mono {a : Assignment} {met met' : Host → Machine → Prop}
    {outcome : Except Refusal Unit} (ha : a.Meets met outcome)
    (hmet : ∀ h born, met h born → met' h born) : a.Meets met' outcome := by
  obtain ⟨h, born, hmem, hput⟩ := ha
  exact ⟨h, born, hmet h born hmem, hput⟩

namespace Worker

namespace Stage

/-- Setup went well and the loop is not over. -/
def inLoop : Stage → Bool
  | .openClock | .check _ | .process _ | .count _ | .pace _ | .countLate _ | .sleep _ => true
  | _ => false

/-- A call has come back that is not counted yet. -/
def owesCycle : Stage → Nat
  | .count _ => 1
  | _ => 0

/-- The last cycle may still turn out to be late. -/
def owesOverrun : Stage → Nat
  | .pace _ | .countLate _ => 1
  | _ => 0

/-- What ends the loop at a stage: the owner, who wants no more of it, or a fault of the clock, of a
deadline or of a sleep. -/
def loopEnd? (interval : Nat) (m : Moment) (g : Gauges) : Stage → Option (Except Fault Unit)
  | .openClock =>
    match Pacer.start interval m.reading with
    | .ok _ => none
    | .error e => some (.error e)
  | .check _ => if g.running then none else some (.ok ())
  | .pace pacer =>
    match pacer.advance m.reading with
    | .ok _ => none
    | .error e => some (.error e)
  | .sleep _ =>
    match Pacer.sleep [m.nap] with
    | some (.error e) => some (.error e)
    | _ => none
  | _ => none

/-- How many stages are ahead at most, once nobody wants the loop to go on. -/
def ahead : Stage → Nat
  | .schedule => 9
  | .setup => 8
  | .process _ => 7
  | .count _ => 6
  | .pace _ => 5
  | .openClock | .countLate _ | .sleep _ => 4
  | .check _ => 3
  | .teardown _ => 2
  | .leave _ => 1
  | .gone _ => 0

end Stage

/-- A step by what it does. `quiet` and `close` are the moves of the loop that leave the words alone. -/
inductive Turn (a : Assignment) (h : Host) (born : Machine) (m : Moment) (g : Gauges)
    (w : Worker) : Gauges → Worker → Prop
  | refuse (refusal : Refusal) (here : w.stage = .schedule)
      (refused : a.putInForce h born = .error refusal) :
      Turn a h born m g w g (w.giveUp refusal.fault)
  | schedule (here : w.stage = .schedule) (inForce : a.putInForce h born = .ok ()) :
      Turn a h born m g w g ((w.note .scheduled).moveTo .setup)
  | ready (here : w.stage = .setup) (ending : w.duty.setup = .returns) :
      Turn a h born m g w g
        { w.note (.setup .returns) with report := some (.ok ()), stage := .openClock }
  | failSetup (why : Fault) (here : w.stage = .setup) (ending : w.duty.setup = .fails why) :
      Turn a h born m g w g ((w.note (.setup (.fails why))).giveUp why)
  | panicSetup (here : w.stage = .setup) (ending : w.duty.setup = .panics) :
      Turn a h born m g w g ((w.note (.setup .panics)).moveTo (.leave .panicked))
  | quiet (stage next : Stage) (here : w.stage = stage) (inLoop : stage.inLoop = true)
      (stays : next.inLoop = true) (goesOn : stage.loopEnd? a.interval m g = none)
      (cycle : stage.owesCycle = 0 ∧ next.owesCycle = 0)
      (overrun : next.owesOverrun ≤ stage.owesOverrun) : Turn a h born m g w g (w.moveTo next)
  | close (stage : Stage) (result : Except Fault Unit) (here : w.stage = stage)
      (inLoop : stage.inLoop = true) (cycle : stage.owesCycle = 0)
      (ends : stage.loopEnd? a.interval m g = some result) :
      Turn a h born m g w g (w.moveTo (.teardown result))
  | call (pacer : Pacer) (here : w.stage = .process pacer)
      (ending : w.duty.process w.calls = .returns) :
      Turn a h born m g w g ((w.note (.process .returns)).moveTo (.count pacer))
  | failCall (pacer : Pacer) (why : Fault) (here : w.stage = .process pacer)
      (ending : w.duty.process w.calls = .fails why) :
      Turn a h born m g w g ((w.note (.process (.fails why))).moveTo (.teardown (.error why)))
  | panicCall (pacer : Pacer) (here : w.stage = .process pacer)
      (ending : w.duty.process w.calls = .panics) :
      Turn a h born m g w g ((w.note (.process .panics)).moveTo (.leave .panicked))
  | count (pacer : Pacer) (here : w.stage = .count pacer) :
      Turn a h born m g w { g with cycles := g.cycles + 1 } (w.moveTo (.pace pacer))
  | countLate (pacer : Pacer) (here : w.stage = .countLate pacer) :
      Turn a h born m g w { g with overruns := g.overruns + 1 } (w.moveTo (.check pacer))
  | teardown (result : Except Fault Unit) (here : w.stage = .teardown result) :
      Turn a h born m g w g ((w.note .teardown).moveTo (.leave (.returned result)))
  | leave (exit : Exit) (here : w.stage = .leave exit) :
      Turn a h born m g w { g with running := false } (w.moveTo (.gone exit))

variable {a : Assignment} {h : Host} {born : Machine} {met : Host → Machine → Prop} {m : Moment}
  {g g' : Gauges} {w w' : Worker}

theorem turn_of_step (hstep : w.step a h born m g = some (g', w')) : Turn a h born m g w g' w' := by
  unfold step at hstep
  split at hstep
  case h_1 here =>
    split at hstep
    case h_1 refusal refused => cases hstep; exact .refuse refusal here refused
    case h_2 inForce => cases hstep; exact .schedule here inForce
  case h_2 here =>
    dsimp only at hstep
    split at hstep
    case h_1 ending => cases hstep; rw [ending]; exact .ready here ending
    case h_2 why ending => cases hstep; rw [ending]; exact .failSetup why here ending
    case h_3 ending => cases hstep; rw [ending]; exact .panicSetup here ending
  case h_3 here =>
    split at hstep
    case h_1 pacer hstart =>
      cases hstep
      exact .quiet _ _ here rfl rfl (by rw [Stage.loopEnd?, hstart]) ⟨rfl, rfl⟩ (Nat.zero_le _)
    case h_2 e hstart =>
      cases hstep
      exact .close _ _ here rfl rfl (by rw [Stage.loopEnd?, hstart])
  case h_4 pacer here =>
    cases hstep
    cases hrunning : g.running with
    | true =>
      exact .quiet _ _ here rfl rfl (by rw [Stage.loopEnd?, if_pos hrunning]) ⟨rfl, rfl⟩
        (Nat.zero_le _)
    | false =>
      exact .close _ _ here rfl rfl (by rw [Stage.loopEnd?, hrunning, if_neg Bool.false_ne_true])
  case h_5 pacer here =>
    dsimp only at hstep
    split at hstep
    case h_1 ending => cases hstep; rw [ending]; exact .call pacer here ending
    case h_2 why ending => cases hstep; rw [ending]; exact .failCall pacer why here ending
    case h_3 ending => cases hstep; rw [ending]; exact .panicCall pacer here ending
  case h_6 pacer here => cases hstep; exact .count pacer here
  case h_7 pacer here =>
    split at hstep
    case h_1 _ hadvance | h_2 _ hadvance =>
      cases hstep
      exact .quiet _ _ here rfl rfl (by rw [Stage.loopEnd?, hadvance]) ⟨rfl, rfl⟩
        (by simp [Stage.owesOverrun])
    case h_3 e hadvance =>
      cases hstep
      exact .close _ _ here rfl rfl (by rw [Stage.loopEnd?, hadvance])
  case h_8 pacer here => cases hstep; exact .countLate pacer here
  case h_9 pacer here =>
    split at hstep
    case h_1 hsleep =>
      -- The sleep was interrupted and is taken up again.
      cases hstep
      exact .quiet w.stage w.stage rfl (by rw [here]; rfl) (by rw [here]; rfl)
        (by rw [here, Stage.loopEnd?, hsleep]) (by rw [here]; exact ⟨rfl, rfl⟩) (Nat.le_refl _)
    case h_2 hsleep =>
      cases hstep
      exact .quiet _ _ here rfl rfl (by rw [Stage.loopEnd?, hsleep]) ⟨rfl, rfl⟩ (Nat.zero_le _)
    case h_3 e hsleep =>
      cases hstep
      exact .close _ _ here rfl rfl (by rw [Stage.loopEnd?, hsleep])
  case h_10 result here => cases hstep; exact .teardown result here
  case h_11 exit here => cases hstep; exact .leave exit here
  case h_12 => cases hstep

/-! ### What has happened by each stage

A host may treat one start otherwise than the next, so a history is told against all the hosts and new
threads that were met. -/

/-- What a worker has seen whose setup went well, after so many calls that all returned. -/
def looped (calls : Nat) : List Event :=
  List.replicate calls (.process .returns) ++ [.setup .returns, .scheduled]

/-- How a loop has ended that is to be followed by a teardown. -/
inductive Closing : Except Fault Unit → List Event → Prop
  | between (result : Except Fault Unit) (calls : Nat) : Closing result (looped calls)
  | failed (calls : Nat) (e : Fault) : Closing (.error e) (.process (.fails e) :: looped calls)

/-- How a worker has ended, with what it reported and saw. -/
inductive Ended (a : Assignment) (met : Host → Machine → Prop) :
    Exit → Option (Except Fault Unit) → List Event → Prop
  | refused (refusal : Refusal) (refused : a.Meets met (.error refusal)) :
      Ended a met (.returned (.ok ())) (some (.error refusal.fault)) []
  | setupFailed (e : Fault) (inForce : a.Meets met (.ok ())) :
      Ended a met (.returned (.ok ())) (some (.error e)) [.setup (.fails e), .scheduled]
  | setupPanicked (inForce : a.Meets met (.ok ())) :
      Ended a met .panicked none [.setup .panics, .scheduled]
  | closed (inForce : a.Meets met (.ok ())) {result : Except Fault Unit}
      {events : List Event} (closing : Closing result events) :
      Ended a met (.returned result) (some (.ok ())) (.teardown :: events)
  | panicked (inForce : a.Meets met (.ok ())) (calls : Nat) :
      Ended a met .panicked (some (.ok ())) (.process .panics :: looped calls)

inductive Course (a : Assignment) (met : Host → Machine → Prop) :
    Stage → Option (Except Fault Unit) → List Event → Prop
  | fresh : Course a met .schedule none []
  | scheduled (inForce : a.Meets met (.ok ())) : Course a met .setup none [.scheduled]
  | looping (inForce : a.Meets met (.ok ())) {stage : Stage} (inLoop : stage.inLoop = true)
      (calls : Nat) : Course a met stage (some (.ok ())) (looped calls)
  | closing (inForce : a.Meets met (.ok ())) {result : Except Fault Unit}
      {events : List Event} (closing : Closing result events) :
      Course a met (.teardown result) (some (.ok ())) events
  | leaving {exit : Exit} {report : Option (Except Fault Unit)} {events : List Event}
      (ended : Ended a met exit report events) : Course a met (.leave exit) report events
  | gone {exit : Exit} {report : Option (Except Fault Unit)} {events : List Event}
      (ended : Ended a met exit report events) : Course a met (.gone exit) report events

/-- The worker is where its history puts it. -/
def Sound (a : Assignment) (met : Host → Machine → Prop) (w : Worker) : Prop :=
  Course a met w.stage w.report w.events

section

variable {stage : Stage} {report : Option (Except Fault Unit)} {events : List Event}

theorem Course.of_schedule (hc : Course a met .schedule report events) :
    report = none ∧ events = [] := by
  cases hc with
  | fresh => exact ⟨rfl, rfl⟩
  | looping _ inLoop => cases inLoop

theorem Course.of_setup (hc : Course a met .setup report events) :
    a.Meets met (.ok ()) ∧ report = none ∧ events = [.scheduled] := by
  cases hc with
  | scheduled inForce => exact ⟨inForce, rfl, rfl⟩
  | looping _ inLoop => cases inLoop

theorem Course.of_inLoop (hc : Course a met stage report events) (inLoop : stage.inLoop = true) :
    a.Meets met (.ok ()) ∧ report = some (.ok ()) ∧ ∃ calls, events = looped calls := by
  cases hc with
  | looping inForce _ calls => exact ⟨inForce, rfl, calls, rfl⟩
  | _ => cases inLoop

theorem Course.of_teardown {result : Except Fault Unit}
    (hc : Course a met (.teardown result) report events) :
    a.Meets met (.ok ()) ∧ report = some (.ok ()) ∧ Closing result events := by
  cases hc with
  | closing inForce closing => exact ⟨inForce, rfl, closing⟩
  | looping _ inLoop => cases inLoop

theorem Course.of_leave {exit : Exit} (hc : Course a met (.leave exit) report events) :
    Ended a met exit report events := by
  cases hc with
  | leaving ended => exact ended
  | looping _ inLoop => cases inLoop

theorem Course.of_gone {exit : Exit} (hc : Course a met (.gone exit) report events) :
    Ended a met exit report events := by
  cases hc with
  | gone ended => exact ended
  | looping _ inLoop => cases inLoop

theorem Ended.mono {met' : Host → Machine → Prop} {exit : Exit}
    (he : Ended a met exit report events) (hmet : ∀ h born, met h born → met' h born) :
    Ended a met' exit report events := by
  cases he with
  | refused refusal refused => exact .refused refusal (refused.mono hmet)
  | setupFailed e inForce => exact .setupFailed e (inForce.mono hmet)
  | setupPanicked inForce => exact .setupPanicked (inForce.mono hmet)
  | closed inForce closing => exact .closed (inForce.mono hmet) closing
  | panicked inForce calls => exact .panicked (inForce.mono hmet) calls

theorem Course.mono {met' : Host → Machine → Prop} (hc : Course a met stage report events)
    (hmet : ∀ h born, met h born → met' h born) : Course a met' stage report events := by
  cases hc with
  | fresh => exact .fresh
  | scheduled inForce => exact .scheduled (inForce.mono hmet)
  | looping inForce inLoop calls => exact .looping (inForce.mono hmet) inLoop calls
  | closing inForce closing => exact .closing (inForce.mono hmet) closing
  | leaving ended => exact .leaving (ended.mono hmet)
  | gone ended => exact .gone (ended.mono hmet)

end

theorem Sound.of_course {stage : Stage} {report : Option (Except Fault Unit)}
    {events : List Event} (hc : Course a met stage report events) (hstage : w.stage = stage)
    (hreport : w.report = report) (hevents : w.events = events) : w.Sound a met := by
  unfold Sound
  rw [hstage, hreport, hevents]
  exact hc

theorem Sound.course (hs : w.Sound a met) {stage : Stage} (here : w.stage = stage) :
    Course a met stage w.report w.events := by
  unfold Sound at hs
  rw [here] at hs
  exact hs

theorem sound_turn (hs : w.Sound a met) (hmet : met h born) (turn : Turn a h born m g w g' w') :
    w'.Sound a met := by
  cases turn with
  | refuse refusal here refused =>
    obtain ⟨-, hevents⟩ := (hs.course here).of_schedule
    exact .of_course (.leaving (.refused refusal ⟨h, born, hmet, refused⟩)) rfl rfl hevents
  | schedule here inForce =>
    obtain ⟨hreport, hevents⟩ := (hs.course here).of_schedule
    exact .of_course (.scheduled ⟨h, born, hmet, inForce⟩) rfl hreport
      (congrArg (Event.scheduled :: ·) hevents)
  | ready here _ =>
    obtain ⟨inForce, -, hevents⟩ := (hs.course here).of_setup
    exact .of_course (.looping inForce rfl 0) rfl rfl (congrArg (Event.setup .returns :: ·) hevents)
  | failSetup why here _ =>
    obtain ⟨inForce, -, hevents⟩ := (hs.course here).of_setup
    exact .of_course (.leaving (.setupFailed why inForce)) rfl rfl
      (congrArg (Event.setup (.fails why) :: ·) hevents)
  | panicSetup here _ =>
    obtain ⟨inForce, hreport, hevents⟩ := (hs.course here).of_setup
    exact .of_course (.leaving (.setupPanicked inForce)) rfl hreport
      (congrArg (Event.setup .panics :: ·) hevents)
  | quiet stage next here inLoop stays =>
    obtain ⟨inForce, hreport, calls, hevents⟩ := (hs.course here).of_inLoop inLoop
    exact .of_course (.looping inForce stays calls) rfl hreport hevents
  | close stage result here inLoop =>
    obtain ⟨inForce, hreport, calls, hevents⟩ := (hs.course here).of_inLoop inLoop
    exact .of_course (.closing inForce (.between result calls)) rfl hreport hevents
  | call pacer here _ =>
    obtain ⟨inForce, hreport, calls, hevents⟩ := (hs.course here).of_inLoop rfl
    exact .of_course (.looping inForce rfl (calls + 1)) rfl hreport
      (congrArg (Event.process .returns :: ·) hevents)
  | failCall pacer why here _ =>
    obtain ⟨inForce, hreport, calls, hevents⟩ := (hs.course here).of_inLoop rfl
    exact .of_course (.closing inForce (.failed calls why)) rfl hreport
      (congrArg (Event.process (.fails why) :: ·) hevents)
  | panicCall pacer here _ =>
    obtain ⟨inForce, hreport, calls, hevents⟩ := (hs.course here).of_inLoop rfl
    exact .of_course (.leaving (.panicked inForce calls)) rfl hreport
      (congrArg (Event.process .panics :: ·) hevents)
  | count pacer here | countLate pacer here =>
    obtain ⟨inForce, hreport, calls, hevents⟩ := (hs.course here).of_inLoop rfl
    exact .of_course (.looping inForce rfl calls) rfl hreport hevents
  | teardown result here =>
    obtain ⟨inForce, hreport, hclosing⟩ := (hs.course here).of_teardown
    exact .of_course (.leaving (.closed inForce hclosing)) rfl hreport rfl
  | leave exit here => exact .of_course (.gone (hs.course here).of_leave) rfl rfl rfl

/-! ### What a step leaves as it is -/

theorem exit?_of_inLoop (hw : w.stage.inLoop = true) : w.exit? = none := by
  unfold exit?
  split
  · next exit hstage =>
    rw [hstage] at hw
    cases hw
  · rfl

theorem exit?_of_turn (turn : Turn a h born m g w g' w') : w.exit? = none := by
  cases turn with
  | quiet stage _ here inLoop | close stage _ here inLoop =>
    exact exit?_of_inLoop (here ▸ inLoop)
  | _ => simp_all [exit?]

theorem duty_turn (turn : Turn a h born m g w g' w') : w'.duty = w.duty := by
  cases turn <;> rfl

/-- What has happened stays in the history. -/
theorem events_turn (turn : Turn a h born m g w g' w') : w.events <:+ w'.events := by
  cases turn <;> first | exact List.suffix_refl _ | exact List.suffix_cons _ _

/-- A worker reports once. -/
theorem report_turn (hs : w.Sound a met) (turn : Turn a h born m g w g' w')
    {report : Except Fault Unit} (hreport : w.report = some report) :
    w'.report = some report := by
  cases turn with
  | refuse _ here | schedule here =>
    exact nomatch hreport.symm.trans (hs.course here).of_schedule.1
  | ready here | failSetup _ here | panicSetup here =>
    exact nomatch hreport.symm.trans (hs.course here).of_setup.2.1
  | _ => exact hreport

/-- The flag falls with the last step and with no other. -/
theorem running_turn (turn : Turn a h born m g w g' w') :
    g'.running = g.running ∧ w'.exit? = none ∨ g'.running = false ∧ w'.exit?.isSome = true := by
  cases turn with
  | leave => exact .inr ⟨rfl, rfl⟩
  | quiet _ next _ _ stays => exact .inl ⟨rfl, exit?_of_inLoop stays⟩
  | _ => exact .inl ⟨rfl, rfl⟩

/-- Calls that came back without a fault. -/
def completed (w : Worker) : Nat := w.events.count (.process .returns)

/-- Every call that came back is counted in the step after it, and a late cycle after that. -/
theorem tally_turn (turn : Turn a h born m g w g' w') :
    ∃ cycles overruns : Nat, g'.cycles = g.cycles + .ofNat cycles ∧
      g'.overruns = g.overruns + .ofNat overruns ∧
      w'.completed + w.stage.owesCycle = w.completed + w'.stage.owesCycle + cycles ∧
      w'.stage.owesOverrun + overruns ≤ w.stage.owesOverrun + cycles := by
  unfold completed
  cases turn with
  | count pacer here =>
    refine ⟨1, 0, rfl, ?_, ?_, ?_⟩ <;> simp [here, moveTo, Stage.owesCycle, Stage.owesOverrun]
  | countLate pacer here =>
    refine ⟨0, 1, ?_, rfl, ?_, ?_⟩ <;> simp [here, moveTo, Stage.owesCycle, Stage.owesOverrun]
  | quiet stage next here _ _ _ cycle overrun =>
    refine ⟨0, 0, ?_, ?_, ?_, ?_⟩ <;> simp [here, moveTo, cycle, overrun]
  | close stage result here _ cycle =>
    refine ⟨0, 0, ?_, ?_, ?_, Nat.zero_le _⟩
    · simp
    · simp
    · rw [here, cycle]
      rfl
  | _ =>
    refine ⟨0, 0, ?_, ?_, ?_, ?_⟩ <;>
      simp_all [moveTo, note, giveUp, Stage.owesCycle, Stage.owesOverrun]

/-- A worker that nobody wants to go on, or that is not in its loop, comes closer to its end with each
step that no signal disturbs. -/
theorem ahead_of_step (a : Assignment) (h : Host) (born : Machine) (hexit : w.exit? = none)
    (hm : m.nap = .over) (hend : g.running = false ∨ w.stage.inLoop = false) :
    ∃ g' w', w.step a h born m g = some (g', w') ∧ w'.stage.ahead < w.stage.ahead := by
  unfold exit? at hexit
  unfold step
  cases hstage : w.stage with
  | schedule | setup | openClock | process | pace =>
    -- However the call or the reading goes, what comes next is nearer to the end.
    dsimp only
    split <;> exact ⟨_, _, rfl, by simp [moveTo, giveUp, Stage.ahead]⟩
  | check =>
    rw [hstage] at hend
    have hstop : g.running = false := hend.resolve_right nofun
    exact ⟨_, _, rfl, by simp [moveTo, hstop, Stage.ahead]⟩
  | sleep =>
    rw [hm]
    exact ⟨_, _, rfl, by simp [moveTo, Stage.ahead]⟩
  | count | countLate | teardown | leave =>
    exact ⟨_, _, rfl, by simp [moveTo, Stage.ahead]⟩
  | gone =>
    rw [hstage] at hexit
    cases hexit

end Worker

end Cadence
