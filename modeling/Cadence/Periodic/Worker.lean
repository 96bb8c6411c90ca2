import Cadence.Periodic.Pacer
import Cadence.Scheduling.Apply

/-!
The worker of a periodic thread, one step at a time: it puts its schedule into force, sets its duty up,
reports how that went, and then does its duty once an interval while the running flag stands. Whatever
ends the loop, short of a panic, is followed by the teardown. The flag is cleared as the worker leaves,
also by a panic.
-/

namespace Cadence

/-- How a callback of a duty ends. -/
inductive Ending where
  | returns
  | fails (why : Fault)
  | panics
  deriving DecidableEq

/-- What a worker is given to do. A teardown always returns. -/
structure Duty where
  setup : Ending := .returns
  /-- The ending of a call, by the number of calls before it. -/
  process : Nat → Ending := fun _ => .returns

/-- What happens to a duty in the course of its worker's life. -/
inductive Worker.Event where
  | scheduled
  | setup (ending : Ending)
  | process (ending : Ending)
  | teardown
  deriving DecidableEq

inductive Worker.Exit where
  | returned (result : Except Fault Unit)
  | panicked

namespace Worker.Exit

/-- What joining a worker comes back with. -/
def joined : Exit → Except Fault Unit
  | returned result => result
  | panicked => .error (.systemFailure "thread join" .unknown)

end Worker.Exit

/-- What a worker does next. -/
inductive Worker.Stage where
  | schedule
  | setup
  | openClock
  | check (pacer : Pacer)
  | process (pacer : Pacer)
  | count (pacer : Pacer)
  | pace (pacer : Pacer)
  | countLate (pacer : Pacer)
  | sleep (pacer : Pacer)
  | teardown (result : Except Fault Unit)
  | leave (exit : Exit)
  | gone (exit : Exit)

structure Worker where
  duty : Duty
  stage : Worker.Stage := .schedule
  /-- How the start went, once the worker has said so. -/
  report : Option (Except Fault Unit) := none
  /-- All that happened to the duty, the latest first. -/
  events : List Worker.Event := []
  /-- Calls of the duty's process so far. -/
  calls : Nat := 0

/-- The words that a worker and its owner both use. -/
structure Gauges where
  running : Bool := false
  cycles : UInt64 := 0
  overruns : UInt64 := 0
  deriving DecidableEq

/-- What a worker is started with. -/
structure Assignment where
  /-- Nanoseconds. -/
  interval : Nat
  schedule : Option Schedule := none

/-- Puts the schedule, if there is one, into force on the calling thread. -/
def Assignment.putInForce (a : Assignment) (h : Host) (born : Machine) : Except Refusal Unit :=
  match a.schedule with
  | some s => (s.apply h .caller born).2
  | none => .ok ()

/-- What a step may find out: the clock, and how a sleep ended. -/
structure Moment where
  reading : Except Errno Instant
  nap : Nap := .over

namespace Worker

def exit? (w : Worker) : Option Exit :=
  match w.stage with
  | .gone exit => some exit
  | _ => none

def isProcess : Event → Bool
  | .process _ => true
  | _ => false

def moveTo (w : Worker) (stage : Stage) : Worker := { w with stage }

def note (w : Worker) (e : Event) : Worker :=
  { w with events := e :: w.events, calls := if isProcess e then w.calls + 1 else w.calls }

/-- The count of calls goes with the history. -/
theorem calls_note {w : Worker} (h : w.calls = w.events.countP isProcess) (e : Event) :
    (w.note e).calls = (w.note e).events.countP isProcess := by
  simp only [note, List.countP_cons, ← h]
  split <;> rfl

/-- Reports a failed start and leaves. -/
def giveUp (w : Worker) (why : Fault) : Worker :=
  { w with report := some (.error why), stage := .leave (.returned (.ok ())) }

/-- The next step of a worker that is a new thread `born` on the host. -/
def step (a : Assignment) (h : Host) (born : Machine) (m : Moment) (g : Gauges) (w : Worker) :
    Option (Gauges × Worker) :=
  match w.stage with
  | .schedule =>
    match a.putInForce h born with
    | .error refusal => some (g, w.giveUp refusal.fault)
    | .ok () => some (g, (w.note .scheduled).moveTo .setup)
  | .setup =>
    let noted := w.note (.setup w.duty.setup)
    match w.duty.setup with
    | .returns => some (g, { noted with report := some (.ok ()), stage := .openClock })
    | .fails why => some (g, noted.giveUp why)
    | .panics => some (g, noted.moveTo (.leave .panicked))
  | .openClock =>
    match Pacer.start a.interval m.reading with
    | .ok pacer => some (g, w.moveTo (.check pacer))
    | .error e => some (g, w.moveTo (.teardown (.error e)))
  | .check pacer => some (g, w.moveTo (if g.running then .process pacer else .teardown (.ok ())))
  | .process pacer =>
    let ending := w.duty.process w.calls
    let noted := w.note (.process ending)
    match ending with
    | .returns => some (g, noted.moveTo (.count pacer))
    | .fails why => some (g, noted.moveTo (.teardown (.error why)))
    | .panics => some (g, noted.moveTo (.leave .panicked))
  | .count pacer => some ({ g with cycles := g.cycles + 1 }, w.moveTo (.pace pacer))
  | .pace pacer =>
    match pacer.advance m.reading with
    | .ok (pacer, true) => some (g, w.moveTo (.countLate pacer))
    | .ok (pacer, false) => some (g, w.moveTo (.sleep pacer))
    | .error e => some (g, w.moveTo (.teardown (.error e)))
  | .countLate pacer => some ({ g with overruns := g.overruns + 1 }, w.moveTo (.check pacer))
  | .sleep pacer =>
    match Pacer.sleep [m.nap] with
    | none => some (g, w)
    | some (.ok ()) => some (g, w.moveTo (.check pacer))
    | some (.error e) => some (g, w.moveTo (.teardown (.error e)))
  | .teardown result => some (g, (w.note .teardown).moveTo (.leave (.returned result)))
  | .leave exit => some ({ g with running := false }, w.moveTo (.gone exit))
  | .gone _ => none

end Worker

end Cadence
