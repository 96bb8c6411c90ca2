import Cadence.Periodic.Worker

/-!
A periodic thread and the two parties that share it. The owner starts and stops, one call at a time,
and waits inside a call; the worker moves in between. Every interleaving of the two is a list of moves,
and `fire` says what a move does and when it is possible. A worker that has been joined is kept with all
that happened to it, so that the whole history can be read off a state.
-/

namespace Cadence

abbrev ThreadName := BoundedText 32

/-- What the owner is in the middle of. -/
inductive Owner where
  | idle
  /-- Waiting for the report of a new worker. -/
  | starting
  /-- Waiting for a worker that could not start to be gone. -/
  | failing (why : Fault)
  | stopping
  deriving DecidableEq

structure PeriodicThread where
  name : ThreadName
  assignment : Assignment
  gauges : Gauges := {}
  owner : Owner := .idle
  worker : Option Worker := none
  /-- Workers that have been joined, the latest first. -/
  joined : List Worker := []
  /-- What the owner's last call came back with. -/
  answer : Option (Except Fault Unit) := none

namespace PeriodicThread

inductive Move where
  /-- A call of the owner, with the code, if any, of a system that makes no new thread. -/
  | start (duty : Duty) (unborn : Option (Option Int))
  | stop
  /-- The owner goes on with a call in which it waited. -/
  | resume
  | work (m : Moment)

def ofName (name : String) (interval : Nat) (schedule : Option Schedule := none) : PeriodicThread :=
  { name := .ofString name, assignment := { interval, schedule } }

def isRunning (t : PeriodicThread) : Bool := t.gauges.running

/-- All workers there have been, the latest first. -/
def workers (t : PeriodicThread) : List Worker := t.worker.toList ++ t.joined

def setRunning (t : PeriodicThread) (running : Bool) : PeriodicThread :=
  { t with gauges := { t.gauges with running } }

/-- What keeps a start from making a worker. -/
def checkStart (t : PeriodicThread) : Except Fault Unit := do
  if t.assignment.interval = 0 then throw (.invalidArgument "period must be non-zero")
  let _ ← Pacer.intervalOf t.assignment.interval
  if '\x00' ∈ t.name.chars then throw (.invalidArgument "thread name contains NUL")
  if t.worker.isSome then throw (.invalidArgument "thread already running")
  match t.assignment.schedule with
  | some s => s.validate
  | none => pure ()

def beginStart (t : PeriodicThread) (duty : Duty) (unborn : Option (Option Int)) : PeriodicThread :=
  match t.checkStart, unborn with
  | .error e, _ => { t with answer := some (.error e) }
  | .ok (), some raw? =>
    { t.setRunning false with answer := some (.error (.ofCall "pthread_create" raw?)) }
  | .ok (), none => { t.setRunning true with owner := .starting, worker := some { duty } }

/-- A stopped thread stops at once. -/
def beginStop (t : PeriodicThread) : PeriodicThread :=
  let t := t.setRunning false
  if t.worker.isSome then { t with owner := .stopping } else { t with answer := some (.ok ()) }

def giveUp (t : PeriodicThread) (why : Fault) : PeriodicThread :=
  { t.setRunning false with owner := .failing why }

/-- Lets go of a worker that is gone. -/
def join (t : PeriodicThread) (w : Worker) (answer : Except Fault Unit) : PeriodicThread :=
  { t with owner := .idle, worker := none, joined := w :: t.joined, answer := some answer }

def resume (t : PeriodicThread) : Option PeriodicThread := do
  let w ← t.worker
  match t.owner with
  | .idle => none
  | .starting =>
    match w.report, w.exit? with
    | some (.ok ()), _ => some { t with owner := .idle, answer := some (.ok ()) }
    | some (.error e), _ => some (t.giveUp e)
    | none, some _ => some (t.giveUp (.systemFailure "thread start" .unknown))
    | none, none => none
  | .failing why => w.exit?.map fun _ => t.join w (.error why)
  | .stopping => w.exit?.map fun exit => t.join w exit.joined

def fire (h : Host) (born : Machine) (t : PeriodicThread) : Move → Option PeriodicThread
  | .start duty unborn => if t.owner = .idle then some (t.beginStart duty unborn) else none
  | .stop => if t.owner = .idle then some t.beginStop else none
  | .resume => t.resume
  | .work m => do
    let (gauges, w) ← (← t.worker).step t.assignment h born m t.gauges
    return { t with gauges, worker := some w }

/-- The state after moves that are all possible in turn. -/
def run (h : Host) (born : Machine) (t : PeriodicThread) (moves : List Move) :
    Option PeriodicThread := moves.foldlM (fire h born) t

end PeriodicThread

end Cadence
