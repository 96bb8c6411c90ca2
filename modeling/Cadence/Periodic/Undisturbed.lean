import Cadence.Periodic.Lifecycle

/-!
Runs of a periodic thread in which nothing comes in between: no call fails, no signal arrives, every
sleep ends at its deadline, and a call of the duty takes a fixed time. The owner looks at the worker
only while it waits.
-/

namespace Cadence

structure Undisturbed where
  host : Host
  born : Machine
  thread : PeriodicThread
  /-- Nanoseconds on the clock. -/
  time : Nat := 0
  /-- What the duty spins for in each of its calls. -/
  spin : Nat := 0

namespace Undisturbed

/-- What a call of a duty takes beside spinning. -/
def callTime : Nat := 20000

def fire (u : Undisturbed) (move : PeriodicThread.Move) : Option Undisturbed :=
  (u.thread.fire u.host u.born move).map fun thread => { u with thread }

/-- Lets time pass as the worker's next step takes it. -/
def pass (u : Undisturbed) : Undisturbed :=
  match u.thread.worker.map Worker.stage with
  | some (.process _) => { u with time := u.time + callTime + u.spin }
  | some (.sleep pacer) => { u with time := max u.time pacer.next.toNanos.toNat }
  | _ => u

def work (u : Undisturbed) : Option Undisturbed :=
  let u := u.pass
  u.fire (.work { reading := .ok (.ofNanos u.time) })

/-- Steps enough for any run that is meant to end. -/
def steps : Nat := 1 <<< 40

/-- The worker moves on until something is seen or no move is left. -/
def workUntil (seen : PeriodicThread → Bool) (u : Undisturbed) : Undisturbed :=
  go steps u
where
  go : Nat → Undisturbed → Undisturbed
    | 0, u => u
    | fuel + 1, u => if seen u.thread then u else
      match u.work with
      | some u => go fuel u
      | none => u

/-- The owner goes on as soon as it can, until its call is over. -/
def finish (u : Undisturbed) : Undisturbed :=
  go steps u
where
  go : Nat → Undisturbed → Undisturbed
    | 0, u => u
    | fuel + 1, u => if u.thread.owner = .idle then u else
      match u.fire .resume <|> u.work with
      | some u => go fuel u
      | none => u

def start (u : Undisturbed) (duty : Duty) (spin : Nat := 0) : Undisturbed :=
  (({ u with spin }.fire (.start duty none)).getD u).finish

def stop (u : Undisturbed) : Undisturbed := ((u.fire .stop).getD u).finish

def waitDone (u : Undisturbed) : Undisturbed := u.workUntil fun t => !t.isRunning

def waitCycles (u : Undisturbed) (cycles : Nat) : Undisturbed :=
  u.workUntil fun t => !t.isRunning || cycles ≤ t.gauges.cycles.toNat

/-- Whether the last call came back without a fault. -/
def succeeded (u : Undisturbed) : Bool :=
  match u.thread.answer with
  | some (.ok ()) => true
  | _ => false

end Undisturbed

end Cadence
