import Cadence.Rounding
import Cadence.Signal.Word
import Cadence.WaitWord

/-!
Any number of parties around a lock and a signal. Locking goes on as around the lock alone: every
move here makes at most one move there, so whatever holds of a shared lock holds here too. The waits
and notifications are added on top, again one atomic step at a time.
-/

namespace Cadence

/-- The next step of a wait. -/
inductive WaitStage where
  /-- Find out when the wait is over. -/
  | reckon
  | check
  /-- Compare the clock with the deadline. -/
  | look
  /-- Note the generation. -/
  | note
  /-- Count in as a waiter. -/
  | enroll (generation : UInt32)
  /-- Free the lock. -/
  | parting (generation : UInt32)
  /-- Go to sleep if the generation is still the same. -/
  | doze (generation : UInt32)
  | asleep (generation : UInt32)
  /-- Count out again. -/
  | leave (cause : Rousing)
  /-- Acquire the lock. -/
  | returning (timedOut : Bool)
  deriving DecidableEq

/-- The next step of a notification. -/
inductive NotifyStage where
  /-- Move the generation on. -/
  | advance
  /-- See whether anybody waits. -/
  | count
  | wake
  deriving DecidableEq

inductive Role where
  | free
  | waiting (wait : Wait) (deadline : Option Nat) (checks : Nat) (stage : WaitStage)
  | notifying (all : Bool) (stage : NotifyStage)

structure Member where
  role : Role := .free
  /-- What the last wait came back with. -/
  report : Option Report := none

instance : Inhabited Member := ⟨{}⟩

namespace Member

def isAsleep (m : Member) : Bool :=
  match m.role with
  | .waiting _ _ _ (.asleep _) => true
  | _ => false

def isFree (m : Member) : Bool :=
  match m.role with
  | .free => true
  | _ => false

/-- The member sleeps no longer, for the given reason. -/
def rouse (m : Member) (cause : Rousing) : Member :=
  match m.role with
  | .waiting w deadline checks (.asleep _) =>
    { m with role := .waiting w deadline checks (.leave cause) }
  | _ => m

end Member

structure SharedSignal (n : Nat) where
  /-- The lock, its value, and the parties that contend for it. -/
  contest : SharedLock n
  signal : SignalWord := {}
  members : Vector Member n

namespace SharedSignal

variable {n : Nat}

def start (n : Nat) (value : UInt64 := 0) (signal : SignalWord := {}) : SharedSignal n :=
  { contest := .start n {} value, signal, members := Vector.replicate n {} }

inductive Move (n : Nat) where
  /-- A move around the lock. -/
  | lock (move : SharedLock.Move n)
  | wait (i : Fin n) (wait : Wait)
  | notify (i : Fin n) (all : Bool)
  | step (i : Fin n)
  /-- The wake for one that `i` owes reaches a sleeper, or finds none. -/
  | wakeOne (i : Fin n) (sleeper : Option (Fin n))
  /-- The wake for all that `i` owes reaches the given parties. -/
  | wakeAll (i : Fin n) (reached : Fin n → Bool)
  | rouse (i : Fin n) (cause : Rousing)

def member (g : SharedSignal n) (i : Fin n) : Member := g.members.get i

def set (g : SharedSignal n) (i : Fin n) (m : Member) : SharedSignal n :=
  { g with members := replaceAt g.members i m }

/-- The first member asleep on the generation. -/
def sleeper? (g : SharedSignal n) : Option (Fin n) :=
  (List.finRange n).find? fun i => (g.member i).isAsleep

def asleep (g : SharedSignal n) : Nat := g.members.countP (·.isAsleep)

/-- Those that are reached sleep no longer. -/
def rouseAll (g : SharedSignal n) (reached : Fin n → Bool) : SharedSignal n :=
  { g with members := Vector.ofFn fun i =>
      if reached i then (g.member i).rouse .woken else g.member i }

/-- Calls of a party are its own business only while it neither waits nor notifies; in a wait, the
freeing and acquiring of the lock belong to the wait. -/
def permits (g : SharedSignal n) : SharedLock.Move n → Bool
  | .call i _ | .release i | .load i | .store i _ => (g.member i).isFree
  | _ => true

def lock (g : SharedSignal n) (move : SharedLock.Move n) : Option (SharedSignal n) := do
  return { g with contest := ← g.contest.fire move }

def stepWait (g : SharedSignal n) (i : Fin n) (w : Wait) (deadline : Option Nat) (checks : Nat)
    (stage : WaitStage) : Option (SharedSignal n) :=
  let m := g.member i
  let p := g.contest.party i
  let go (stage : WaitStage) : Member := { m with role := .waiting w deadline checks stage }
  let done (timedOut : Bool) : Member := { role := .free, report := some { timedOut, checks } }
  match stage with
  | .reckon =>
    let deadline := w.timeout >>= Clock.deadline? g.contest.clock
    some (g.set i { m with role := .waiting w deadline checks .check })
  | .check =>
    match w.condition with
    | none => some (g.set i (go .note))
    | some condition =>
      let (still, value) := condition g.contest.value
      let g := { g with contest := { g.contest with value } }
      if still then
        let stage := if w.timeout.isSome then .look else .note
        some (g.set i { m with role := .waiting w deadline (checks + 1) stage })
      else
        some (g.set i { role := .free, report := some ⟨false, checks + 1⟩ })
  | .look =>
    match deadline with
    | some deadline => some (g.set i (if deadline ≤ g.contest.clock then done true else go .note))
    | none => some (g.set i (go .note))
  | .note => some (g.set i (go (.enroll g.signal.generation)))
  | .enroll generation =>
    { g with signal := { g.signal with waiters := g.signal.waiters + 1 } }.set i
      (go (.parting generation)) |>.lock (.release i)
  | .parting generation =>
    if p.isIdle then some (g.set i (go (.doze generation))) else none
  | .doze generation =>
    some (g.set i (go (if g.signal.generation = generation then .asleep generation
      else .leave .woken)))
  | .asleep _ => none
  | .leave cause =>
    { g with signal := { g.signal with waiters := g.signal.waiters - 1 } }.set i
      (go (.returning (decide (cause = Rousing.timedOut)))) |>.lock (.call i .forever)
  | .returning timedOut =>
    if p.isIdle then
      some (g.set i (if w.condition.isSome then go .check else done timedOut))
    else none

def stepNotify (g : SharedSignal n) (i : Fin n) (all : Bool) : NotifyStage → Option (SharedSignal n)
  | .advance =>
    some ({ g with signal := g.signal.notify }.set i
      { g.member i with role := .notifying all .count })
  | .count =>
    let role := if g.signal.waiters > 0 then Role.notifying all .wake else .free
    some (g.set i { g.member i with role })
  | .wake => none

def owesWake (g : SharedSignal n) (i : Fin n) (all : Bool) : Bool :=
  match (g.member i).role with
  | .notifying all' .wake => all' == all
  | _ => false

def fire (g : SharedSignal n) : Move n → Option (SharedSignal n)
  | .lock move => if g.permits move then g.lock move else none
  | .wait i wait =>
    let m := g.member i
    let p := g.contest.party i
    if m.isFree && p.isIdle && p.holds then
      let stage :=
        if wait.condition.isNone then WaitStage.note
        else if wait.timeout.isSome then .reckon
        else .check
      some (g.set i { m with role := .waiting wait none 0 stage })
    else none
  | .notify i all =>
    let m := g.member i
    if m.isFree && (g.contest.party i).isIdle then
      some (g.set i { m with role := .notifying all .advance })
    else none
  | .step i =>
    match (g.member i).role with
    | .free => none
    | .waiting w deadline checks stage => g.stepWait i w deadline checks stage
    | .notifying all stage => g.stepNotify i all stage
  | .wakeOne i sleeper =>
    if !g.owesWake i false then none
    else
      let g := g.set i { g.member i with role := .free }
      match sleeper with
      | some j =>
        if (g.member j).isAsleep then some (g.set j ((g.member j).rouse .woken)) else none
      | none => if g.sleeper?.isSome then none else some g
  | .wakeAll i reached =>
    let roused := (g.set i { g.member i with role := .free }).rouseAll reached
    -- a call of the kernel wakes as many sleepers as it can name, and no more
    if g.owesWake i true &&
        roused.asleep + Waiting.sleeping.wake g.asleep 4294967295 == g.asleep then some roused
    else none
  | .rouse i cause =>
    let m := g.member i
    match m.role with
    | .waiting w deadline checks (.doze _) =>
      if cause = .woken then none
      else some (g.set i { m with role := .waiting w deadline checks (.leave cause) })
    | .waiting _ _ _ (.asleep _) => if cause = .woken then none else some (g.set i (m.rouse cause))
    | _ => none

/-- The move that brings a party on when nobody else moves. -/
def nextMove? (g : SharedSignal n) (i : Fin n) : Option (Move n) :=
  match g.contest.nextMove? i, (g.member i).role with
  | some move, _ => some (.lock move)
  | none, .free => none
  | none, .notifying false .wake => some (.wakeOne i g.sleeper?)
  | none, .notifying true .wake => some (.wakeAll i fun _ => true)
  | none, .waiting _ _ _ (.asleep _) => none
  | none, _ => some (.step i)

/-- More than the moves that a party can make before it is free or asleep. -/
def patienceOfSettling : Nat := 64

/-- Lets a party move alone until it is free or asleep. -/
def settle (g : SharedSignal n) (i : Fin n) : SharedSignal n :=
  go patienceOfSettling g
where
  go : Nat → SharedSignal n → SharedSignal n
    | 0, g => g
    | fuel + 1, g =>
      match g.nextMove? i >>= g.fire with
      | some g => go fuel g
      | none => g

/-- Lets time pass until the sleep of a party is over. -/
def outwait (g : SharedSignal n) (i : Fin n) : SharedSignal n :=
  match (g.member i).role with
  | .waiting w deadline _ (.asleep _) =>
    let clock := g.contest.clock
    let wake? := if w.condition.isSome then deadline else w.timeout.map (clock + ·)
    match wake? with
    | some wake =>
      let late := { g with contest := { g.contest with clock := max clock wake } }
      ((late.fire (.rouse i .timedOut)).getD g).settle i
    | none => g
  | _ => g

def acquire (g : SharedSignal n) (i : Fin n) : SharedSignal n :=
  ((g.fire (.lock (.call i .forever))).getD g).settle i

def release (g : SharedSignal n) (i : Fin n) : SharedSignal n :=
  ((g.fire (.lock (.release i))).getD g).settle i

def write (g : SharedSignal n) (i : Fin n) (value : UInt64) : SharedSignal n :=
  (g.fire (.lock (.store i value))).getD g

/-- Begins a wait and goes on until the party is back or asleep. -/
def beginWait (g : SharedSignal n) (i : Fin n) (w : Wait) : SharedSignal n :=
  ((g.fire (.wait i w)).getD g).settle i

/-- A whole notification. Those it wakes have yet to move. -/
def notify (g : SharedSignal n) (i : Fin n) (all : Bool) : SharedSignal n :=
  ((g.fire (.notify i all)).getD g).settle i

/-- A whole wait with nobody else moving, and the lock around it. -/
def waitAlone (g : SharedSignal n) (i : Fin n) (w : Wait) : SharedSignal n × Option Report :=
  let g := ((g.acquire i).beginWait i w).outwait i
  (g.release i, (g.member i).report)

/-- A wait alone that raises the value at its first check, for which there has to be a sum. -/
def raiseAlone (g : SharedSignal n) (i : Fin n) (bound : UInt64) (timeout : Option Nat := none) :
    Except WordFault (SharedSignal n × Option Report) :=
  match checkedSum g.contest.value 1 with
  | some _ => .ok (g.waitAlone i (.whileRaisedBelow bound timeout))
  | none => .error .sum

end SharedSignal

end Cadence
