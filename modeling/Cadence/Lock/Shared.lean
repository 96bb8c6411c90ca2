import Cadence.Cells
import Cadence.Lock.Word

/-!
Any number of parties around one lock and the value it guards. A move is one atomic step of one
party, a decision of the kernel about a sleeper, or the passing of time; `fire` says what a move does
and when it is possible. Every interleaving is a list of moves.
-/

namespace Cadence

/-- What a party is in the middle of. -/
inductive Doing where
  | idle
  | acquiring (attempt : Attempt)
  | releasing
  /-- After freeing a word that was 2, before waking a sleeper. -/
  | waking
  deriving DecidableEq

structure Party where
  holds : Bool := false
  doing : Doing := .idle
  /-- What the holder has read of the value. -/
  seen : Option UInt64 := none
  verdict : Option Verdict := none
  deriving DecidableEq, Inhabited

namespace Party

def isIdle (p : Party) : Bool := p.doing = .idle

def isAsleep (p : Party) : Bool :=
  match p.doing with
  | .acquiring a => a.stage = .asleep
  | _ => false

end Party

structure SharedLock (n : Nat) where
  word : LockWord := {}
  value : UInt64 := 0
  clock : Nat := 0
  parties : Vector Party n
  deriving DecidableEq

namespace SharedLock

variable {n : Nat}

def start (n : Nat) (word : LockWord := {}) (value : UInt64 := 0) : SharedLock n :=
  { word, value, parties := Vector.replicate n {} }

inductive Move (n : Nat) where
  | call (i : Fin n) (patience : Patience)
  | release (i : Fin n)
  | step (i : Fin n)
  /-- The wake that `i` owes reaches a sleeper, or finds none. -/
  | wake (i : Fin n) (sleeper : Option (Fin n))
  /-- The kernel ends the sleep of `i`, or never lets it begin. -/
  | rouse (i : Fin n) (cause : Rousing)
  | pass (time : Nat)
  | load (i : Fin n)
  | store (i : Fin n) (value : UInt64)
  deriving DecidableEq

def first : Fin (n + 1) := ⟨0, n.succ_pos⟩

def party (c : SharedLock n) (i : Fin n) : Party := c.parties.get i

def set (c : SharedLock n) (i : Fin n) (p : Party) : SharedLock n :=
  { c with parties := replaceAt c.parties i p }

/-- The first party asleep on the word. -/
def sleeper? (c : SharedLock n) : Option (Fin n) :=
  (List.finRange n).find? fun i => (c.party i).isAsleep

def rouse (c : SharedLock n) (i : Fin n) (cause : Rousing) : Option (SharedLock n) :=
  let p := c.party i
  match p.doing with
  | .acquiring a =>
    if a.stage = .asleep ∨ (a.stage = .doze ∧ cause ≠ .woken) then
      some (c.set i { p with doing := .acquiring (a.moveTo (.leave cause)) })
    else none
  | _ => none

def step (c : SharedLock n) (i : Fin n) : Option (SharedLock n) :=
  let p := c.party i
  match p.doing with
  | .acquiring a =>
    if a.stage = .asleep then none
    else match a.step c.word c.clock with
      | (word, .inl a) => some ({ c with word }.set i { p with doing := .acquiring a })
      | (word, .inr verdict) =>
        some ({ c with word }.set i { p with
          doing := .idle, holds := p.holds || verdict = Verdict.acquired, verdict := some verdict })
  | .releasing =>
    let word := { c.word with state := 0 }
    some ({ c with word }.set i { p with
      doing := if c.word.state = 2 then .waking else .idle, holds := false, seen := none })
  | .idle | .waking => none

def wake (c : SharedLock n) (i : Fin n) (sleeper : Option (Fin n)) : Option (SharedLock n) :=
  let p := c.party i
  if p.doing ≠ .waking then none
  else
    let c := c.set i { p with doing := .idle }
    match sleeper with
    | some j => if (c.party j).isAsleep then c.rouse j .woken else none
    | none => if c.sleeper?.isSome then none else some c

def fire (c : SharedLock n) : Move n → Option (SharedLock n)
  | .call i patience =>
    let p := c.party i
    if p.isIdle then
      some (c.set i { p with doing := .acquiring { patience, called := c.clock } })
    else none
  | .release i =>
    let p := c.party i
    if p.isIdle && p.holds then some (c.set i { p with doing := .releasing }) else none
  | .step i => c.step i
  | .wake i sleeper => c.wake i sleeper
  | .rouse i cause => if cause = .woken then none else c.rouse i cause
  | .pass time => some { c with clock := c.clock + time }
  | .load i =>
    let p := c.party i
    if p.isIdle && p.holds then some (c.set i { p with seen := some c.value }) else none
  | .store i value =>
    let p := c.party i
    if p.isIdle && p.holds then some ({ c with value }.set i { p with seen := none }) else none

/-- The state after moves that are all possible in turn. -/
def run (c : SharedLock n) (moves : List (Move n)) : Option (SharedLock n) := moves.foldlM fire c

/-- The move that brings a party on when nobody else moves. -/
def nextMove? (c : SharedLock n) (i : Fin n) : Option (Move n) :=
  match (c.party i).doing with
  | .idle => none
  | .acquiring a => if a.stage = .asleep then none else some (.step i)
  | .releasing => some (.step i)
  | .waking => some (.wake i c.sleeper?)

/-- More than the moves that a party can make before it is idle or asleep. -/
def patienceOfSettling : Nat := 16

/-- Lets a party move alone until it is idle or asleep. -/
def settle (c : SharedLock n) (i : Fin n) : SharedLock n :=
  go patienceOfSettling c
where
  go : Nat → SharedLock n → SharedLock n
    | 0, c => c
    | fuel + 1, c =>
      match c.nextMove? i >>= c.fire with
      | some c => go fuel c
      | none => c

/-- Lets time pass up to the deadline of a party that sleeps alone. -/
def outwait (c : SharedLock n) (i : Fin n) : SharedLock n :=
  match (c.party i).doing with
  | .acquiring a =>
    match a.stage, a.deadline with
    | .asleep, some deadline =>
      let late := { c with clock := max c.clock deadline }
      ((late.fire (.rouse i .timedOut)).getD c).settle i
    | _, _ => c
  | _ => c

/-- A whole call with nobody else moving. Without a verdict, the call would sleep forever. -/
def acquire (c : SharedLock n) (i : Fin n) (patience : Patience) : SharedLock n × Option Verdict :=
  match c.fire (.call i patience) with
  | none => (c, none)
  | some c =>
    let c := (c.settle i).outwait i
    (c, if (c.party i).isIdle then (c.party i).verdict else none)

def release (c : SharedLock n) (i : Fin n) : SharedLock n :=
  ((c.fire (.release i)).getD c).settle i

/-- Frees the word whoever holds the lock, which only the holder may ask for. -/
def free (c : SharedLock n) (i : Fin n) : SharedLock n :=
  (c.set i { c.party i with doing := .releasing }).settle i

/-- Adds to the value between a load and a store. -/
def add (c : SharedLock n) (i : Fin n) (amount : UInt64) : SharedLock n :=
  (c.fire (.load i) >>= fun c => c.fire (.store i (((c.party i).seen.getD 0) + amount))).getD c

end SharedLock

end Cadence
