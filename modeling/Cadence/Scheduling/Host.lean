import Cadence.Schedule

/-!
The kernel's side of scheduling: what it keeps of a thread and of the memory, and the calls that read
or change that. A host decides which calls go through, and a refused call changes nothing. Refusals are
a parameter that may look at all that was asked before, so a law about every host is a law about every
pattern of refusals.
-/

namespace Cadence

/-- The id by which the kernel knows a thread. -/
abbrev KernelId := Int32

def KernelId.caller : KernelId := 0

/-- A mask with one bit for each CPU it can name. -/
abbrev CpuSet := BitVec (Limits.cpuIndex + 1)

namespace CpuSet

def ofList (cpus : List UInt64) : CpuSet :=
  cpus.foldr (fun cpu set => BitVec.twoPow _ cpu.toNat ||| set) 0

def first (count : Nat) : CpuSet := .ofNat _ ((1 <<< count) - 1)

def has (set : CpuSet) (cpu : Nat) : Bool := set.getLsbD cpu

end CpuSet

/-- A policy as the kernel writes it: a number and one flag. It is never negative, for a negative
answer is a refusal, so 31 bits hold it. -/
abbrev PolicyWord := BitVec 31

namespace PolicyWord

/-- Children of the thread start over as normal. -/
def resetOnFork : PolicyWord := .twoPow 31 30

def batch : PolicyWord := 3
def idle : PolicyWord := 5
def deadline : PolicyWord := 6

def ofPolicy : Policy → PolicyWord
  | .normal => 0
  | .fifo => 1
  | .roundRobin => 2

def resets (w : PolicyWord) : Bool := w &&& resetOnFork != 0

def number (w : PolicyWord) : PolicyWord := w &&& ~~~resetOnFork

/-- Batch and idle work has no class of its own here. -/
def policy? (w : PolicyWord) : Option Policy :=
  if w = ofPolicy .fifo then some .fifo
  else if w = ofPolicy .roundRobin then some .roundRobin
  else if w = ofPolicy .normal ∨ w = batch ∨ w = idle then some .normal
  else none

end PolicyWord

/-- What the kernel keeps of a thread. -/
structure Standing where
  affinity : CpuSet
  word : PolicyWord := 0
  priority : Int32 := 0
  deriving DecidableEq

inductive KernelCall where
  | getAffinity (thread : KernelId)
  | getPolicy (thread : KernelId)
  | getPriority (thread : KernelId)
  | setAffinity (thread : KernelId) (cpus : CpuSet)
  | setPolicy (thread : KernelId) (word : PolicyWord) (priority : Int32)
  | lockMemory
  | unlockMemory
  deriving DecidableEq

namespace KernelCall

def name : KernelCall → String
  | getAffinity _ => "sched_getaffinity"
  | getPolicy _ => "sched_getscheduler"
  | getPriority _ => "sched_getparam"
  | setAffinity .. => "sched_setaffinity"
  | setPolicy .. => "sched_setscheduler"
  | lockMemory => "mlockall"
  | unlockMemory => "munlockall"

def thread? : KernelCall → Option KernelId
  | getAffinity t | getPolicy t | getPriority t | setAffinity t _ | setPolicy t _ _ => some t
  | lockMemory | unlockMemory => none

def isChange : KernelCall → Bool
  | getAffinity _ | getPolicy _ | getPriority _ => false
  | setAffinity .. | setPolicy .. | lockMemory | unlockMemory => true

/-- Too little room for locked pages is a matter of privilege. -/
def fault (c : KernelCall) (e : Errno) : Fault :=
  if c = lockMemory ∧ e = .noMemory then .permissionDenied c.name else .ofErrno c.name e

end KernelCall

/-- A call that was made, and the code with which it was refused. -/
structure Asked where
  call : KernelCall
  refusal : Option Errno
  deriving DecidableEq

/-- One thread, the memory it shares with its process, and every call made so far, the latest first. -/
structure Machine where
  own : KernelId
  standing : Standing
  memoryLocked : Bool := false
  asked : List Asked := []
  deriving DecidableEq

/-- What a call that goes through changes. -/
def Machine.grant (m : Machine) : KernelCall → Machine
  | .getAffinity _ | .getPolicy _ | .getPriority _ => m
  | .setAffinity _ affinity => { m with standing := { m.standing with affinity } }
  | .setPolicy _ word priority => { m with standing := { m.standing with word, priority } }
  | .lockMemory => { m with memoryLocked := true }
  | .unlockMemory => { m with memoryLocked := false }

structure Host where
  configuredCpus : Nat
  onlineCpus : Nat
  /-- The priorities of a policy, if the kernel knows it. -/
  priorities? : PolicyWord → Option (Nat × Nat)
  refuses : Machine → KernelCall → Option Errno

namespace Host

def call (h : Host) (c : KernelCall) (m : Machine) : Machine × Except Fault Unit :=
  let refusal := h.refuses m c
  let noted := { m with asked := ⟨c, refusal⟩ :: m.asked }
  match refusal with
  | none => (noted.grant c, .ok ())
  | some e => (noted, .error (c.fault e))

/-- CPUs that exist and that a mask can name. -/
def nameableCpus (h : Host) : Nat := min h.configuredCpus (Limits.cpuIndex + 1)

def allows (h : Host) (word : PolicyWord) (priority : Int32) : Bool :=
  match h.priorities? word with
  | some (low, high) => low ≤ priority.toInt && priority.toInt ≤ high
  | none => true

end Host

end Cadence
