import Cadence.Scheduling.Host

/-!
A Linux machine and its rules of privilege. Without privileges a thread may give up what it has, but it
cannot enter a real-time class, raise its priority there, leave the idle class or let its children
inherit again. It can lock the memory of a process that is small enough.
-/

namespace Cadence.Host

/-- The first priority and the last of each class that the kernel knows. -/
def linuxPriorities? (word : PolicyWord) : Option (Nat × Nat) :=
  if word = .ofPolicy .fifo ∨ word = .ofPolicy .roundRobin then some (1, 99)
  else if word = .ofPolicy .normal ∨ word = .batch ∨ word = .idle ∨ word = .deadline then some (0, 0)
  else none

def needsPrivilege (now : Standing) (word : PolicyWord) (priority : Int32) : Bool :=
  let enters := word.number != now.word.number
  let isRealtime := word.number == .ofPolicy .fifo || word.number == .ofPolicy .roundRobin
  (isRealtime && (enters || now.priority < priority)) ||
    word.number == .deadline ||
    (now.word.number == .idle && enters) ||
    (now.word.resets && !word.resets)

/-- Deadline work is placed on all CPUs at once and does not go with an affinity. -/
def linuxRefusal (cpus : Nat) (privileged small : Bool) (m : Machine) : KernelCall → Option Errno
  | .setPolicy _ word priority =>
    match linuxPriorities? word.number with
    | none => some .invalid
    | some (low, high) =>
      if priority.toInt < low ∨ (high : Int) < priority.toInt then some .invalid
      else if !privileged && needsPrivilege m.standing word priority then some .notPermitted
      else if word.number = .deadline ∧ m.standing.affinity ≠ .first cpus then some .notPermitted
      else none
  | .setAffinity _ affinity =>
    if affinity &&& .first cpus = 0 then some .invalid
    else if m.standing.word.number = .deadline ∧ affinity ≠ .first cpus then some .busy
    else none
  | .lockMemory => if privileged || small then none else some .noMemory
  | _ => none

/-- All CPUs are online. A thread is found by its own id or as the caller. A small process fits into the
memory that anyone may lock. -/
def linux (cpus : Nat) (privileged : Bool) (small : Bool := false) : Host where
  configuredCpus := cpus
  onlineCpus := cpus
  priorities? := linuxPriorities?
  refuses m c :=
    if c.thread?.all fun t => t = .caller || t = m.own then linuxRefusal cpus privileged small m c
    else some .noProcess

/-- A thread that nothing has been asked of. -/
def newThread (cpus : Nat) : Machine := { own := 1, standing := { affinity := .first cpus } }

end Cadence.Host
