import Cadence.Scheduling.Host

/-!
Putting a schedule into force. All that can be checked is checked before anything changes. After that
each step can still be refused, and a refused step undoes the ones before it in reverse, so that the
thread has either its new schedule or its old one. The old policy is put back with its flag.
-/

namespace Cadence

/-- A thread's standing as it was read, the policy's number and its flag apart. -/
structure Snapshot where
  affinity : CpuSet
  number : PolicyWord
  resetOnFork : Bool
  priority : Int32
  deriving DecidableEq

/-- What was asked for when a refusal came. -/
inductive SchedulePart where
  | request
  | affinity
  | policy
  | memory
  deriving DecidableEq

/-- Why a schedule is not in force, and what could not be put back. -/
structure Refusal where
  part : SchedulePart
  fault : Fault
  stuck : List (SchedulePart × Fault) := []
  deriving DecidableEq

namespace Snapshot

def ofStanding (s : Standing) : Snapshot :=
  ⟨s.affinity, s.word.number, s.word.resets, s.priority⟩

def take (h : Host) (thread : KernelId) (m : Machine) : Machine × Except Fault Snapshot :=
  match h.call (.getAffinity thread) m with
  | (m, .error e) => (m, .error e)
  | (m, .ok ()) =>
    match h.call (.getPolicy thread) m with
    | (m, .error e) => (m, .error e)
    | (m, .ok ()) =>
      match h.call (.getPriority thread) m with
      | (m, .error e) => (m, .error e)
      | (m, .ok ()) => (m, .ok (ofStanding m.standing))

def word (s : Snapshot) : PolicyWord :=
  if s.resetOnFork then s.number ||| PolicyWord.resetOnFork else s.number

/-- A refusal to put something back is noted and changes nothing else. -/
def restore (s : Snapshot) (h : Host) (thread : KernelId) (part : SchedulePart) (m : Machine) :
    Machine × List (SchedulePart × Fault) :=
  let call : KernelCall := match part with
    | .policy => .setPolicy thread s.word s.priority
    | _ => .setAffinity thread s.affinity
  match h.call call m with
  | (m, .ok ()) => (m, [])
  | (m, .error e) => (m, [(part, e)])

/-- The CPUs of a thread that is kept from some; no CPU is named for one that is free. -/
def cpus (s : Snapshot) (h : Host) : CpuList :=
  let allowed := (List.range h.nameableCpus).filter s.affinity.has
  if h.onlineCpus ≤ allowed.length then .none
  else ⟨(allowed.map UInt64.ofNat).take Limits.cpus, List.length_take_le _ _⟩

def policy (s : Snapshot) : Except Fault Policy :=
  match s.number.policy? with
  | some p => .ok p
  | none => .error (.systemFailure "sched_getscheduler" .invalid)

end Snapshot

namespace Schedule

def checkHost (s : Schedule) (h : Host) : Except Fault Unit :=
  if !h.allows (.ofPolicy s.policy) s.priority then
    .error (.invalidArgument "priority outside the kernel's range for policy")
  else if s.cpus.indices.any fun cpu => h.nameableCpus ≤ cpu.toNat then
    .error (.invalidArgument "affinity names a CPU that does not exist")
  else .ok ()

def pin (s : Schedule) (h : Host) (thread : KernelId) (m : Machine) : Machine × Except Fault Unit :=
  if s.cpus.isEmpty then (m, .ok ())
  else h.call (.setAffinity thread (.ofList s.cpus.indices)) m

def apply (s : Schedule) (h : Host) (thread : KernelId) (m : Machine) :
    Machine × Except Refusal Unit :=
  match s.validate >>= fun _ => s.checkHost h with
  | .error e => (m, .error ⟨.request, e, []⟩)
  | .ok () =>
    match Snapshot.take h thread m with
    | (m, .error e) => (m, .error ⟨.request, e, []⟩)
    | (m, .ok before) =>
      match s.pin h thread m with
      | (m, .error e) => (m, .error ⟨.affinity, e, []⟩)
      | (m, .ok ()) =>
        match h.call (.setPolicy thread (.ofPolicy s.policy) s.priority) m with
        | (m, .error e) =>
          let (m, stuck) := before.restore h thread .affinity m
          (m, .error ⟨.policy, e, stuck⟩)
        | (m, .ok ()) =>
          if !s.lockMemory then (m, .ok ())
          else match h.call .lockMemory m with
            | (m, .error e) =>
              let (m, stuckPolicy) := before.restore h thread .policy m
              let (m, stuckAffinity) := before.restore h thread .affinity m
              (m, .error ⟨.memory, e, stuckPolicy ++ stuckAffinity⟩)
            | (m, .ok ()) => (m, .ok ())

/-- Reads the schedule of a thread back. -/
def current (h : Host) (thread : KernelId) (m : Machine) : Machine × Except Fault Schedule :=
  match Snapshot.take h thread m with
  | (m, .error e) => (m, .error e)
  | (m, .ok s) => (m, s.policy.map fun policy =>
      { policy, priority := s.priority, cpus := s.cpus h, lockMemory := m.memoryLocked })

end Schedule

end Cadence
