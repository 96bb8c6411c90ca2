import Cadence.Fault

/-!
What a thread asks the scheduler for: a policy with its priority, the CPUs it may run on and
whether memory is locked. `validate` checks a request against limits that hold on every machine;
what the machine at hand allows is found out when the request is applied.
-/

namespace Cadence

inductive Policy where
  | normal
  | fifo
  | roundRobin
  deriving DecidableEq, Repr, Inhabited

namespace Policy

def all : List Policy := [normal, fifo, roundRobin]

def isRealtime : Policy → Bool
  | normal => false
  | fifo | roundRobin => true

def minPriority (p : Policy) : Int := if p.isRealtime then Limits.realtimeMin else 0

def maxPriority (p : Policy) : Int := if p.isRealtime then Limits.realtimeMax else 0

def allows (p : Policy) (priority : Int32) : Bool :=
  p.minPriority ≤ priority.toInt && priority.toInt ≤ p.maxPriority

def name : Policy → String
  | normal => "normal"
  | fifo => "fifo"
  | roundRobin => "round_robin"

def ofName? (s : String) : Option Policy := all.find? (·.name == s)

end Policy

/-- An affinity list, short enough for its fixed place. -/
structure CpuList where
  indices : List UInt64
  length_le : indices.length ≤ Limits.cpus := by decide
  deriving DecidableEq

namespace CpuList

def none : CpuList := ⟨[], by decide⟩

instance : Inhabited CpuList := ⟨none⟩

def ofList? (cpus : List UInt64) : Option CpuList :=
  if h : cpus.length ≤ Limits.cpus then some ⟨cpus, h⟩ else .none

theorem ofList?_eq_some {cpus : List UInt64} {l : CpuList} :
    ofList? cpus = some l ↔ l.indices = cpus := by
  rw [ofList?]
  split
  · rw [Option.some.injEq]
    refine ⟨fun h => h ▸ rfl, ?_⟩
    rintro rfl
    rfl
  · rename_i long
    refine iff_of_false nofun ?_
    rintro rfl
    exact long l.length_le

def isEmpty (l : CpuList) : Bool := l.indices.isEmpty

instance : ToString CpuList := ⟨fun l => "[" ++ ", ".intercalate (l.indices.map toString) ++ "]"⟩

end CpuList

structure Schedule where
  policy : Policy := .normal
  priority : Int32 := 0
  cpus : CpuList := .none
  lockMemory : Bool := false
  deriving DecidableEq, Inhabited

namespace Schedule

def normal : Schedule := {}

def fifo (priority : Int32) : Schedule := { policy := .fifo, priority }

def roundRobin (priority : Int32) : Schedule := { policy := .roundRobin, priority }

def withCpus (s : Schedule) (cpus : List UInt64) : Except Fault Schedule :=
  match CpuList.ofList? cpus with
  | some cpus => .ok { s with cpus }
  | none => .error (.invalidArgument "too many CPUs in affinity list")

/-- Walks the list against the CPUs before it; at one position, range comes before repetition. -/
def checkCpus (before : List UInt64) : List UInt64 → Except Fault Unit
  | [] => .ok ()
  | cpu :: rest =>
    if cpu.toNat > Limits.cpuIndex then .error (.invalidArgument "CPU index out of range")
    else if cpu ∈ before then .error (.invalidArgument "duplicate CPU index in affinity list")
    else checkCpus (cpu :: before) rest

def checkPriority (s : Schedule) : Except Fault Unit :=
  if s.policy.allows s.priority then .ok ()
  else if s.policy.isRealtime then
    .error (.invalidArgument "real-time priority must be within 1..=99")
  else .error (.invalidArgument "normal policy requires priority 0")

def validate (s : Schedule) : Except Fault Unit := do
  s.checkPriority
  checkCpus [] s.cpus.indices

end Schedule

end Cadence
