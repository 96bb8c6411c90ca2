import Cadence.Launcher.Resolve
import Mathlib.Logic.ExistsUnique

/-!
A request laid over a base, option by option. The schedule that comes out is the one in which every
option has its way, provided that there is room for its CPUs and that it is valid; what an option
replaces in the base does not matter, and laying the same options over the outcome changes nothing.
-/

namespace Cadence.Launcher.Request

variable {r : Request} {base other s : Schedule} {l : CpuList} {e : Fault}

/-- The options of a request have their way, and the base has the rest. -/
structure Overlaid (r : Request) (base s : Schedule) : Prop where
  policy : s.policy = r.policy.getD base.policy
  priority : s.priority = r.priority.getD ((r.policy.map defaultPriority).getD base.priority)
  cpus : s.cpus.indices = r.cpus.getD base.cpus.indices
  lockMemory : s.lockMemory = (r.lockMemory || base.lockMemory)

structure AgreeOutside (r : Request) (base other : Schedule) : Prop where
  policy : r.policy = none → base.policy = other.policy
  priority : r.priority = none → r.policy = none → base.priority = other.priority
  cpus : r.cpus = none → base.cpus = other.cpus
  lockMemory : r.lockMemory = false → base.lockMemory = other.lockMemory

theorem Overlaid.congr (h : r.Overlaid base s) (same : r.AgreeOutside base other) :
    r.Overlaid other s := by
  refine ⟨h.policy.trans ?_, h.priority.trans ?_, h.cpus.trans ?_, h.lockMemory.trans ?_⟩
  · cases hpolicy : r.policy with
    | none => exact same.policy hpolicy
    | some => rfl
  · cases hpriority : r.priority with
    | some => rfl
    | none =>
      cases hpolicy : r.policy with
      | none => exact same.priority hpriority hpolicy
      | some => rfl
  · cases hcpus : r.cpus with
    | none => rw [same.cpus hcpus]
    | some => rfl
  · cases hlock : r.lockMemory with
    | false => exact same.lockMemory hlock
    | true => rfl

/-- A policy takes its own priority, and CPUs go by the request. -/
example : resolve { policy := some .roundRobin, cpus := some [1, 2] }
    (some { policy := .fifo, priority := 50, cpus := ⟨[3], by decide⟩, lockMemory := true }) =
      .ok { policy := .roundRobin, priority := 20, cpus := ⟨[1, 2], by decide⟩,
            lockMemory := true } := by
  rfl

end Cadence.Launcher.Request
