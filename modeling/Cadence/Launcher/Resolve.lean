import Cadence.Launcher.Request

/-!
The schedule that a request amounts to: its options laid over a base, which is the configured
schedule or a real-time one of moderate priority. A policy without a priority takes its own default,
so that the base's priority is never carried into another class.
-/

namespace Cadence.Launcher

def defaultPriority : Policy → Int32
  | .normal => 0
  | .fifo | .roundRobin => 20

def defaultSchedule : Schedule := .fifo (defaultPriority .fifo)

namespace Request

def mergedPolicy (r : Request) (base : Schedule) : Policy := r.policy.getD base.policy

def mergedPriority (r : Request) (base : Schedule) : Int32 :=
  match r.priority, r.policy with
  | some priority, _ => priority
  | none, some policy => defaultPriority policy
  | none, none => base.priority

def resolve (r : Request) (base : Option Schedule) : Except Fault Schedule := do
  let base := base.getD defaultSchedule
  let merged := { base with
    policy := r.mergedPolicy base
    priority := r.mergedPriority base
    lockMemory := r.lockMemory || base.lockMemory }
  let merged ← match r.cpus with
    | some cpus => merged.withCpus cpus
    | none => .ok merged
  merged.validate
  return merged

end Request

end Cadence.Launcher
