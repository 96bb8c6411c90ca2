import Cadence.Config.Basic
import Cadence.Toml.Value

/-!
Configurations as tables: every field is written out, under the name it is read by.
-/

namespace Cadence

open Toml (Table)

namespace Schedule

def encode (s : Schedule) : Table := [
  ("policy", .text s.policy.name),
  ("priority", .integer s.priority.toInt),
  ("cpus", .array (s.cpus.indices.map fun cpu => .integer cpu.toNat)),
  ("lock_memory", .boolean s.lockMemory)]

end Schedule

namespace SharedConfig

def encode (c : SharedConfig) : Table := [
  ("log_level", .text c.logLevel.name),
  ("service_name", .text c.serviceName)]

end SharedConfig

namespace RunnerConfig

def encode (c : RunnerConfig) : Table := [
  ("shared", .table c.shared.encode),
  ("schedule", .table c.schedule.encode)]

/-- The table that is written for a configuration, unless a number in it has no spelling. -/
def written? (c : RunnerConfig) : Option Table :=
  if Table.isWritable c.encode then some c.encode else none

end RunnerConfig

end Cadence
