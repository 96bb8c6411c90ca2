import Cadence.Config.Basic
import Cadence.Scheduling.Apply
import Cadence.Text.Json

/-!
What the launcher says of its work: lines with a level, a source and named fields. A line has a
compact form for people and one for machines, in which its fields keep their kinds.
-/

namespace Cadence.Launcher

inductive LogValue where
  | text (s : String)
  | number (n : Int)
  | flag (b : Bool)
  deriving DecidableEq

namespace LogValue

def plain : LogValue → String
  | text s => s
  | number n => toString n
  | flag b => toString b

def json : LogValue → String
  | text s => Text.jsonQuoted s
  | v => v.plain

end LogValue

structure LogLine where
  level : LogLevel
  source : String
  message : String
  fields : List (String × LogValue) := []
  deriving DecidableEq

namespace LogLine

def levelName (l : LogLine) : String :=
  match l.level with
  | .trace => "TRACE"
  | .debug => "DEBUG"
  | .info => "INFO"
  | .warn => "WARN"
  | .error => "ERROR"

def compact (l : LogLine) : String :=
  let fields := l.fields.map fun (name, v) => " " ++ name ++ "=" ++ v.plain
  l.levelName ++ " " ++ l.source ++ ": " ++ l.message ++ "".intercalate fields

def jsonObject (members : List (String × String)) : String :=
  let written := members.map fun (name, v) => Text.jsonQuoted name ++ ":" ++ v
  "\x7b" ++ ",".intercalate written ++ "\x7d"

def json (l : LogLine) : String :=
  let message := ("message", Text.jsonQuoted l.message)
  jsonObject [("level", Text.jsonQuoted l.levelName),
    ("fields", jsonObject (message :: l.fields.map fun (name, v) => (name, v.json))),
    ("target", Text.jsonQuoted l.source)]

/-- Who speaks of a schedule on its way into force. -/
def scheduling : String := "rtcore_realtime::sched"

def launcher : String := "rtcore_run"

def scheduleFields (s : Schedule) : List (String × LogValue) := [
  ("policy", .text s.policy.name),
  ("priority", .number s.priority.toInt),
  ("cpus", .text (toString s.cpus)),
  ("lock_memory", .flag s.lockMemory)]

def tid (thread : KernelId) : String × LogValue := ("tid", .number thread.toInt)

/-- Who speaks of what could not be put back. -/
def restoring : String := scheduling ++ "::os"

def warning (thread : KernelId) (source message : String) (why : Fault) : LogLine :=
  ⟨.warn, source, message, [tid thread, ("error", .text why.message)]⟩

/-- What could not be put back comes first, and a refusal that undid nothing is not spoken of. -/
def ofRefusal (thread : KernelId) (r : Refusal) : List LogLine :=
  let stuck := r.stuck.map fun (part, why) =>
    warning thread restoring (if part = .policy then "failed to restore scheduler"
      else "failed to restore affinity") why
  stuck ++ match r.part with
    | .policy => [warning thread scheduling "scheduler change refused, affinity restored" r.fault]
    | .memory => [warning thread scheduling "memory lock refused, schedule restored" r.fault]
    | .request | .affinity => []

/-- The lines of an attempt to put a schedule into force. -/
def ofApplying (thread : KernelId) (s : Schedule) : Except Refusal Unit → List LogLine
  | .ok () =>
    (if s.lockMemory then [⟨.debug, scheduling, "process memory locked", []⟩] else []) ++
      [⟨.info, scheduling, "schedule applied", tid thread :: scheduleFields s⟩]
  | .error r => ofRefusal thread r

end LogLine

end Cadence.Launcher
