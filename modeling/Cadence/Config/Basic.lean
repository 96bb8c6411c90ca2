import Cadence.Schedule

/-!
What a program is told by its configuration: how much it logs and what it is called, and for one
that runs others also the schedule they get.
-/

namespace Cadence

inductive LogLevel where
  | trace
  | debug
  | info
  | warn
  | error
  deriving DecidableEq, Repr

namespace LogLevel

def all : List LogLevel := [trace, debug, info, warn, error]

instance : Inhabited LogLevel := ⟨info⟩

def name : LogLevel → String
  | trace => "trace"
  | debug => "debug"
  | info => "info"
  | warn => "warn"
  | error => "error"

def ofName? (s : String) : Option LogLevel := all.find? (·.name == s)

/-- How loud a level is: a logger shows what is at most as loud as itself. -/
def volume : LogLevel → Nat
  | error => 1
  | warn => 2
  | info => 3
  | debug => 4
  | trace => 5

/-- Whether a logger set to this level shows a line of another. -/
def shows (set line : LogLevel) : Bool := line.volume ≤ set.volume

end LogLevel

structure SharedConfig where
  logLevel : LogLevel := default
  serviceName : String
  deriving DecidableEq

structure RunnerConfig where
  shared : SharedConfig
  schedule : Schedule := {}
  deriving DecidableEq

inductive ConfigFault where
  | notFound
  /-- Unreadable, misspelled, or not of the expected form. -/
  | malformed
  | unnamedService
  | badSchedule (why : Fault)

namespace ConfigFault

def message : ConfigFault → String
  | notFound => "Configuration file not found"
  | malformed => "Failed to parse configuration: not of the expected form"
  | unnamedService => "Configuration validation failed: service_name cannot be empty"
  | badSchedule why => "Configuration validation failed: " ++ why.message

end ConfigFault

namespace SharedConfig

def validate (c : SharedConfig) : Except ConfigFault Unit :=
  if c.serviceName.isEmpty then .error .unnamedService else .ok ()

end SharedConfig

namespace RunnerConfig

def validate (c : RunnerConfig) : Except ConfigFault Unit := do
  c.shared.validate
  c.schedule.validate.mapError .badSchedule

end RunnerConfig

end Cadence
