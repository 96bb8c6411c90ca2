import Cadence.Config.Decode
import Cadence.Files
import Cadence.Launcher.Log
import Cadence.Launcher.Resolve

/-!
A launch from the words of the command line to the exit status: the configuration is read, the schedule
is worked out and put into force, and the command takes over. Whatever is in the way ends the launch
with one line that says so.
-/

namespace Cadence.Launcher

structure Surroundings where
  host : Host
  thread : Machine
  file : String → Config.Source
  /-- Runs a command, and gives its exit status and what it prints. -/
  shell : String → Nat × String

/-- What a plain system has under a path: nothing that is there is a configuration. -/
def plainSource (path : String) : Config.Source :=
  match Files.find [] [] path with
  | .error .missing => .missing
  | _ => .unreadable

inductive Output where
  | log (line : LogLine)
  | text (s : String)
  deriving DecidableEq

structure Launch where
  status : Nat
  output : List Output := []
  deriving DecidableEq

def version : String := "rtcore_run 0.1.0\n"

def help : String := "\n".intercalate [
  "Run a command with a real-time priority and CPU affinity",
  "",
  "Usage: rtcore_run [OPTIONS] <COMMAND>...",
  "",
  "Arguments:",
  "  <COMMAND>...  Command to run, passed to `/bin/sh -c`",
  "",
  "Options:",
  "      --config <FILE>        Runner configuration TOML ([shared] and [schedule] tables)",
  "      --policy <POLICY>      Scheduling policy (default: fifo) [possible values: normal, fifo, " ++
    "round-robin]",
  "      --priority <PRIORITY>  Static priority, 1..=99 for fifo/round-robin (default: 20)",
  "      --cpus <CPUS>          Comma-separated CPUs to run on (default: unchanged)",
  "      --lock-memory          Lock all current and future memory pages",
  "  -v, --verbose              Enable verbose logging (DEBUG level)",
  "      --json                 Output logs in JSON format",
  "  -h, --help                 Print help",
  "  -V, --version              Print version",
  ""]

/-- The configuration sets the level, as far as it could be read; asking for more goes before it. -/
def Request.level (r : Request) (config : Except ConfigFault (Option RunnerConfig)) : LogLevel :=
  if r.verbose then .debug
  else match config with
    | .ok (some c) => c.shared.logLevel
    | _ => default

def fatal (message : String) : List LogLine := [⟨.error, LogLine.launcher, "FATAL: " ++ message, []⟩]

def Request.load (r : Request) (s : Surroundings) : Except ConfigFault (Option RunnerConfig) :=
  match r.config with
  | some path => (Config.load RunnerConfig.decode? (s.file path)).map some
  | none => .ok none

/-- The schedule to ask for, or the text of what is wrong with it. -/
def Request.plan (r : Request) (config : Except ConfigFault (Option RunnerConfig)) :
    Except String Schedule := do
  let config ← config.mapError (·.message)
  if let some c := config then c.validate.mapError (·.message)
  (r.resolve (config.map (·.schedule))).mapError (·.message)

/-- Every line of a launch, and the command if the launch gets that far. -/
def Request.prepare (r : Request) (s : Surroundings)
    (config : Except ConfigFault (Option RunnerConfig)) : List LogLine × Option String :=
  match r.plan config with
  | .error message => (fatal message, none)
  | .ok schedule =>
    let answer := (schedule.apply s.host .caller s.thread).2
    let lines := LogLine.ofApplying .caller schedule answer
    match answer with
    | .error refusal => (lines ++ fatal refusal.fault.message, none)
    | .ok () =>
      let command := " ".intercalate r.command
      (lines ++ [⟨.info, LogLine.launcher, "schedule applied", LogLine.scheduleFields schedule⟩,
        ⟨.info, LogLine.launcher, "executing", [("command", .text command)]⟩], some command)

def Request.launch (r : Request) (s : Surroundings) : Launch :=
  let config := r.load s
  let (lines, command) := r.prepare s config
  let shown := (lines.filter fun l => (r.level config).shows l.level).map .log
  match command with
  | none => { status := 1, output := shown }
  | some c => let (status, out) := s.shell c; { status, output := shown ++ [.text out] }

/-- A request that cannot be read is explained elsewhere than in the output. -/
def launch (s : Surroundings) (words : List String) : Launch :=
  match Request.parse words with
  | .ok r => r.launch s
  | .error .helpWanted => { status := 0, output := [.text help] }
  | .error .versionWanted => { status := 0, output := [.text version] }
  | .error _ => { status := 2 }

def wantsJson (words : List String) : Bool :=
  match Request.parse words with
  | .ok r => r.json
  | .error _ => false

end Cadence.Launcher
