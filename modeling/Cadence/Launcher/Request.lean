import Cadence.Schedule
import Cadence.Text.Numeral

/-!
What the launcher is asked to do, read from the words of its command line. Options come first; the
command starts at the first word that is no option, or behind a lone double dash, and then takes
every word that follows, whatever it looks like.
-/

namespace Cadence.Launcher

structure Request where
  config : Option String := none
  policy : Option Policy := none
  priority : Option Int32 := none
  cpus : Option (List UInt64) := none
  lockMemory : Bool := false
  verbose : Bool := false
  json : Bool := false
  command : List String := []
  deriving DecidableEq

inductive UsageFault where
  | missingCommand
  /-- No value, or none of the values to choose from. -/
  | invalidValue
  /-- Not a number of the kind that is asked for. -/
  | notANumber
  | conflict
  | tooManyValues
  | helpWanted
  | versionWanted
  deriving DecidableEq

inductive Setting where
  | config
  | policy
  | priority
  | cpus
  deriving DecidableEq

inductive Switch where
  | lockMemory
  | verbose
  | json
  | help
  | version
  deriving DecidableEq

namespace Setting

def all : List Setting := [config, policy, priority, cpus]

def name : Setting → String
  | config => "config"
  | policy => "policy"
  | priority => "priority"
  | cpus => "cpus"

end Setting

namespace Switch

def all : List Switch := [lockMemory, verbose, json, help, version]

def name : Switch → String
  | lockMemory => "lock-memory"
  | verbose => "verbose"
  | json => "json"
  | help => "help"
  | version => "version"

def letter? : Switch → Option Char
  | verbose => some 'v'
  | help => some 'h'
  | version => some 'V'
  | _ => none

end Switch

/-- What a word means where options are still expected. -/
inductive Word where
  | setting (s : Setting) (value : Option String)
  | switches (s : List Switch)
  | attached
  | separator
  | other

/-- The part before the first equals sign, and the part behind it. -/
def splitAssignment (cs : List Char) : String × Option String :=
  match cs.dropWhile (· != '=') with
  | [] => (.ofList cs, none)
  | _ :: value => (.ofList (cs.takeWhile (· != '=')), some (.ofList value))

def Word.ofLong (cs : List Char) : Word :=
  let (name, value) := splitAssignment cs
  match Setting.all.find? (·.name == name), Switch.all.find? (·.name == name), value with
  | some s, _, _ => .setting s value
  | none, some s, none => .switches [s]
  | none, some _, some _ => .attached
  | none, none, _ => .other

/-- Letters behind one dash: all of them have to be known. -/
def Word.ofLetters (cs : List Char) : Word :=
  match cs.mapM fun c => Switch.all.find? (·.letter? == some c) with
  | some (s :: more) => .switches (s :: more)
  | _ => .other

def Word.of (w : String) : Word :=
  match w.toList with
  | ['-', '-'] => .separator
  | '-' :: '-' :: cs => .ofLong cs
  | '-' :: cs => .ofLetters cs
  | _ => .other

namespace Request

def policyNames : List (String × Policy) :=
  [("normal", .normal), ("fifo", .fifo), ("round-robin", .roundRobin)]

def priority? (value : String) : Option Int32 := do
  let n ← Text.integer? value.toList
  if Int32.minValue.toInt ≤ n ∧ n ≤ Int32.maxValue.toInt then some (.ofInt n) else none

def cpu? (value : List Char) : Option UInt64 := do
  let n ← Text.count? value
  if n < UInt64.size then some (.ofNat n) else none

/-- The parts between the commas: one more than there are commas. -/
def splitList : List Char → List (List Char)
  | [] => [[]]
  | c :: cs =>
    if c = ',' then [] :: splitList cs
    else match splitList cs with
      | [] => [[c]]
      | part :: parts => (c :: part) :: parts

/-- Gives a setting its value. Only lists may be given more than once. -/
def set (r : Request) : Setting → String → Except UsageFault Request
  | .config, value =>
    if r.config.isSome then .error .conflict
    else if value.isEmpty then .error .invalidValue
    else .ok { r with config := value }
  | .policy, value =>
    if r.policy.isSome then .error .conflict
    else match policyNames.lookup value with
      | some policy => .ok { r with policy }
      | none => .error .invalidValue
  | .priority, value =>
    if r.priority.isSome then .error .conflict
    else match priority? value with
      | some priority => .ok { r with priority }
      | none => .error .notANumber
  | .cpus, value =>
    match (splitList value.toList).mapM cpu? with
    | some more => .ok { r with cpus := r.cpus.getD [] ++ more }
    | none => .error .notANumber

def turnOn (r : Request) : Switch → Except UsageFault Request
  | .lockMemory => if r.lockMemory then .error .conflict else .ok { r with lockMemory := true }
  | .verbose => if r.verbose then .error .conflict else .ok { r with verbose := true }
  | .json => if r.json then .error .conflict else .ok { r with json := true }
  | .help => .error .helpWanted
  | .version => .error .versionWanted

/-- A setting that was named but not looked into yet, with its value if that has come. -/
abbrev Open := Option (Setting × Option String)

def settle (r : Request) : Open → Except UsageFault Request
  | none => .ok r
  | some (_, none) => .error .invalidValue
  | some (s, some value) => r.set s value

def withCommand (r : Request) (command : List String) : Except UsageFault Request :=
  if command.isEmpty then .error .missingCommand else .ok { r with command }

/-- Reads words from the left. A value attached to a switch is noticed before an open setting is
looked into; every other fault is found in order. -/
def scan (r : Request) (named : Open) : List String → Except UsageFault Request
  | [] => do (← r.settle named).withCommand []
  | w :: ws =>
    match Word.of w, named with
    | .attached, _ => .error .tooManyValues
    | .setting s none, _ => do (← r.settle named).scan (some (s, none)) ws
    | .setting s (some value), _ => do (← (← r.settle named).set s value).scan none ws
    | .switches on, _ => do (← on.foldlM turnOn (← r.settle named)).scan none ws
    | .separator, _ => do (← r.settle named).withCommand ws
    | .other, some (s, none) => r.scan (some (s, some w)) ws
    | .other, _ => do (← r.settle named).withCommand (w :: ws)

def parse (words : List String) : Except UsageFault Request :=
  ({} : Request).scan none words

end Request

end Cadence.Launcher
