import Cadence.Files
import Cadence.Shell.Script

/-!
What a shell keeps while it runs: parameters, functions, the directory, files that it has written, what
is left of its input, and where its two outputs go.
-/

namespace Cadence.Shell

/-- Where an output ends up: in one of the streams that somebody reads, or in a file, or nowhere. -/
inductive Way where
  | stream (number : Nat)
  | file (path : Files.Place)
  | away
  | closed
  deriving DecidableEq

/-- What has been printed, each piece with the number of its stream. -/
abbrev Printed := Array (Nat × String)

namespace Printed

def on (p : Printed) (stream : Nat) : String :=
  String.join ((p.toList.filter (·.1 == stream)).map (·.2))

end Printed

inductive Flow where
  | on
  | over
  | returns
  | breaks (loops : Nat)
  /-- Goes on with the next round of so many loops further out. -/
  | continues (loops : Nat)
  deriving DecidableEq

def shellName : String := "/bin/sh"

structure State where
  name : String := shellName
  values : List (String × String) :=
    [("HOME", "/root"), ("IFS", " \t\n"), ("NO_COLOR", "1"), ("OPTIND", "1"),
      ("PATH", "/usr/local/sbin:/usr/local/bin:/usr/sbin:/usr/bin:/sbin:/bin"), ("PS1", "# "),
      ("PS2", "> "), ("PS4", "+ "), ("PWD", "/")]
  exported : List String := ["HOME", "NO_COLOR", "PATH", "PWD"]
  frozen : List String := []
  hidden : List (String × Option String) := []
  isInFunction : Bool := false
  arguments : List String := []
  functions : List (String × Script) := []
  directory : Files.Place := []
  /-- The way to the directory, which may have gone through links. -/
  trail : Files.Place := []
  written : List (Files.Place × String) := []
  input : String := ""
  ways : List (Nat × Way) := [(1, .stream 1), (2, .stream 2)]
  streams : Nat := 2
  options : List Char := []
  /-- What runs when a signal comes, or with number 0 when the shell is over. -/
  traps : List (Nat × String) := []
  /-- Signals that have come and for which something is to run. -/
  pending : List Nat := []
  /-- What has been run in the background, the latest first, with its status. -/
  background : List (Nat × Nat) := []
  aliases : List (String × String) := []
  mask : Nat := 18
  /-- Where the reading of options stands inside a word, and in which one. -/
  within : Nat × Nat := (1, 0)
  status : Nat := 0
  /-- The status of the last command whose output became part of a word. -/
  captured : Option Nat := none
  loops : Nat := 0
  flow : Flow := .on

namespace State

/-- Options in the order in which they are shown. -/
def optionLetters : List Char := "ubaCEVvxsnmiIfe".toList

def pid : Nat := 1

/-- The value of a parameter, if it has one. -/
def value? (s : State) (name : String) : Option String :=
  match name with
  | "?" => some (toString s.status)
  | "0" => some s.name
  | "#" => some (toString s.arguments.length)
  | "-" => some (.ofList (optionLetters.filter (s.options.contains ·)))
  | "$" => some (toString pid)
  | "!" => s.background.head?.map fun job => toString job.1
  | "LINENO" => some "1"
  | "@" | "*" => if s.arguments.isEmpty then none else some (" ".intercalate s.arguments)
  | _ =>
    if name.toList.all Char.isDigit then s.arguments[name.toNat?.getD 0 - 1]?
    else s.values.lookup name

def splitters (s : State) : List Char := ((s.value? "IFS").getD " \t\n").toList

def put (s : State) (name value : String) : State :=
  { s with
    values := (name, value) :: s.values.filter (·.1 != name)
    exported := if s.options.contains 'a' then name :: s.exported else s.exported }

/-- A value for a name that may not take one any more. -/
def set (s : State) (name value : String) : Except String State :=
  if name ∈ s.frozen then .error (name ++ ": is read only") else .ok (s.put name value)

def unset (s : State) (name : String) : Except String State :=
  if name ∈ s.frozen then .error (name ++ ": is read only")
  else .ok { s with
    values := s.values.filter (·.1 != name), exported := s.exported.filter (· != name) }

/-- Files that are there beside those of the system. -/
def places (s : State) : List Files.Place := s.written.map (·.1)

def find (s : State) (path : String) : Except Files.Obstacle (Files.Place × Files.Kind) :=
  Files.find s.places s.directory path

/-- What a file holds, if it is one that can be read. -/
def contents? (s : State) (path : String) : Option String :=
  match s.find path with
  | .ok (p, .file) =>
    if p = Files.place "dev/null" then some ""
    else if p = Files.place "proc/self/fd/0" then some s.input
    else s.written.lookup p
  | _ => none

def way (s : State) (output : Nat) : Way := (s.ways.lookup output).getD .closed

def send (s : State) (output : Nat) (way : Way) : State :=
  { s with ways := (output, way) :: s.ways.filter (·.1 != output) }

/-- Where a file of this name would be written. -/
def target? (s : State) (path : String) : Option Way :=
  match s.find path with
  | .ok (p, .file) =>
    some (if p = Files.place "proc/self/fd/1" then s.way 1
      else if p = Files.place "proc/self/fd/2" then s.way 2
      else if p = Files.place "dev/full" then .closed
      else if p.head? = some "dev" then .away
      else .file p)
  | .ok (_, .directory) => none
  | .error _ =>
    let names := path.splitOn "/"
    let parent := "/".intercalate names.dropLast
    let parent := if names.length = 1 then "." else if parent = "" then "/" else parent
    match s.find parent, names.getLast? with
    | .ok (p, .directory), some name => if name = "" then none else some (.file (p ++ [name]))
    | _, _ => none

def write (s : State) (p : Files.Place) (appends : Bool) (text : String) : State :=
  let before := if appends then (s.written.lookup p).getD "" else ""
  { s with written := (p, before ++ text) :: s.written.filter (·.1 != p) }

def emit (s : State) (output : Nat) (text : String) : State × Printed :=
  if text = "" then (s, #[])
  else match s.way output with
    | .stream n => (s, #[(n, text)])
    | .file p => (s.write p true text, #[])
    | .away | .closed => (s, #[])

def ends (s : State) (status : Nat) : State := { s with status }

def stop (s : State) (status : Nat) : State := { s with status, flow := .over }

def environment (s : State) : List (String × String) :=
  s.values.filter fun (name, _) => name ∈ s.exported

def farewell (s : State) : Option String := s.traps.lookup 0

/-- A part of the shell that changes nothing outside, its input and files apart. -/
def inner (s : State) : State :=
  { s with traps := s.traps.filter (·.2 == ""), loops := 0, background := [] }

def after (s t : State) : State :=
  { s with status := t.status, input := t.input, written := t.written }

/-- Another shell, which starts with what it is handed. -/
def another (s : State) (name : String) (arguments : List String) : State :=
  let fresh : State := {}
  { fresh with
    name
    values := s.environment ++ fresh.values.filter fun (x, _) =>
      (x ∉ fresh.exported ∨ x = "PATH" ∨ x = "PWD") ∧
        (x ∉ s.exported ∨ (s.values.lookup x).isNone)
    exported := s.exported
    arguments
    directory := s.directory
    trail := s.trail
    mask := s.mask
    written := s.written
    input := s.input
    ways := s.ways
    streams := s.streams }

end State

end Cadence.Shell
