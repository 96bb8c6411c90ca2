import Cadence.Shell.Condition
import Cadence.Shell.Format
import Cadence.Shell.Options
import Cadence.Shell.Settings

/-!
The commands that a shell has of its own, other than those that run a text or another command.
-/

namespace Cadence.Shell

structure Said where
  out : String := ""
  err : String := ""

abbrev Builtin := State → List String → State × Said

namespace Builtin

def done (s : State) (status : Nat) (out : String := "") : State × Said := (s.ends status, { out })

def complain (s : State) (status : Nat) (what : String) : State × Said :=
  (s.ends status, { err := s.name ++ ": 1: " ++ what ++ "\n" })

def others : List String := ["[", "alias", "bg", "cd", "command", "echo", "false", "fg", "getopts",
  "hash", "jobs", "kill", "local", "printf", "pwd", "read", "test", "true", "type", "ulimit", "umask",
  "unalias", "wait"]

def keywords : List String := ["!", "\x7b", "\x7d", "case", "do", "done", "elif", "else", "esac", "fi",
  "for", "if", "in", "then", "until", "while"]

def count? (w : String) : Option Nat :=
  if !w.isEmpty ∧ w.toList.all Char.isDigit then w.toNat?.filter (· < 2147483648) else none

def test (s : State) (words : List String) : State × Said :=
  match Condition.eval s words with
  | .ok b => done s (if b then 0 else 1)
  | .error e => complain s 2 ("[: " ++ e)

def abort (s : State) (what : String) : State × Said :=
  let (s, said) := complain s 2 what
  ({ s with flow := .over }, said)

/-- The status that a word asks for, or the one that is there. -/
def leave (name : String) (flow : Flow) : Builtin := fun s words =>
  match words with
  | [] => ({ s with flow }, {})
  | w :: _ =>
    match count? w with
    | some n => ({ s.ends n with flow }, {})
    | none => abort s (name ++ ": Illegal number: " ++ w)

/-- Leaves loops, as many as there are at most. -/
def jump (name : String) (flow : Nat → Flow) : Builtin := fun s words =>
  match count? (words.headD "1") with
  | some (n + 1) =>
    if s.loops = 0 then done s 0
    else ({ s.ends 0 with flow := flow (min (n + 1) s.loops) }, {})
  | _ => complain s 2 (name ++ ": Illegal number: " ++ words.headD "")

def shift : Builtin := fun s words =>
  match count? (words.headD "1") with
  | some n =>
    if s.arguments.length < n then complain s 2 "shift: can't shift that many"
    else done { s with arguments := s.arguments.drop n } 0
  | none => complain s 2 ("shift: Illegal number: " ++ words.headD "")

def showValues (s : State) : String :=
  let values := s.values.mergeSort fun (a, _) (b, _) => a ≤ b
  String.join (values.map fun (x, v) => x ++ "=" ++ Format.quoted v ++ "\n")

/-- Options, and then arguments if there are any or two dashes stand for them. -/
def set : Builtin := fun s words =>
  if words.isEmpty then done s 0 (showValues s)
  else
    let r := Settings.read false s.options words
    let t := { s with options := r.settings.applied s.options }
    match r.complaint with
    | some e =>
      let (t, said) := complain t 2 ("set: " ++ e)
      (t, { said with out := r.shown })
    | none =>
      done { t with arguments := if r.isClosed || !r.rest.isEmpty then r.rest else t.arguments } 0
        r.shown

/-- A name, and a value behind an equals sign. -/
def assignment (w : String) : String × Option String :=
  let name := w.toList.takeWhile (· != '=')
  let rest := w.toList.drop name.length
  (.ofList name, if rest = [] then none else some (.ofList (rest.drop 1)))

/-- Goes through names, some of them with values, and marks each. -/
def mark (command : String) (note : State → String → State) : Builtin := fun s words =>
  match words.foldlM (fun s w =>
    let (name, value) := assignment w
    if !isName name.toList then Except.error (command ++ ": " ++ name ++ ": bad variable name")
    else do
      let s ← match value with
        | some v => s.set name v
        | none => pure s
      return note s name) s with
  | .ok s => done s 0
  | .error e => complain s 2 e

def markOrShow (command : String) (marked : State → List String)
    (note : State → String → State) : Builtin := fun s words =>
  if words.isEmpty ∨ words.head? = some "-p" then
    let names := (marked s).eraseDups.mergeSort fun a b => a ≤ b
    done s 0 (String.join (names.map fun x =>
      command ++ " " ++ x ++ ((s.values.lookup x).elim "" fun v => "=" ++ Format.quoted v) ++ "\n"))
  else mark command note s words

/-- Remembers what a name stands for, until the function that runs is left. -/
def hide (s : State) (name : String) : State :=
  { s with hidden := (name, s.values.lookup name) :: s.hidden }

def localNames : Builtin := fun s words =>
  if !s.isInFunction then abort s "local: not in a function"
  else mark "local" (fun s _ => s) (words.foldl (fun s w => hide s (assignment w).1) s) words

def unset : Builtin := fun s words =>
  match words with
  | "-f" :: names => done { s with functions := s.functions.filter fun f => f.1 ∉ names } 0
  | names =>
    match (if names.head? = some "-v" then names.drop 1 else names).foldlM (fun (s : State) name =>
      if isName name.toList then s.unset name else .error (name ++ ": bad variable name")) s with
    | .ok s => done s 0
    | .error e => complain s 2 ("unset: " ++ e)

/-- A line of an input, its end gone; backslashes keep characters from splitting fields. -/
def line (isRaw : Bool) : Nat → List Char → List (Char × Bool) × Bool × List Char
  | 0, cs => ([], false, cs)
  | _, [] => ([], false, [])
  | fuel + 1, c :: cs =>
    let go (c : Char) (isKept : Bool) (cs : List Char) : List (Char × Bool) × Bool × List Char :=
      let (more, isEnded, rest) := line isRaw fuel cs
      ((c, isKept) :: more, isEnded, rest)
    if c = '\n' then ([], true, cs)
    else if c = '\\' ∧ !isRaw then
      match cs with
      | '\n' :: cs => line isRaw fuel cs
      | d :: cs => go d true cs
      | [] => ([], false, [])
    else go c false cs

/-- Splits a line into so many fields, the last of which takes all that is left. -/
def split (splitters : List Char) : Nat → List (Char × Bool) → List String
  | 0, _ => []
  | n, cs =>
    let isBlank (c : Char × Bool) : Bool := !c.2 && splitters.contains c.1 && Sum.isBlank c.1
    let isSplitter (c : Char × Bool) : Bool := !c.2 && splitters.contains c.1
    let text (cs : List (Char × Bool)) : String := .ofList (cs.map (·.1))
    let cs := cs.dropWhile isBlank
    match n with
    | n + 2 =>
      let field := cs.takeWhile (!isSplitter ·)
      let rest := (cs.drop field.length).dropWhile isBlank
      let rest := match rest with
        | c :: more => if isSplitter c then more else rest
        | [] => []
      text field :: split splitters (n + 1) rest
    | _ =>
      let kept := (cs.reverse.dropWhile isBlank).reverse
      -- a single splitter behind a single field goes away
      [text (match kept.reverse with
        | c :: more => if isSplitter c && !more.any isSplitter then more.reverse else kept
        | [] => [])]

/-- The options of a reading: whether backslashes are kept, and what names follow. -/
def readOptions (isRaw : Bool) : List String → Bool × List String
  | "-r" :: rest => readOptions true rest
  | "-p" :: _ :: rest => readOptions isRaw rest
  | names => (isRaw, names)

def read : Builtin := fun s words =>
  let (isRaw, names) := readOptions false words
  if names.isEmpty then complain s 2 "read: arg count"
  else
    let (cs, isEnded, rest) := line isRaw (s.input.length + 1) s.input.toList
    let fields := split s.splitters names.length cs
    let values := fields ++ List.replicate (names.length - fields.length) ""
    match (names.zip values).foldlM (fun s (name, value) => s.set name value)
        { s with input := .ofList rest } with
    | .ok s => done s (if isEnded then 0 else 1)
    | .error e => complain s 2 ("read: " ++ e)

def pathOf (p : Files.Place) : String := "/" ++ "/".intercalate p

/-- Goes by the names that led to the directory, so that two dots undo a link. What is remembered may
be the place without links. -/
def cd : Builtin := fun s words =>
  let isPlain := words.contains "-P"
  let words := words.filter fun w => w ≠ "-L" ∧ w ≠ "-P" ∧ w ≠ "--"
  let goal := match words with
    | [] => (s.value? "HOME").getD "/"
    | "-" :: _ => (s.value? "OLDPWD").getD ""
    | w :: _ => w
  let start := if goal.startsWith "/" then [] else s.trail
  let trail := Files.straighten (start ++ goal.splitOn "/")
  match Files.walk s.places [] trail with
  | .ok (p, .directory) =>
    let trail := if isPlain then p else trail
    let t := { s with directory := p, trail }
    let t := (t.put "OLDPWD" (pathOf s.trail)).put "PWD" (pathOf trail)
    done t 0 (if words.head? = some "-" then pathOf trail ++ "\n" else "")
  | _ => complain s 2 ("cd: can't cd to " ++ goal)

def pwd : Builtin := fun s words =>
  done s 0 (pathOf (if words.contains "-P" then s.directory else s.trail) ++ "\n")

/-- Names of signals by their numbers. Number 0 is the end of the shell. -/
def signals : List String := ["EXIT", "HUP", "INT", "QUIT", "ILL", "TRAP", "ABRT", "BUS", "FPE", "KILL",
  "USR1", "SEGV", "USR2", "PIPE", "ALRM", "TERM", "STKFLT", "CHLD", "CONT", "STOP", "TSTP", "TTIN",
  "TTOU", "URG", "XCPU", "XFSZ", "VTALRM", "PROF", "WINCH"]

def signal? (w : String) : Option Nat :=
  match count? w with
  | some n => if n < 65 then some n else none
  | none => signals.idxOf? w.toUpper

/-- Shows what runs on which signal, or sets it: a text, nothing, or with a dash what is usual. -/
def trap : Builtin := fun s words =>
  let words := if words.head? = some "--" then words.drop 1 else words
  match words with
  | [] =>
    let traps := s.traps.mergeSort fun (a, _) (b, _) => a ≤ b
    done s 0 (String.join (traps.map fun ((n, text) : Nat × String) =>
      "trap -- " ++ Format.quoted text ++ " " ++ signals.getD n (toString n) ++ "\n"))
  | w :: rest =>
    let (text, names) :=
      if rest = [] ∨ (count? w).isSome then (none, words)
      else (if w = "-" then none else some w, rest)
    let place (s : State) (name : String) : Except (State × String) State :=
      match signal? name with
      | some n =>
        let others := s.traps.filter (·.1 != n)
        .ok { s with traps := text.elim others fun t => (n, t) :: others }
      | none => .error (s, name)
    match names.foldlM place s with
    | .ok s => done s 0
    | .error (s, name) => complain s 1 ("trap: " ++ name ++ ": bad trap")

/-- A signal for the shell itself. Some are only heard if something is to run. -/
def receive (s : State) (n : Nat) : State × Said :=
  match s.traps.lookup n with
  | some text => done (if text = "" then s else { s with pending := s.pending ++ [n] }) 0
  | none => if n ∈ [0, 17, 18, 19, 20, 21, 22, 23, 28] then done s 0 else (s.stop (128 + n), {})

/-- The name of a signal, given by its number or by the status of what it has ended. -/
def signalName? (w : String) : Option String := do
  let n ← count? w
  let n := if 128 < n then n - 128 else n
  if n = 0 then none else signals[n]?

def kill : Builtin := fun s words =>
  let send (signal : Option Nat) (goals : List String) : State × Said :=
    match signal, goals with
    | none, _ => complain s 2 "kill: invalid signal number or name"
    | some _, [] => complain s 2 "kill: no process"
    | some n, goal :: _ =>
      if goal = toString State.pid then receive s n
      else if s.background.any fun job => toString job.1 == goal then done s 0
      else complain s 1 "kill: No such process"
  match words with
  | [] => complain s 2 "kill: usage"
  | "-l" :: w :: _ =>
    match signalName? w with
    | some name => done s 0 (name ++ "\n")
    | none => complain s 2 "kill: invalid signal number or exit status"
  | "-s" :: w :: goals => send (signal? w) goals
  | w :: goals =>
    if w.startsWith "-" then send (signal? (w.drop 1).toString) goals else send (some 15) (w :: goals)

/-- All that runs in the background has ended by now. -/
def wait : Builtin := fun s words =>
  let statusOf (w : String) : Nat :=
    ((s.background.find? fun job => toString job.1 == w).map (·.2)).getD 127
  done s ((words.getLast?.map statusOf).getD 0)

/-- Keeps names for texts, or shows them. They are never put in for a name. -/
def shorthand : Builtin := fun s words =>
  let shown (x v : String) : String := x ++ "=" ++ Format.quoted v ++ "\n"
  if words.isEmpty then done s 0 (String.join (s.aliases.map fun (x, v) => shown x v))
  else
    let (s, out, isFine) := words.foldl (fun (s, out, isFine) w =>
      match assignment w with
      | (x, some v) =>
        ({ s with aliases := (x, v) :: s.aliases.filter (·.1 != x) }, out, isFine)
      | (x, none) =>
        match s.aliases.lookup x with
        | some v => (s, out ++ shown x v, isFine)
        | none => (s, out, false)) (s, "", true)
    done s (if isFine then 0 else 1) out

def unalias : Builtin := fun s words =>
  if words.head? = some "-a" then done { s with aliases := [] } 0
  else
    let isFine := words.all fun w => (s.aliases.lookup w).isSome
    done { s with aliases := s.aliases.filter fun a => a.1 ∉ words } (if isFine then 0 else 1)

/-- The rights that new files do not have, in base 8 or in letters. -/
def umask : Builtin := fun s words =>
  match words with
  | [] =>
    let digits := Nat.toDigits 8 s.mask
    done s 0 (.ofList (List.replicate (4 - digits.length) '0' ++ digits ++ ['\n']))
  | "-S" :: _ =>
    let letters (shift : Nat) : String :=
      let bits := 7 - (s.mask >>> shift) % 8
      (if bits &&& 4 ≠ 0 then "r" else "") ++ (if bits &&& 2 ≠ 0 then "w" else "") ++
        (if bits &&& 1 ≠ 0 then "x" else "")
    done s 0 ("u=" ++ letters 6 ++ ",g=" ++ letters 3 ++ ",o=" ++ letters 0 ++ "\n")
  | w :: _ =>
    if w.toList.all Format.isOctal then
      done { s with mask := (w.toList.foldl (fun n c => n * 8 + (c.toNat - '0'.toNat)) 0) % 512 } 0
    else complain s 2 ("umask: Illegal mode: " ++ w)

def getopts : Builtin := fun s words =>
  match words with
  | letters :: name :: more =>
    let step := Options.next letters.toList (if more.isEmpty then s.arguments else more)
      (((s.value? "OPTIND").bind (·.toNat?)).getD 1) s.within
    let s := match step.argument with
      | .kept => s
      | .is v => s.put "OPTARG" v
      | .gone => { s with values := s.values.filter (·.1 != "OPTARG") }
    let s := { s.put "OPTIND" (toString step.index) with within := (step.index, step.offset) }
    match s.set name step.letter.toString with
    | .ok s =>
      let (_, said) := step.complaint.elim (done s 0) (complain s 0)
      (s.ends (if step.isOver then 1 else 0), said)
    | .error e => complain s 2 ("getopts: " ++ e)
  | _ => complain s 2 "getopts: Usage: getopts optstring var [arg]"

/-- What a name means to the shell, in a few words, and in one. -/
def meaning? (s : State) (name : String) : Option (String × String) :=
  if keywords.contains name then some (" is a shell keyword", name)
  else if Script.specials.contains name then some (" is a special shell builtin", name)
  else if (s.functions.lookup name).isSome then some (" is a shell function", name)
  else if others.contains name then some (" is a shell builtin", name)
  else if Files.programs.contains name then some (" is /usr/bin/" ++ name, "/usr/bin/" ++ name)
  else if name.contains '/' ∧ (s.find name).isOk then some (" is " ++ name, name)
  else none

def type : Builtin := fun s words =>
  let lines := words.map fun w => match meaning? s w with
    | some (text, _) => w ++ text ++ "\n"
    | none => w ++ ": not found\n"
  done s (if words.all fun w => (meaning? s w).isSome then 0 else 127) (String.join lines)

def describe : Builtin := fun s words =>
  match (words.filter (· != "--")).head?.map (meaning? s) with
  | none => done s 0
  | some none => done s 127
  | some (some (_, short)) => done s 0 (short ++ "\n")

def hash : Builtin := fun s words =>
  done s (if words.all fun w => w = "-r" ∨ (meaning? s w).isSome then 0 else 1)

def printf : Builtin := fun s words =>
  match (if words.head? = some "--" then words.drop 1 else words) with
  | [] => complain s 2 "printf: usage: printf format [arg ...]"
  | format :: ws =>
    if format.length ≠ 1 ∧ format.startsWith "-" ∧ words.head? ≠ some "--" then
      complain s 2 ("printf: Illegal option " ++ format)
    else
      let (out, trouble) := Format.printf format ws
      match trouble with
      | none => done s 0 out
      | some trouble =>
        let (s, said) := complain s (if trouble = .format then 2 else 1) ("printf: " ++ trouble.message)
        (s, { said with out })

/-- The command of this name that the shell has of its own. -/
def own? (name : String) : Option Builtin :=
  match name with
  | ":" | "true" | "jobs" | "times" => some fun s _ => done s 0
  | "false" => some fun s _ => done s 1
  | "bg" | "fg" => some fun s _ => complain s 2 (name ++ ": No current job")
  | "echo" => some fun s words => done s 0 (Format.echo words)
  | "printf" => some printf
  | "test" => some test
  | "[" => some fun s words =>
    if words.getLast? = some "]" then test s words.dropLast else complain s 2 "[: missing ]"
  | "pwd" => some pwd
  | "cd" => some cd
  | "exit" => some (leave name .over)
  | "return" => some (leave name .returns)
  | "break" => some (jump name .breaks)
  | "continue" => some (jump name .continues)
  | "shift" => some shift
  | "set" => some set
  | "unset" => some unset
  | "export" => some (markOrShow name (·.exported) fun s x => { s with exported := x :: s.exported })
  | "readonly" => some (markOrShow name (·.frozen) fun s x => { s with frozen := x :: s.frozen })
  | "local" => some localNames
  | "read" => some read
  | "trap" => some trap
  | "kill" => some kill
  | "wait" => some wait
  | "type" => some type
  | "hash" => some hash
  | "alias" => some shorthand
  | "unalias" => some unalias
  | "getopts" => some getopts
  | "umask" => some umask
  | "ulimit" => some fun s words =>
    done s 0 (if words.all fun w => w.startsWith "-" then "unlimited\n" else "")
  | _ => none

/-- What becomes of a name that is no command. -/
def unknown (s : State) (name : String) : State × Said :=
  if name.contains '/' ∧ (s.find name).isOk then complain s 126 (name ++ ": Permission denied")
  else complain s 127 (name ++ ": not found")

end Builtin

end Cadence.Shell
