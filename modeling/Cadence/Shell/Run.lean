import Cadence.Shell.Expand
import Cadence.Shell.Invocation
import Cadence.Shell.Program
import Cadence.Text.Utf8

/-!
What a shell text prints and how it ends. The launcher becomes a shell in the end, so what a launch
prints and answers is said here too. Parts that run apart, such as both sides of a pipe, leave nothing
behind but what they print, what they have read and written, and a status.

Texts can run for ever, so `fuel` counts down with every call; no text that ends comes near its end.
-/

namespace Cadence.Shell

/-- The assignments at the start of a command, and the words after them. -/
def assignments : List Word → List (String × Word) × List Word
  | [] => ([], [])
  | w :: ws =>
    match w.assignment? with
    | some a => let (more, rest) := assignments ws; (a :: more, rest)
    | none => ([], w :: ws)

namespace State

def say : State × Said → State × Printed
  | (s, said) =>
    let s := if said.out ≠ "" ∧ s.way 1 = .closed then s.ends 1 else s
    let (s, p) := s.emit 1 said.out
    let (s, q) := s.emit 2 said.err
    (s, p ++ q)

def abort (s : State) (message : String) : State × Printed := say (Builtin.abort s message)

/-- Where a command that fails ends the shell, it does; one that is tested may fail. -/
def checked (tested : Bool) : State × Printed → State × Printed
  | (s, p) =>
    if s.options.contains 'e' && !tested && s.flow = .on && s.status ≠ 0 then
      ({ s with flow := .over }, p)
    else (s, p)

/-- Puts back what a redirection has changed; an input that was read on stays read. -/
def restored (before : State) (redirects : List Redirect) (s : State) : State :=
  let isOther := redirects.any fun
    | .read _ | .here _ => true
    | _ => false
  { s with ways := before.ways, input := if isOther then before.input else s.input }

/-- Takes away what a function has hidden behind names of its own. -/
def unhidden (before s : State) : State :=
  let values := s.hidden.foldl (fun values (name, old) =>
    let others := values.filter (·.1 != name)
    match old with
    | some v => (name, v) :: others
    | none => others) s.values
  { s with values, hidden := before.hidden }

end State

/-- One redirection, once the words in it are known. -/
def redirect (capture : Capture) (s : State) (r : Redirect) : Except String State := do
  match r with
  | .same => return s
  | .copy output none => return s.send output .closed
  | .copy output (some n) =>
    if n = 0 then return s.send output .closed
    else if s.way n = .closed then throw (toString n ++ ": Bad file descriptor")
    else return s.send output (s.way n)
  | .read w =>
    let (path, s) ← (Expand.whole capture w).run s
    match s.contents? path with
    | some text => return { s with input := text }
    | none => throw ("cannot open " ++ path ++ ": No such file")
  | .here w =>
    let (text, s) ← (Expand.whole capture w).run s
    return { s with input := text }
  | .write output appends w =>
    let (path, s) ← (Expand.whole capture w).run s
    match s.target? path with
    | some (.file p) => return (s.write p appends "").send output (.file p)
    | some way => return s.send output way
    | none => throw ("cannot create " ++ path ++ ": Directory nonexistent")

/-- The end of a loop after its body has been left, or none if another round follows. -/
def leaveLoop (s : State) : Option State :=
  match s.flow with
  | .on | .continues 0 | .continues 1 => none
  | .breaks (n + 2) => some { s with flow := .breaks (n + 1) }
  | .breaks _ => some { s with flow := .on }
  | .continues (n + 2) => some { s with flow := .continues (n + 1) }
  | .over | .returns => some s

mutual

def run : Nat → Bool → Script → State → State × Printed
  | 0, _, _, s => (s.stop 2, #[])
  | fuel + 1, tested, script, s =>
    if s.options.contains 'n' then (s, #[])
    else match script with
    | .nothing => (s.ends 0, #[])
    | .command words redirects =>
      let (s, p) := simple fuel tested words redirects s
      State.checked tested (if s.pending.isEmpty then (s, p) else attend fuel s p)
    | .group false body => run fuel tested body s
    | .group true body =>
      let (t, p) := apart fuel tested body s
      State.checked tested (s.after t, p)
    | .directed body redirects =>
      if redirects.isEmpty then run fuel tested body s
      else match redirects.foldlM (redirect (capture fuel)) s with
        | .error e =>
          let (t, p) := State.say (Builtin.complain s 2 e)
          State.checked tested (t, p)
        | .ok t =>
          let (t, p) := run fuel tested body t
          (s.restored redirects t, p)
    | .pipe a b =>
      let n := s.streams + 1
      let (t, p) := apart fuel true a ({ s with streams := n }.send 1 (.stream n))
      let (u, q) := apart fuel tested b { s with input := p.on n, written := t.written }
      State.checked tested
        ({ s with status := u.status, written := u.written }, p.filter (·.1 != n) ++ q)
    | .negated a =>
      let (s, p) := run fuel true a s
      (if s.flow = .on then s.ends (if s.status = 0 then 1 else 0) else s, p)
    | .both a b =>
      let (s, p) := run fuel true a s
      if s.flow = .on ∧ s.status = 0 then
        let (s, q) := run fuel tested b s
        (s, p ++ q)
      else (s, p)
    | .either a b =>
      let (s, p) := run fuel true a s
      if s.flow = .on ∧ s.status ≠ 0 then
        let (s, q) := run fuel tested b s
        (s, p ++ q)
      else (s, p)
    | .next a b =>
      let (s, p) := run fuel tested a s
      if s.flow = .on then
        let (s, q) := run fuel tested b s
        (s, p ++ q)
      else (s, p)
    | .background a =>
      let (t, p) := apart fuel tested a s
      let pid := State.pid + s.background.length + 1
      ({ (s.after t).ends 0 with background := (pid, t.status) :: s.background }, p)
    | .choice condition yes no =>
      let (s, p) := run fuel true condition s
      if s.flow = .on then
        let (s, q) := run fuel tested (if s.status = 0 then yes else no) s
        (s, p ++ q)
      else (s, p)
    | .repeated isUntil condition body =>
      let (t, p) := rounds fuel tested isUntil condition body { s with loops := s.loops + 1 } 0 #[]
      ({ t with loops := s.loops }, p)
    | .forEach name words body =>
      match words with
      | none =>
        let (t, p) := each fuel tested name s.arguments body { s.ends 0 with loops := s.loops + 1 } #[]
        ({ t with loops := s.loops }, p)
      | some ws =>
        match (Expand.allFields (capture fuel) ws).run s with
        | .error e => s.abort e
        | .ok (fields, s) =>
          let (t, p) := each fuel tested name fields body { s.ends 0 with loops := s.loops + 1 } #[]
          ({ t with loops := s.loops }, p)
    | .cases subject branches =>
      match (Expand.whole (capture fuel) subject).run s with
      | .error e => s.abort e
      | .ok (text, s) => select fuel tested text branches s
    | .branch _ body _ => run fuel tested body s
    | .function name body =>
      ({ s.ends 0 with functions := (name, body) :: s.functions.filter (·.1 != name) }, #[])

/-- The first branch with a pattern for the text. -/
def select : Nat → Bool → String → Script → State → State × Printed
  | 0, _, _, _, s => (s.stop 2, #[])
  | fuel + 1, tested, text, script, s =>
    match script with
    | .branch patterns body rest =>
      match (patterns.mapM fun w => Expand.bits (capture fuel) w).run s with
      | .error e => s.abort e
      | .ok (ps, s) =>
        if ps.any fun bits => (Expand.pattern bits).accepts text.toList then run fuel tested body s
        else select fuel tested text rest s
    | _ => (s.ends 0, #[])

/-- The rounds of a loop, with the status of the last one and what they have printed. -/
def rounds : Nat → Bool → Bool → Script → Script → State → Nat → Printed →
    State × Printed
  | 0, _, _, _, _, s, _, printed => (s.stop 2, printed)
  | fuel + 1, tested, isUntil, condition, body, s, last, printed =>
    let (s, p) := run fuel true condition s
    let printed := printed ++ p
    if s.flow ≠ .on then ((leaveLoop s).getD { s with flow := .on }, printed)
    else if (s.status == 0) == isUntil then (s.ends last, printed)
    else
      let (s, p) := run fuel tested body s
      let printed := printed ++ p
      match leaveLoop s with
      | some s => (s, printed)
      | none =>
        rounds fuel tested isUntil condition body { s with flow := .on } s.status printed

def each : Nat → Bool → String → List String → Script → State → Printed → State × Printed
  | 0, _, _, _, _, s, printed => (s.stop 2, printed)
  | _, _, _, [], _, s, printed => (s, printed)
  | fuel + 1, tested, name, field :: rest, body, s, printed =>
    match s.set name field with
    | .error e =>
      let (s, p) := s.abort e
      (s, printed ++ p)
    | .ok s =>
      let (s, p) := run fuel tested body s
      let printed := printed ++ p
      match leaveLoop s with
      | some s => (s, printed)
      | none => each fuel tested name rest body { s with flow := .on } printed

/-- A command of words: they are expanded, then its ways are changed, and then it runs. -/
def simple : Nat → Bool → List Word → List Redirect → State → State × Printed
  | 0, _, _, _, s => (s.stop 2, #[])
  | fuel + 1, tested, words, redirects, s =>
    let before := { s with captured := none }
    let (settings, words) := assignments words
    match (Expand.command (capture fuel) words).run before with
    | .error e => s.abort e
    | .ok (fields, s) =>
      let name := fields.headD ""
      match redirects.foldlM (redirect (capture fuel)) s with
      | .error e =>
        if Script.specials.contains name then s.abort e else State.say (Builtin.complain s 2 e)
      | .ok t =>
        match settings.foldlM (fun (t : State) (x, w) => do
            let (v, t) ← (Expand.value (capture fuel) w).run t
            t.set x v) t with
        | .error e => s.abort e
        | .ok t =>
          match fields with
          | [] => (s.restored redirects (t.ends (t.captured.getD 0)), #[])
          | name :: arguments =>
            if name = "exec" ∧ arguments.isEmpty then (t.ends 0, #[])
            else
              let isKept := Script.specials.contains name
              let t := if isKept then t
                else { t with exported := settings.map (·.1) ++ t.exported }
              let (u, p) := call fuel tested true name arguments t
              let u := s.restored redirects u
              let u := if isKept || settings.isEmpty then u
                else
                  let touched := settings.map (·.1)
                  { u with
                    values := s.values.filter (fun v => touched.contains v.1) ++
                      u.values.filter fun v => !touched.contains v.1
                    exported := s.exported }
              (u, p)

/-- Runs a command by its name: one of the shell's, a function, or a program. -/
def call : Nat → Bool → Bool → String → List String → State → State × Printed
  | 0, _, _, _, _, s => (s.stop 2, #[])
  | fuel + 1, tested, mayBeFunction, name, words, s =>
    let plain (found : State × Said) : State × Printed :=
      let (t, p) := State.say found
      if Script.specials.contains name ∧ t.status = 2 ∧ t.flow = .on ∧ found.2.err ≠ "" then
        (t.stop 2, p)
      else (t, p)
    let function := if mayBeFunction then s.functions.lookup name
      else none
    match function with
    | some body =>
      let (t, p) := run fuel tested body { s with
        arguments := words, hidden := [], isInFunction := true, loops := 0 }
      let t := { s.unhidden t with
        arguments := s.arguments, isInFunction := s.isInFunction, loops := s.loops }
      (if t.flow = .returns then { t with flow := .on } else t, p)
    | none =>
      match name, words with
      | "eval", words => text fuel tested (" ".intercalate words).toList s
      | ".", file :: _ =>
        match s.contents? file with
        | some cs =>
          let (t, p) := text fuel tested cs.toList s
          (if t.flow = .returns then { t with flow := .on } else t, p)
        | none => s.abort (".: cannot open " ++ file ++ ": No such file")
      | "exec", name :: words =>
        let (t, p) := call fuel tested false name words s
        ({ t with flow := .over, traps := [] }, p)
      | "command", "-p" :: name :: words => call fuel tested false name words s
      | "command", "-v" :: words => plain (Builtin.describe s words)
      | "command", "-V" :: words => plain (Builtin.type s words)
      | "command", name :: words => call fuel tested false name words s
      | "command", [] => (s.ends 0, #[])
      | name, words =>
        match Builtin.own? name, Program.nameOf? name with
        | some own, _ => plain (own s words)
        | none, some "env" =>
          let (t, words) := Program.environment s words
          match words with
          | [] => plain (Builtin.done s 0
              (String.join (t.environment.map fun (x, v) => x ++ "=" ++ v ++ "\n")))
          | name :: words =>
            let (t, p) := call fuel tested false name words t
            (s.after t, p)
        | none, some program =>
          match Program.named? program with
          | some own => plain (own s words)
          | none =>
            let (t, p) := start fuel name words s
            (s.after t, p)
        | none, none => plain (Builtin.unknown s name)

/-- A part of the shell that runs apart from it. -/
def apart : Nat → Bool → Script → State → State × Printed
  | 0, _, _, s => (s.stop 2, #[])
  | fuel + 1, tested, script, s =>
    let (t, p) := run fuel tested script s.inner
    farewell fuel t p

/-- Runs what a shell has been told to run at its end. A status leaves it as a byte. -/
def farewell : Nat → State → Printed → State × Printed
  | 0, s, p => (s.stop 2, p)
  | fuel + 1, s, p =>
    let s := s.ends (s.status % 256)
    match s.farewell with
    | none => (s, p)
    | some cs =>
      let (t, q) := text fuel false cs.toList { s with traps := [], flow := .on }
      (t.ends (if t.flow = .over then t.status % 256 else s.status), p ++ q)

/-- Runs what signals ask for that have come; the status stays. -/
def attend : Nat → State → Printed → State × Printed
  | 0, s, p => (s.stop 2, p)
  | fuel + 1, s, p =>
    match s.pending with
    | [] => (s, p)
    | n :: rest =>
      let (t, q) := text fuel false ((s.traps.lookup n).getD "").toList { s with pending := rest }
      attend fuel (if t.flow = .over then t else t.ends s.status) (p ++ q)

def text : Nat → Bool → List Char → State → State × Printed
  | 0, _, _, s => (s.stop 2, #[])
  | fuel + 1, tested, cs, s =>
    let (lines, isWhole) := Script.ofText cs
    sequence fuel tested lines isWhole (if lines.isEmpty then s.ends 0 else s) #[]

def sequence : Nat → Bool → List Script → Bool → State → Printed → State × Printed
  | 0, _, _, _, s, printed => (s.stop 2, printed)
  | fuel + 1, tested, lines, isWhole, s, printed =>
    match lines with
    | [] =>
      if isWhole then (s, printed)
      else
        let (s, p) := s.abort "Syntax error"
        (s, printed ++ p)
    | script :: rest =>
      let (s, p) := run fuel tested script s
      if s.flow = .on then sequence fuel tested rest isWhole s (printed ++ p)
      else (s, printed ++ p)

/-- A shell of its own, from the first line to its farewell. -/
def shell : Nat → List Char → State → State × Printed
  | 0, _, s => (s.stop 2, #[])
  | fuel + 1, cs, s =>
    let (t, p) := text fuel false cs s
    farewell fuel t p

/-- A shell that is started like any other program. -/
def start : Nat → String → List String → State → State × Printed
  | 0, _, _, s => (s.stop 2, #[])
  | fuel + 1, name, words, s =>
    match Invocation.read name words with
    | .error shown => State.say (s.stop 2, { out := shown })
    | .ok i =>
      let (s, p) := s.emit 1 i.shown
      let t := { s.another i.name i.arguments with options := i.options }
      let (t, q) := match i.source with
        | .command text => shell fuel text.toList t
        | .input => shell fuel t.input.toList { t with input := "" }
        | .file path =>
          match s.contents? path with
          | some text => shell fuel text.toList t
          | none => (t.stop 2, #[])
      (t, p ++ q)

def capture : Nat → State → List Char → State × String
  | 0, s, _ => (s.stop 2, "")
  | fuel + 1, s, cs =>
    let n := s.streams + 1
    let (t, p) := shell fuel cs ({ s.inner with streams := n }.send 1 (.stream n))
    ({ s with captured := some t.status, input := t.input, written := t.written }, p.on n)

end

/-- Far more calls than any text makes that ends. -/
def calls : Nat := 1 <<< 40

/-- Shells know bytes only, so that each of them is a character here. -/
def bytes (s : String) : String :=
  .ofList ((Text.encode s.toList).map fun b => .ofNat b.toNat)

def readable (s : String) : String :=
  .ofList (Text.decodeAll (s.toList.map fun c => c.toNat.toUInt8))

/-- Runs a command on an empty input, and gives its exit status and its output. -/
def runCommand (command : String) : Nat × String :=
  let (s, p) := start calls shellName ["-c", bytes command] {}
  (s.status, readable (p.on 1))

end Cadence.Shell
