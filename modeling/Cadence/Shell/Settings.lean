import Cadence.Shell.State

/-!
Options that words turn on and off, when a shell starts and later when it is told to. Each has a letter
or is only known by its name; words that name none are left.
-/

namespace Cadence.Shell

/-- Options that have been turned on and off by words so far. -/
structure Settings where
  on : List Char := []
  off : List Char := []

namespace Settings

def names : List (String × Option Char) := [("errexit", some 'e'), ("noglob", some 'f'),
  ("ignoreeof", some 'I'), ("interactive", some 'i'), ("monitor", some 'm'), ("noexec", some 'n'),
  ("stdin", some 's'), ("xtrace", some 'x'), ("verbose", some 'v'), ("vi", some 'V'),
  ("emacs", some 'E'), ("noclobber", some 'C'), ("allexport", some 'a'), ("notify", some 'b'),
  ("nounset", some 'u'), ("privileged", some 'p'), ("nolog", none), ("debug", none)]

def turn (isOn : Bool) (c : Char) (o : Settings) : Settings :=
  let others : Settings := { on := o.on.filter (· != c), off := o.off.filter (· != c) }
  if isOn then { others with on := others.on ++ [c] } else { others with off := others.off ++ [c] }

/-- What is on where these options were on before. -/
def applied (o : Settings) (before : List Char) : List Char :=
  before.filter (fun c => !o.on.contains c && !o.off.contains c) ++ o.on

/-- A reading of words, from the words that are left. -/
structure Reading where
  settings : Settings := {}
  rest : List String
  /-- There is a letter that asks for a command. -/
  takesCommand : Bool := false
  isClosed : Bool := false
  shown : String := ""
  complaint : Option String := none

section

/- Whether this is the start of a shell, when nothing counts as off that has not been turned off. -/
variable (isStart : Bool) (before : List Char)

/-- All options, for a reader or as the commands that make them so. -/
def listed (o : Settings) (isPlain : Bool) : String :=
  let now := o.applied before
  let line (name : String) (letter : Option Char) : String :=
    let isOn := if isStart then !letter.any o.off.contains else letter.any now.contains
    if isPlain then
      name ++ .ofList (List.replicate (16 - name.length) ' ') ++ (if isOn then "on" else "off") ++ "\n"
    else "set " ++ (if isOn then "-o " else "+o ") ++ name ++ "\n"
  (if isPlain then "Current option settings\n" else "") ++
    String.join (names.map fun (name, letter) => line name letter)

/-- The letters of one word; some take the next word for a name. -/
def letters (isOn : Bool) : List Char → Reading → Reading
  | [], r => r
  | c :: cs, r =>
    if c = 'c' ∧ isStart then letters isOn cs { r with takesCommand := true }
    else if c = 'l' ∧ isStart then letters isOn cs r
    else if c = 'o' then
      match r.rest with
      | [] => letters isOn cs { r with shown := r.shown ++ listed isStart before r.settings isOn }
      | name :: rest =>
        match names.lookup name with
        | some letter =>
          let settings := letter.elim r.settings fun c => r.settings.turn isOn c
          letters isOn cs { r with rest, settings }
        | none => { r with complaint := some ("Illegal option -o " ++ name) }
    else if names.any fun option => option.2 == some c then
      letters isOn cs { r with settings := r.settings.turn isOn c }
    else { r with complaint := some ("Illegal option -" ++ c.toString) }

def readFrom : Nat → Reading → Reading
  | 0, r => r
  | fuel + 1, r =>
    let go (isOn : Bool) (cs : List Char) (rest : List String) : Reading :=
      let r := letters isStart before isOn cs { r with rest }
      if r.complaint.isSome then r else readFrom fuel r
    match r.rest with
    | [] => r
    | "-" :: rest => { r with rest }
    | "--" :: rest => { r with rest, isClosed := true }
    | w :: rest =>
      match w.toList with
      | '-' :: cs => go true cs rest
      | '+' :: cs => go false cs rest
      | _ => r

def read (words : List String) : Reading :=
  readFrom isStart before (words.length + 1) { rest := words }

end

end Settings

end Cadence.Shell
