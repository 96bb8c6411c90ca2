import Cadence.Shell.Filter

/-!
An editor that goes through an input line by line. Each command of its script may have an address,
which says on which lines it runs.
-/

namespace Cadence.Shell

namespace Edit

inductive Address where
  | line (n : Nat)
  | last
  | found (r : Regex)

/-- What stands for a match: characters, the whole of it, or one of its groups. -/
inductive Part where
  | char (c : Char)
  | group (n : Nat)
  deriving DecidableEq

structure Choice where
  first : Nat := 1
  isAll : Bool := false
  prints : Bool := false
  isFolding : Bool := false

inductive Action where
  | replace (r : Regex) (parts : List Part) (choice : Choice)
  | exchange (olds news : List Char)
  | print
  | delete
  | quit
  | number

structure Command where
  first : Option Address := none
  last : Option Address := none
  isNegated : Bool := false
  action : Action

/-- Up to a mark without a backslash in front. One with a backslash is the mark itself. -/
def upTo (mark : Char) : List Char → Option (List Char × List Char)
  | [] => none
  | '\\' :: c :: cs =>
    (upTo mark cs).map fun (text, rest) =>
      (if c = mark then c :: text else '\\' :: c :: text, rest)
  | c :: cs =>
    if c = mark then some ([], cs)
    else (upTo mark cs).map fun (text, rest) => (c :: text, rest)

def parts : List Char → List Part
  | '\\' :: c :: cs =>
    (if c.isDigit then .group (c.toNat - '0'.toNat)
      else if c = 'n' then .char '\n'
      else if c = 't' then .char '\t'
      else .char c) :: parts cs
  | '&' :: cs => .group 0 :: parts cs
  | c :: cs => .char c :: parts cs
  | [] => []

/-- An address in front of a command, if there is one. -/
def address? (isExtended : Bool) (cs : List Char) : Option (Option Address × List Char) :=
  match cs with
  | '$' :: cs => some (some .last, cs)
  | '/' :: cs => do
    let (text, rest) ← upTo '/' cs
    return (some (.found (← Regex.read? isExtended text)), rest)
  | cs =>
    let digits := cs.takeWhile Char.isDigit
    if digits.isEmpty then some (none, cs)
    else some (some (.line (Format.natural digits)), cs.drop digits.length)

def isBlank (c : Char) : Bool := c = ' ' || c = '\t'

def choice : List Char → Choice → Choice × List Char
  | 'g' :: cs, c => choice cs { c with isAll := true }
  | 'p' :: cs, c => choice cs { c with prints := true }
  | 'i' :: cs, c | 'I' :: cs, c => choice cs { c with isFolding := true }
  | d :: cs, c =>
    if d.isDigit then choice cs { c with first := d.toNat - '0'.toNat } else (c, d :: cs)
  | [], c => (c, [])

def action? (isExtended : Bool) (cs : List Char) : Option (Action × List Char) :=
  match cs with
  | 'p' :: cs => some (.print, cs)
  | 'd' :: cs => some (.delete, cs)
  | 'q' :: cs => some (.quit, cs)
  | '=' :: cs => some (.number, cs)
  | 's' :: mark :: cs => do
    let (old, cs) ← upTo mark cs
    let (new, cs) ← upTo mark cs
    let (choice, cs) := choice cs {}
    return (.replace (← Regex.read? isExtended old) (parts new) choice, cs)
  | 'y' :: mark :: cs => do
    let (old, cs) ← upTo mark cs
    let (new, cs) ← upTo mark cs
    guard (old.length = new.length)
    return (.exchange old new, cs)
  | _ => none

def commands (isExtended : Bool) : Nat → List Char → Option (List Command)
  | 0, _ => none
  | fuel + 1, cs => do
    match cs.dropWhile fun c => isBlank c || c = '\n' || c = ';' with
    | [] => return []
    | cs =>
      let (first, cs) ← address? isExtended cs
      let (last, cs) ← match cs with
        | ',' :: cs => address? isExtended cs
        | cs => some (none, cs)
      let cs := cs.dropWhile isBlank
      let isNegated := cs.head? = some '!'
      let (action, cs) ← action? isExtended (if isNegated then cs.drop 1 else cs)
      let rest := cs.dropWhile isBlank
      guard (rest.isEmpty || rest.head? = some ';' || rest.head? = some '\n')
      return { first, last, isNegated, action } :: (← commands isExtended fuel rest)

def filled (f : Regex.Found) (ps : List Part) : List Char :=
  ps.flatMap fun
    | .char c => [c]
    | .group 0 => f.text
    | .group n => (f.place.groups.lookup n).getD []

/-- Replaces matches from the wanted one on, and says whether it has. Right behind a match there is no
match that is nothing. -/
def replaced (r : Regex) (ps : List Part) (choice : Choice) (isStart : Bool) :
    Nat → Nat → Bool → List Char → List Char × Bool
  | 0, _, _, cs => (cs, false)
  | fuel + 1, n, isBehind, cs =>
    match Regex.find? choice.isFolding r isStart cs with
    | none => (cs, false)
    | some f =>
      let counts := !(isBehind && f.before.isEmpty && f.text.isEmpty)
      let isWanted := counts && choice.first ≤ n
      let front := f.before ++ if isWanted then filled f ps else f.text
      if isWanted && !choice.isAll then (front ++ f.place.rest, true)
      else
        let (passed, rest) := if f.text.isEmpty then f.place.rest.splitAt 1 else ([], f.place.rest)
        let (more, hasChanged) :=
          if f.text.isEmpty && passed.isEmpty then ([], false)
          else replaced r ps choice false fuel (if counts then n + 1 else n) (!f.text.isEmpty) rest
        (front ++ passed ++ more, isWanted || hasChanged)

structure Pass where
  /-- For each command with two addresses, whether its first one has been met. -/
  opened : List Bool
  out : List String := []
  isOver : Bool := false

/-- Whether an address is that of a line, given as a text, its number and whether it is the last. -/
def isAt (line : List Char) (n : Nat) (isLast : Bool) : Address → Bool
  | .line m => n = m
  | .last => isLast
  | .found r => (Regex.find? false r true line).isSome

/-- Whether a command runs on a line, and whether it stays open for the next. -/
def runs (c : Command) (isOpen : Bool) (line : List Char) (n : Nat) (isLast : Bool) : Bool × Bool :=
  let (here, stays) := match c.first, c.last with
    | none, _ => (true, false)
    | some a, none => (isAt line n isLast a, false)
    | some a, some b =>
      if isOpen then (true, !isAt line n isLast b)
      else if isAt line n isLast a then
        (true, match b with
          | .line m => n < m
          | _ => !isLast)
      else (false, false)
  (here != c.isNegated, stays)

/-- What the commands make of a line: the line, if it is still there, and what they have printed. -/
structure Turn where
  line : Option (List Char)
  printed : List String := []
  isOver : Bool := false

def step (n : Nat) (isLast : Bool) (t : Turn) (c : Command) (isOpen : Bool) : Turn × Bool :=
  match t.line, t.isOver with
  | some line, false =>
    let (here, stays) := runs c isOpen line n isLast
    let say (text : String) : Turn := { t with printed := t.printed ++ [text] }
    let next : Turn :=
      if !here then t
      else match c.action with
        | .print => say (.ofList line)
        | .number => say (toString n)
        | .delete => { t with line := none }
        | .quit => { t with isOver := true }
        | .exchange old new =>
          { t with line := some (line.map fun c => ((old.idxOf? c).bind (new[·]?)).getD c) }
        | .replace r ps choice =>
          let (line, hasChanged) := replaced r ps choice true (2 * line.length + 2) 1 false line
          let t := { t with line := some line }
          if hasChanged && choice.prints then { t with printed := t.printed ++ [.ofList line] } else t
    (next, stays)
  | _, _ => (t, isOpen)

def line (isQuiet : Bool) (cs : List Command) (count : Nat) (p : Pass) (text : String) (n : Nat) :
    Pass :=
  if p.isOver then p
  else
    let (t, opened) := (cs.zip p.opened).foldl (fun (t, opened) (c, isOpen) =>
      let (t, stays) := step n (n = count) t c isOpen
      (t, opened ++ [stays])) (({ line := some text.toList } : Turn), [])
    let shown := if isQuiet then [] else t.line.toList.map String.ofList
    { opened, out := p.out ++ t.printed ++ shown, isOver := t.isOver }

/-- Runs a script on an input or on files. Where the last line of those is not ended, that of the output
is not either. -/
def sed : Builtin := fun s words =>
  let (found, rest) := Filter.options ['e'] (words.length + 1) words
  let has (c : Char) : Bool := (found.lookup c).isSome
  let scripts := found.filterMap fun (c, value) => if c = 'e' then some value else none
  let (scripts, paths) := if scripts.isEmpty then (rest.take 1, rest.drop 1) else (scripts, rest)
  let script := ("\n".intercalate scripts).toList
  match if scripts.isEmpty then none else commands (has 'E' || has 'r') (script.length + 1) script with
  | none => (s.ends 1, { err := "sed: unknown command\n" })
  | some cs =>
    let (s, texts) := Filter.sources s paths
    let text := String.join (texts.map (·.2))
    let ls := Filter.linesIn text
    let p := (ls.zipIdx 1).foldl (fun p (l, n) => line (has 'n') cs ls.length p l n)
      ({ opened := cs.map fun _ => false } : Pass)
    let out := Filter.unlines p.out
    let isEnded := text.endsWith "\n" || p.isOver
    Builtin.done s 0 (if isEnded then out else (out.dropEnd 1).toString)

end Edit

end Cadence.Shell
