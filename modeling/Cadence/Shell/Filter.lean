import Cadence.Shell.Builtin
import Cadence.Shell.Regex

/-!
Programs that read lines and print some of them, or what they have made of them.
-/

namespace Cadence.Shell

namespace Filter

open Builtin (done)

def unlines (ls : List String) : String := String.join (ls.map (· ++ "\n"))

/-- The lines of a text; the last one need not be ended. -/
def linesIn (text : String) : List String :=
  let parts := text.splitOn "\n"
  if parts.getLast? = some "" then parts.dropLast else parts

/-- The files by their names, those that are there, or the input if none is named. -/
def sources (s : State) (paths : List String) : State × List (String × String) :=
  if paths.isEmpty then ({ s with input := "" }, [("-", s.input)])
  else paths.foldl (fun (s, found) path =>
    if path = "-" then ({ s with input := "" }, found ++ [("-", s.input)])
    else (s, found ++ ((s.contents? path).map fun text => (path, text)).toList)) (s, [])

def linesOf (s : State) (paths : List String) : State × List String :=
  let (s, texts) := sources s paths
  (s, texts.flatMap fun (_, text) => linesIn text)

def isOption (w : String) : Bool := w.startsWith "-" && w != "-"

/-- The letters of all options, and the other words. -/
def split (words : List String) : List Char × List String :=
  ((words.filter isOption).flatMap fun w => w.toList.drop 1, words.filter (!isOption ·))

/-- Letters in front of words, each with its argument if it takes one. -/
def options (taking : List Char) : Nat → List String → List (Char × String) × List String
  | 0, words => ([], words)
  | _, [] => ([], [])
  | fuel + 1, w :: ws =>
    let rec letters : List Char → List (Char × String) × List String
      | [] => options taking fuel ws
      | c :: cs =>
        if !taking.contains c then
          let (more, rest) := letters cs
          ((c, "") :: more, rest)
        else
          let (value, ws) := if cs.isEmpty then (ws.headD "", ws.drop 1) else (.ofList cs, ws)
          let (more, rest) := options taking fuel ws
          ((c, value) :: more, rest)
    if w = "--" then ([], ws)
    else if isOption w then letters (w.toList.drop 1)
    else
      let (more, rest) := options taking fuel ws
      (more, w :: rest)

/-- A share of the lines or bytes, counted from an end. -/
structure Share where
  count : Nat := 10
  sign : Option Char := none
  ofBytes : Bool := false
  paths : List String := []

def share (words : List String) : Share :=
  let words := match words with
    | w :: ws =>
      if isOption w ∧ (w.toList.drop 1).head?.any Char.isDigit then "-n" :: (w.drop 1).toString :: ws
      else w :: ws
    | [] => []
  let (found, paths) := options ['n', 'c'] (words.length + 1) words
  let value := (found.getLast?.map (·.2)).getD "10"
  let sign := value.toList.head?.filter fun c => c = '+' || c = '-'
  let digits := if sign.isSome then (value.drop 1).toString else value
  { count := digits.toNat?.getD 10, sign, ofBytes := (found.getLast?.map (·.1)) = some 'c', paths }

/-- Prints a part of the lines, or of the bytes. -/
def part (take : {α : Type} → Share → List α → List α) : Builtin := fun s words =>
  let share := share words
  let (s, texts) := sources s share.paths
  let text := String.join (texts.map (·.2))
  done s 0 (if share.ofBytes then .ofList (take share text.toList)
    else
      let parts := (text.splitOn "\n")
      let lines := parts.dropLast.map (· ++ "\n") ++ parts.getLast?.toList.filter (· != "")
      String.join (take share lines))

def head : Builtin := part fun share xs =>
  if share.sign = some '-' then xs.take (xs.length - share.count) else xs.take share.count

def tail : Builtin := part fun share xs =>
  if share.sign = some '+' then xs.drop (share.count - 1) else xs.drop (xs.length - share.count)

def leadingNumber (w : String) : Int :=
  let cs := w.toList.dropWhile Sum.isBlank
  let (isNegative, cs) := match cs with
    | '-' :: cs => (true, cs)
    | cs => (false, cs)
  let n : Int := (Format.natural (cs.takeWhile Char.isDigit) : Nat)
  if isNegative then -n else n

def sort : Builtin := fun s words =>
  let (letters, paths) := split words
  let (s, ls) := linesOf s paths
  let byNumber := letters.contains 'n'
  let isSame (a b : String) : Bool :=
    if byNumber then leadingNumber a == leadingNumber b else a == b
  let isBefore (a b : String) : Bool :=
    if byNumber ∧ !isSame a b then leadingNumber a < leadingNumber b else a ≤ b
  let ls := ls.mergeSort isBefore
  let ls := if letters.contains 'u' then (ls.splitBy isSame).filterMap List.head? else ls
  done s 0 (unlines (if letters.contains 'r' then ls.reverse else ls))

def uniq : Builtin := fun s words =>
  let (letters, paths) := split words
  let (s, ls) := linesOf s paths
  let runs := (ls.splitBy (· == ·)).filter fun run =>
    (!letters.contains 'd' || 1 < run.length) && (!letters.contains 'u' || run.length = 1)
  done s 0 (unlines (runs.map fun run =>
    let count := toString run.length
    let blanks : String := .ofList (List.replicate (7 - count.length) ' ')
    (if letters.contains 'c' then blanks ++ count ++ " " else "") ++ run.headD ""))

/-- Counts of lines, words and bytes. Several counts stand in columns. -/
def wc : Builtin := fun s words =>
  let (letters, paths) := split words
  let (s, texts) := sources s paths
  let counts (text : String) : List Nat :=
    let wanted := if letters.isEmpty then ['l', 'w', 'c'] else letters
    let words := (text.toList.splitBy fun a b => isSpace a == isSpace b).filter fun cs =>
      cs.head?.any fun c => !isSpace c
    [('l', (text.toList.filter (· = '\n')).length), ('w', words.length), ('m', text.length),
      ('c', text.length)].filterMap fun (c, n) => if wanted.contains c then some n else none
  let rows := texts.map fun (path, text) => (counts text, path)
  let total := rows.foldl (fun sum row =>
    if sum.isEmpty then row.1 else sum.zipWith (· + ·) row.1) []
  let rows := if 1 < rows.length then rows ++ [(total, "total")] else rows
  let width := if paths.isEmpty then (if total.length = 1 then 1 else 7)
    else total.foldl (fun w n => max w (toString n).length) 1
  let cell (n : Nat) : String :=
    let digits := toString n
    .ofList (List.replicate (width - digits.length) ' ') ++ digits
  done s 0 (unlines (rows.map fun (ns, path) =>
    " ".intercalate (ns.map cell) ++ if path = "-" then "" else " " ++ path))
where
  isSpace (c : Char) : Bool := c = ' ' || ('\t' ≤ c && c ≤ '\x0d')

def everything : List Char := (List.range 256).map Char.ofNat

/-- The characters of a set, with ranges and classes spelled out. -/
def members : Nat → List Char → List Char
  | 0, _ => []
  | _, [] => []
  | fuel + 1, '[' :: ':' :: cs =>
    let name := cs.takeWhile (· != ':')
    match Pattern.classes.lookup (.ofList name), (cs.drop name.length).take 2 with
    | some rs, [':', ']'] =>
      everything.filter (fun c => rs.any fun (low, high) => low ≤ c && c ≤ high) ++
        members fuel (cs.drop (name.length + 2))
    | _, _ => '[' :: members fuel (':' :: cs)
  | fuel + 1, cs =>
    let (c, rest) := character cs
    match rest with
    | '-' :: d :: more =>
      let (high, more) := character (d :: more)
      everything.filter (fun d => c ≤ d && d ≤ high) ++ members fuel more
    | rest => c :: members fuel rest
where
  character : List Char → Char × List Char
    | '\\' :: cs => (Format.escape cs).getD (cs.headD '\\', cs.drop 1)
    | c :: cs => (c, cs)
    | [] => (' ', [])

/-- Puts characters in the place of others, or leaves them out, and joins repeated ones. -/
def tr : Builtin := fun s words =>
  let (letters, sets) := split words
  let set (w : String) : List Char := members (w.length + 1) w.toList
  let first := set (sets.headD "")
  let first := if letters.contains 'c' || letters.contains 'C' then
      everything.filter (!first.contains ·)
    else first
  let second := set (sets.getD 1 "")
  let isDeleting := letters.contains 'd'
  let replaced (c : Char) : Char :=
    if isDeleting || second.isEmpty then c
    else match first.reverse.idxOf? c with
      | some i => second.getD (first.length - 1 - i) (second.getLast?.getD c)
      | none => c
  let joined := if letters.contains 's' then (if second.isEmpty then first else second) else []
  let cs := s.input.toList.filter fun c => !(isDeleting && first.contains c)
  let cs := cs.map replaced
  let cs := (cs.splitBy fun a b => a == b && joined.contains a).flatMap fun run =>
    if run.head?.any joined.contains then run.take 1 else run
  if sets.isEmpty ∨ (sets.length = 1 ∧ !isDeleting ∧ !letters.contains 's') then
    (s.ends 1, { err := "tr: missing operand\n" })
  else done { s with input := "" } 0 (.ofList cs)

/-- The columns that a list names, as bounds from 1; an open end has none. -/
def columns (list : String) : List (Nat × Option Nat) :=
  (list.splitOn ",").map fun part =>
    match part.splitOn "-" with
    | [n] => (n.toNat?.getD 1, some (n.toNat?.getD 1))
    | a :: b :: _ => (a.toNat?.getD 1, b.toNat?)
    | [] => (1, none)

def cut : Builtin := fun s words =>
  let (found, paths) := options ['d', 'f', 'c', 'b'] (words.length + 1) words
  let (s, ls) := linesOf s paths
  let kept {α : Type} (list : String) (xs : List α) : List α :=
    (xs.zipIdx 1).filterMap fun (x, i) =>
      if (columns list).any fun (low, high) => low ≤ i && high.all (i ≤ ·) then some x else none
  match found.lookup 'f', found.lookup 'c' <|> found.lookup 'b' with
  | some list, _ =>
    let mark := (found.lookup 'd').getD "\t"
    done s 0 (unlines (ls.filterMap fun l =>
      let fields := l.splitOn mark
      if fields.length = 1 then (if (found.lookup 's').isSome then none else some l)
      else some (mark.intercalate (kept list fields))))
  | none, some list => done s 0 (unlines (ls.map fun l => .ofList (kept list l.toList)))
  | none, none => (s.ends 1, { err := "cut: you must specify a list\n" })

/-- Prints the lines in which one of the patterns is found, or counts them. -/
def grep (isExtended isFixed : Bool) : Builtin := fun s words =>
  let (found, rest) := options ['e', 'm'] (words.length + 1) words
  let has (c : Char) : Bool := (found.lookup c).isSome
  let given := found.filterMap fun (c, value) => if c = 'e' then some value else none
  let (given, paths) := if given.isEmpty then (rest.take 1, rest.drop 1) else (given, rest)
  let patterns := given.flatMap fun p => p.splitOn "\n"
  let isFolding := has 'i'
  match patterns.mapM fun p =>
      if isFixed || has 'F' then some (Regex.ofText p.toList)
      else Regex.read? (isExtended || has 'E') p.toList with
  | none => (s.ends 2, { err := "grep: Invalid regular expression\n" })
  | some rs =>
    if given.isEmpty then (s.ends 2, { err := "Usage: grep [OPTION]... PATTERNS [FILE]...\n" })
    else
    let (s, texts) := sources s paths
    let fits (l : String) : Bool := rs.any fun r =>
      if has 'x' then
        (Regex.find? isFolding (.sequence .start (.sequence r .finish)) true l.toList).isSome
      else (Regex.find? isFolding r true l.toList).isSome
    let mark (path : String) : String := if 1 < paths.length then path ++ ":" else ""
    let outs := texts.map fun (path, text) =>
      let chosen := ((linesIn text).zipIdx 1).filter fun (l : String × Nat) => fits l.1 != has 'v'
      let most := (found.lookup 'm').bind (·.toNat?)
      let chosen : List (String × Nat) := most.elim chosen fun n => chosen.take n
      let out :=
        if has 'q' then ""
        else if has 'c' then mark path ++ toString chosen.length ++ "\n"
        else if has 'l' then (if chosen.isEmpty then "" else path ++ "\n")
        else unlines (chosen.flatMap fun ((l, i) : String × Nat) =>
          let front := mark path ++ if has 'n' then toString i ++ ":" else ""
          if has 'o' then (rs.head?.elim [] fun r => pieces isFolding r l).map (front ++ ·)
          else [front ++ l])
      (out, !chosen.isEmpty)
    let isMissing := paths.any fun p => p != "-" && (s.contents? p).isNone
    let status := if outs.any (·.2) && (has 'q' || !isMissing) then 0 else if isMissing then 2 else 1
    done s status (String.join (outs.map (·.1)))
where
  /-- All matches in a line that are not empty. -/
  pieces (isFolding : Bool) (r : Regex) (l : String) : List String :=
    let rec go : Nat → Bool → List Char → List String
      | 0, _, _ => []
      | fuel + 1, isStart, cs =>
        match Regex.find? isFolding r isStart cs with
        | none => []
        | some f =>
          if f.text.isEmpty then
            if cs.isEmpty then [] else go fuel false (cs.drop (f.before.length + 1))
          else .ofList f.text :: go fuel false f.place.rest
    go (l.length + 2) true l.toList

def tac : Builtin := fun s words =>
  let (s, ls) := linesOf s (split words).2
  done s 0 (unlines ls.reverse)

def rev : Builtin := fun s words =>
  let (s, ls) := linesOf s (split words).2
  done s 0 (unlines (ls.map fun l => .ofList l.toList.reverse))

end Filter

end Cadence.Shell
