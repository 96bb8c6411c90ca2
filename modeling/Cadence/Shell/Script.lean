import Cadence.Shell.Token

/-!
Shell texts as trees: commands, joined by pipes, by their success or by mere order, grouped, chosen and
repeated. A text is read line by line, and what stands before a line that makes no sense still runs.
-/

namespace Cadence.Shell

inductive Script where
  | nothing
  | command (words : List Word) (redirects : List Redirect)
  | group (isSeparate : Bool) (body : Script)
  | directed (body : Script) (redirects : List Redirect)
  | pipe (a b : Script)
  | negated (a : Script)
  | both (a b : Script)
  | either (a b : Script)
  | next (a b : Script)
  | background (a : Script)
  | choice (condition yes no : Script)
  | repeated (isUntil : Bool) (condition body : Script)
  /-- The body for each field of the words, or for each argument. -/
  | forEach (name : String) (words : Option (List Word)) (body : Script)
  | cases (subject : Word) (branches : Script)
  | branch (patterns : List Word) (body rest : Script)
  | function (name : String) (body : Script)

namespace Script

/-- Commands whose mistakes end the shell, and whose names no function has. -/
def specials : List String := [":", ".", "break", "continue", "eval", "exec", "exit", "export",
  "readonly", "return", "set", "shift", "times", "trap", "unset"]

abbrev Parser := StateT (List Token) Option

namespace Parser

def refuse {α : Type} : Parser α := fun _ => none

def peek : Parser (Option Token) := return (← get).head?

def accept (t : Token) : Parser Bool := fun ts =>
  if ts.head? = some t then some (true, ts.drop 1) else some (false, ts)

def expect (t : Token) : Parser Unit := do
  if !(← accept t) then refuse

def skipNewlines : Parser Unit := modify (·.dropWhile (· = .newline))

/-- The word that comes next, if it is plain. -/
def peekPlain : Parser (Option String) := do
  match ← peek with
  | some (.word w) => return w.plain?
  | _ => return none

def plainWord (s : String) : Token := .word (s.toList.map .plain)

def acceptKeyword (s : String) : Parser Bool := accept (plainWord s)

def expectKeyword (s : String) : Parser Unit := expect (plainWord s)

def closers : List String := ["then", "else", "elif", "fi", "do", "done", "esac", "\x7d"]

def misplaced : List String := "!" :: "in" :: closers

def endsList : Parser Bool := do
  match ← peek with
  | none | some (.operator .leave) | some (.operator .endsBranch) => return true
  | _ => return (← peekPlain).any (closers.contains ·)

def simple : Parser (List Word × List Redirect) := fun ts => some (go ts)
where
  go : List Token → (List Word × List Redirect) × List Token
    | .word w :: ts => let ((ws, rs), rest) := go ts; ((w :: ws, rs), rest)
    | .redirect r :: ts => let ((ws, rs), rest) := go ts; ((ws, r :: rs), rest)
    | ts => (([], []), ts)

def redirects : Parser (List Redirect) := do
  let ([], rs) ← simple | refuse
  return rs

def patterns : Nat → Parser (List Word)
  | 0 => refuse
  | fuel + 1 => do
    let some (.word w) ← peek | refuse
    modify (·.drop 1)
    if ← accept (.operator .pipe) then return w :: (← patterns fuel)
    return [w]

/-- What follows a command, and whether another one may. -/
def separated (a : Script) : Parser (Script × Bool) := do
  if ← accept (.operator .background) then return (.background a, true)
  if ← accept (.operator .next) then return (a, true)
  return (a, ← accept .newline)

mutual

def list : Nat → Parser Script
  | 0 => refuse
  | fuel + 1 => do
    skipNewlines
    let a ← chain fuel
    let (a, goesOn) ← separated a
    if !goesOn then return a
    skipNewlines
    if ← endsList then return a
    return .next a (← list fuel)

def line : Nat → Parser Script
  | 0 => refuse
  | fuel + 1 => do
    let a ← chain fuel
    if ← accept .newline then return a
    let (a, goesOn) ← separated a
    if (← get).isEmpty then return a
    if !goesOn then refuse
    if ← accept .newline then return a
    return .next a (← line fuel)

/-- Commands joined by success or failure, from the left. -/
def chain : Nat → Parser Script
  | 0 => refuse
  | fuel + 1 => do joined fuel (← pipeline fuel)

def joined : Nat → Script → Parser Script
  | 0, _ => refuse
  | fuel + 1, a => do
    if ← accept (.operator .both) then
      skipNewlines
      joined fuel (.both a (← pipeline fuel))
    else if ← accept (.operator .either) then
      skipNewlines
      joined fuel (.either a (← pipeline fuel))
    else return a

def pipeline : Nat → Parser Script
  | 0 => refuse
  | fuel + 1 => do
    if ← acceptKeyword "!" then return .negated (← piped fuel)
    piped fuel

def piped : Nat → Parser Script
  | 0 => refuse
  | fuel + 1 => do
    let a ← command fuel
    if ← accept (.operator .pipe) then
      skipNewlines
      return .pipe a (← piped fuel)
    return a

def command : Nat → Parser Script
  | 0 => refuse
  | fuel + 1 => do
    if ← accept (.operator .enter) then
      let body ← list fuel
      expect (.operator .leave)
      return .directed (.group true body) (← redirects)
    let some keyword ← peekPlain | plainCommand fuel
    match keyword with
    | "\x7b" =>
      expectKeyword keyword
      let body ← list fuel
      expectKeyword "\x7d"
      return .directed (.group false body) (← redirects)
    | "if" =>
      expectKeyword keyword
      let script ← choice fuel
      return .directed script (← redirects)
    | "while" | "until" =>
      expectKeyword keyword
      let condition ← list fuel
      let body ← block fuel
      return .directed (.repeated (keyword == "until") condition body) (← redirects)
    | "for" =>
      expectKeyword keyword
      let some name ← peekPlain | refuse
      if !isName name.toList then refuse
      modify (·.drop 1)
      skipNewlines
      let words ← if ← acceptKeyword "in" then
          let (ws, []) ← simple | refuse
          if !(← accept (.operator .next)) then expect .newline
          pure (some ws)
        else
          discard (accept (.operator .next))
          pure none
      skipNewlines
      return .directed (.forEach name words (← block fuel)) (← redirects)
    | "case" =>
      expectKeyword keyword
      let some (.word subject) ← peek | refuse
      modify (·.drop 1)
      skipNewlines
      expectKeyword "in"
      return .directed (.cases subject (← branches fuel)) (← redirects)
    | _ => if misplaced.contains keyword then refuse else plainCommand fuel

/-- A command of words, or a name for one that comes later. -/
def plainCommand : Nat → Parser Script
  | 0 => refuse
  | fuel + 1 => do
    match ← get with
    | .word w :: .operator .enter :: .operator .leave :: ts =>
      let some name := w.plain? | refuse
      if !isName name.toList || specials.contains name then refuse
      set ts
      skipNewlines
      return .function name (← command fuel)
    | _ =>
      match ← simple with
      | ([], []) => refuse
      | (ws, rs) => return .command ws rs

def block : Nat → Parser Script
  | 0 => refuse
  | fuel + 1 => do
    expectKeyword "do"
    let body ← list fuel
    expectKeyword "done"
    return body

/-- From a condition to the end of the whole choice. -/
def choice : Nat → Parser Script
  | 0 => refuse
  | fuel + 1 => do
    let condition ← list fuel
    expectKeyword "then"
    let yes ← list fuel
    if ← acceptKeyword "elif" then return .choice condition yes (← choice fuel)
    if ← acceptKeyword "else" then
      let no ← list fuel
      expectKeyword "fi"
      return .choice condition yes no
    expectKeyword "fi"
    return .choice condition yes .nothing

def branches : Nat → Parser Script
  | 0 => refuse
  | fuel + 1 => do
    skipNewlines
    if ← acceptKeyword "esac" then return .nothing
    discard (accept (.operator .enter))
    let ps ← patterns fuel
    expect (.operator .leave)
    skipNewlines
    let body ← if ← endsList then pure .nothing else list fuel
    if ← accept (.operator .endsBranch) then return .branch ps body (← branches fuel)
    expectKeyword "esac"
    return .branch ps body .nothing

end

/-- Lines up to the end, or up to one that makes no sense. -/
def lines : Nat → List Token → List Script × Bool
  | 0, _ => ([], false)
  | fuel + 1, ts =>
    match ts.dropWhile (· = .newline) with
    | [] => ([], true)
    | ts =>
      match line fuel ts with
      | none => ([], false)
      | some (script, rest) => let (more, isWhole) := lines fuel rest; (script :: more, isWhole)

end Parser

/-- The lines of a text, and whether those are all. No tree takes more than a few calls a token. -/
def ofText (text : List Char) : List Script × Bool :=
  let ts := Token.ofText text
  Parser.lines (ts.length * 10 + 10) ts

end Script

end Cadence.Shell
