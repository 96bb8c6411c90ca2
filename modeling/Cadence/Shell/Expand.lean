import Cadence.Shell.Arithmetic
import Cadence.Shell.Glob

/-!
What words become when a command runs: parameters get their values, commands in them their output, and
what was not quoted falls apart into fields. Whatever cannot be worked out ends the shell with a
message.
-/

namespace Cadence.Shell

/-- A character of an expanded word, or what separates some. -/
inductive Bit where
  | fixed (c : Char)
  | plain (c : Char)
  | soft (c : Char)
  /-- Quotes stood here, so that there is a field, be it empty. -/
  | mark
  | cut

abbrev Expansion := StateT State (Except String)

/-- How the output of a command is found, which leaves the shell with its status. -/
abbrev Capture := State → List Char → State × String

namespace Expand

def fail {α : Type} (message : String) : Expansion α := throw message

def softBits (isQuoted : Bool) (s : String) : List Bit :=
  s.toList.map (if isQuoted then .fixed else .soft)

/-- All arguments. Inside quotes those of the first kind stay apart. -/
def arguments (s : State) (name : String) (isQuoted : Bool) : List Bit :=
  let parts := s.arguments.map (softBits isQuoted)
  if name = "*" ∧ isQuoted then
    let glue := (s.splitters.take 1).map Bit.fixed
    .mark :: (parts.intersperse glue).flatten
  else
    let parts := if isQuoted then parts.map (.mark :: ·) else parts
    (parts.intersperse [.cut]).flatten

/-- Bits as one text, for places where there are no fields. -/
def text (bits : List Bit) : List Char :=
  bits.filterMap fun
    | .fixed c | .plain c | .soft c => some c
    | .cut => some ' '
    | .mark => none

def pattern (bits : List Bit) : Pattern :=
  .ofChars (bits.filterMap fun
    | .fixed c => some (c, false)
    | .plain c | .soft c => some (c, true)
    | .cut => some (' ', false)
    | .mark => none)

/-- Fields as they come about: those that are done, the latest first, and the one that is open. -/
structure Fields where
  done : List Field := []
  current : Option Field := none
  /-- Blanks have just ended a field, and a splitter behind them ends no other. -/
  afterBlank : Bool := false

namespace Fields

def close (f : Fields) : Fields :=
  match f.current with
  | some cs => { done := cs.reverse :: f.done }
  | none => { f with afterBlank := false }

def push (f : Fields) (c : Char) (isActive : Bool) : Fields :=
  { f with current := some ((c, isActive) :: f.current.getD []), afterBlank := false }

def add (splitters : List Char) (f : Fields) : Bit → Fields
  | .fixed c => f.push c false
  | .plain c => f.push c true
  | .mark => { f with current := some (f.current.getD []), afterBlank := false }
  | .cut => f.close
  | .soft c =>
    if !splitters.contains c then f.push c true
    else if Sum.isBlank c then
      if f.current.isSome then { f.close with afterBlank := true } else f
    else if f.afterBlank then { f with afterBlank := false }
    else { done := (f.current.getD []).reverse :: f.done }

def ofBits (splitters : List Char) (bits : List Bit) : List Field :=
  (bits.foldl (add splitters) {}).close.done.reverse

end Fields

/-- An output without the newlines at its end, and without zeros. -/
def trimmed (text : String) : String :=
  .ofList ((text.toList.filter (· != '\x00')).reverse.dropWhile (· = '\n')).reverse

section

variable (capture : Capture)

section

/- How a text that stands inside a word is expanded, if it makes sense. -/
variable (inner : Option Word.Mark → List Char → Expansion (Option (List Bit)))

def parameter (name : String) (change : List Char) (isQuoted : Bool) : Expansion (List Bit) := do
  let s ← get
  let value := s.value? name
  let plainly : Expansion (List Bit) :=
    if name = "@" ∨ name = "*" then return arguments s name isQuoted
    else match value with
      | some v => return softBits isQuoted v
      | none =>
        if s.options.contains 'u' then fail (name ++ ": parameter not set") else return []
  let instead (isQuoted : Bool) (cs : List Char) : Expansion (List Bit) := do
    let some bits ← inner (if isQuoted then some .vanishes else none) cs | fail "Syntax error"
    return bits
  /- A doubled mark asks for the longest match. -/
  let without (drop : Pattern → Bool → List Char → List Char) (mark : Char) (cs : List Char) :
      Expansion (List Bit) := do
    let isLongest := cs.head? = some mark
    let bits ← instead false (if isLongest then cs.drop 1 else cs)
    return softBits isQuoted (.ofList (drop (pattern bits) isLongest (value.getD "").toList))
  let (colon, op) := match change with
    | ':' :: r => (true, r)
    | r => (false, r)
  let isMissing := match value with
    | none => true
    | some v => colon && v = ""
  match name, colon, op with
  | "", _, _ => fail "Bad substitution"
  | _, false, [] => plainly
  | _, _, '-' :: cs => if isMissing then instead isQuoted cs else plainly
  | _, _, '+' :: cs => if isMissing then return [] else instead isQuoted cs
  | _, _, '=' :: cs =>
    if !isMissing then return ← plainly
    if !isName name.toList then fail "Bad substitution"
    let value := String.ofList (text (← instead isQuoted cs))
    set (← ((← get).set name value : Except String State))
    return softBits isQuoted value
  | _, _, '?' :: cs =>
    if !isMissing then return ← plainly
    let message := String.ofList (text (← instead isQuoted cs))
    fail (name ++ ": " ++ if message = "" then "parameter not set" else message)
  | _, false, '%' :: cs => without Pattern.dropEnd '%' cs
  | _, false, '#' :: cs => without Pattern.dropStart '#' cs
  | _, _, _ => fail "Bad substitution"

def piece (isSoft : Bool) : Piece → Expansion (List Bit)
  | .plain c => return [if isSoft then .soft c else .plain c]
  | .quoted cs => return .mark :: cs.map .fixed
  | .size name isQuoted => do
    let s ← get
    let n := ((s.value? name).getD "").length
    return softBits isQuoted (toString n)
  | .output cs isQuoted => do
    let (s, out) := capture (← get) cs
    set s
    return softBits isQuoted (trimmed out)
  | .arithmetic cs isQuoted => do
    let some bits ← inner (some .stands) cs | fail "Syntax error"
    let some sum := Sum.ofText (text bits) | fail "arithmetic expression: syntax error"
    let (s, n) ← (sum.eval (← get) : Except String _)
    set s
    return softBits isQuoted (toString n.toInt)
  | .parameter name change isQuoted => parameter inner name change isQuoted

def pieces (isSoft : Bool) (w : Word) : Expansion (List Bit) := do
  return (← w.mapM (piece capture inner isSoft)).flatten

end

/-- A tilde at the start is a home directory: that of this user, or of one who is named. -/
def homeward (s : State) (w : Word) : Word :=
  match w with
  | .plain '~' :: rest =>
    let name := rest.takeWhile (· ≠ .plain '/')
    let home := match Word.plain? name with
      | some "" => s.value? "HOME"
      | some "root" => some "/root"
      | _ => none
    home.elim w fun home => .quoted home.toList :: rest.drop name.length
  | w => w

def allHomeward (s : State) (w : Word) : Word :=
  let parts := w.splitBy fun p q => p ≠ .plain ':' && q ≠ .plain ':'
  (parts.map (homeward s)).flatten

def inner : Nat → Option Word.Mark → List Char → Expansion (Option (List Bit))
  | 0, _, _ => return none
  | fuel + 1, quoting, cs =>
    match Word.ofText quoting cs with
    | some w => do
      let s ← get
      let w := if quoting.isNone then homeward s w else w
      some <$> pieces capture (inner fuel) quoting.isNone w
    | none => return none

/-- Words inside words are not nested deeper than this. -/
def depth : Nat := 100

def bits (w : Word) : Expansion (List Bit) := do
  pieces capture (inner capture depth) false (homeward (← get) w)

/-- The fields of a word. Those that are patterns become the names of files. -/
def fields (w : Word) : Expansion (List String) := do
  let bits ← bits capture w
  let s ← get
  return (Fields.ofBits s.splitters bits).flatMap (Glob.expand s)

def allFields : List Word → Expansion (List String)
  | [] => return []
  | w :: ws => do return (← fields capture w) ++ (← allFields ws)

def whole (w : Word) : Expansion String := do return .ofList (text (← bits capture w))

/-- What is assigned, where a tilde may also follow a colon. -/
def value (w : Word) : Expansion String := do
  let bits ← pieces capture (inner capture depth) false (allHomeward (← get) w)
  return .ofList (text bits)

/-- The words of a command that takes assignments, which stay in one piece. -/
def settings : List Word → Expansion (List String)
  | [] => return []
  | w :: ws => do
    let fields ← match w.assignment? with
      | some (name, v) => pure [name ++ "=" ++ (← value capture v)]
      | none => fields capture w
    return fields ++ (← settings ws)

def command (ws : List Word) : Expansion (List String) := do
  match ws.dropWhile fun w => w.plain? = some "command" with
  | [] => allFields capture ws
  | w :: _ =>
    if w.plain?.any ["alias", "export", "local", "readonly"].contains then settings capture ws
    else allFields capture ws

end

end Expand

end Cadence.Shell
