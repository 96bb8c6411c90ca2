/-!
Readers take what they recognise off the front of a text and leave the rest, or refuse. The
readers here are the small ones that the rest of the language is spelled with.
-/

namespace Cadence.Toml

abbrev Reader := StateT (List Char) Option

namespace Reader

variable {α : Type}

def refuse : Reader α := fun _ => none

def rest : Reader (List Char) := get

def atEnd : Reader Bool := return (← rest).isEmpty

/-- Takes the given characters if the text starts with them. -/
def accept (word : List Char) : Reader Bool := fun cs =>
  if word.isPrefixOf cs then some (true, cs.drop word.length) else some (false, cs)

def expect (word : List Char) : Reader Unit := do
  if !(← accept word) then refuse

/-- Takes characters as long as they pass. -/
def takeWhile (ok : Char → Bool) : Reader (List Char) := fun cs =>
  some (cs.takeWhile ok, cs.dropWhile ok)

def takeWhile1 (ok : Char → Bool) : Reader (List Char) := do
  let taken ← takeWhile ok
  if taken.isEmpty then refuse else return taken

/-- Takes exactly `n` characters, all of which pass. -/
def takeExactly (n : Nat) (ok : Char → Bool) : Reader (List Char) := fun cs =>
  let taken := cs.take n
  if taken.length = n ∧ taken.all ok then some (taken, cs.drop n) else none

/-- Reads a whole text and nothing less. -/
def whole? (r : Reader α) (cs : List Char) : Option α :=
  match r cs with
  | some (a, []) => some a
  | _ => none

end Reader

/-- A character that may stand as it is in comments and strings. -/
def isPlain (c : Char) : Bool := c == '\t' || (' ' ≤ c && c != '\x7f')

def isBlank (c : Char) : Bool := c == ' ' || c == '\t'

def skipBlanks : Reader Unit := do
  discard (Reader.takeWhile isBlank)

/-- A line feed, with or without a carriage return before it. -/
def acceptNewline : Reader Bool := do
  if ← Reader.accept ['\n'] then return true
  Reader.accept ['\r', '\n']

/-- Skips blanks, newlines and comments, which run to the end of their line. -/
def skipTrivia : Reader Unit := fun cs => go false cs
where
  go : Bool → List Char → Option (Unit × List Char)
    | _, [] => some ((), [])
    | _, '\n' :: r => go false r
    | _, '\r' :: '\n' :: r => go false r
    | true, c :: r => if isPlain c then go true r else none
    | false, c :: r =>
      if c = '#' then go true r
      else if isBlank c then go false r
      else some ((), c :: r)

/-- Nothing but a comment may follow up to the end of the line. -/
def endLine : Reader Unit := do
  skipBlanks
  if ← Reader.accept ['#'] then discard (Reader.takeWhile isPlain)
  if !(← Reader.atEnd) && !(← acceptNewline) then Reader.refuse

end Cadence.Toml
