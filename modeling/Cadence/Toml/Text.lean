import Cadence.Toml.Number
import Cadence.Toml.Reader

/-!
Strings in their four forms: quoted or literal, on one line or on several. Only quoted strings know
escapes; a string over several lines ends at three quotes, of which up to two more are content.
-/

namespace Cadence.Toml

namespace Text

/-- A character given by so many hexadecimal digits. -/
def codePoint (width : Nat) : Reader Char := do
  let code := valueOf 16 (← Reader.takeExactly width isHexDigit)
  if code.isValidChar then return Char.ofNat code else Reader.refuse

def escape : Reader Char := do
  match ← Reader.takeExactly 1 fun _ => true with
  | ['b'] => return '\x08'
  | ['t'] => return '\t'
  | ['n'] => return '\n'
  | ['f'] => return '\x0c'
  | ['r'] => return '\r'
  | ['e'] => return '\x1b'
  | ['"'] => return '"'
  | ['\\'] => return '\\'
  | ['x'] => codePoint 2
  | ['u'] => codePoint 4
  | ['U'] => codePoint 8
  | _ => Reader.refuse

/-- The rest of a quoted string on one line. -/
def quoted : Nat → Reader (List Char)
  | 0 => Reader.refuse
  | fuel + 1 => do
    let taken ← Reader.takeWhile fun c => isPlain c && c != '"' && c != '\\'
    if ← Reader.accept ['"'] then return taken
    Reader.expect ['\\']
    let c ← escape
    return taken ++ c :: (← quoted fuel)

def literal : Reader (List Char) := do
  let taken ← Reader.takeWhile fun c => isPlain c && c != '\''
  Reader.expect ['\'']
  return taken

/-- Takes a run of quotes inside a long string: the quotes that are content, and whether the run
ends the string. -/
def quoteRun (quote : Char) : Reader (List Char × Bool) := do
  let run ← Reader.takeWhile (· == quote)
  if run.length < 3 then return (run, false)
  -- quotes beyond the fifth belong to whatever follows
  let content := min (run.length - 3) 2
  modify (List.replicate (run.length - 3 - content) quote ++ ·)
  return (run.take content, true)

/-- A backslash at the end of a line joins it with the next text. -/
def acceptJoin : Reader Bool := fun cs =>
  match cs.dropWhile isBlank with
  | '\n' :: r => some (true, skip r)
  | '\r' :: '\n' :: r => some (true, skip r)
  | _ => some (false, cs)
where
  skip : List Char → List Char
    | '\n' :: r => skip r
    | '\r' :: '\n' :: r => skip r
    | c :: r => if isBlank c then skip r else c :: r
    | [] => []

/-- What ends a plain run without ending the string: a newline, or an escape where there are any. -/
def interruption (escapes : Bool) : Reader (List Char) := do
  if ← Reader.accept ['\n'] then return ['\n']
  if ← Reader.accept ['\r', '\n'] then return ['\r', '\n']
  if !escapes then Reader.refuse
  Reader.expect ['\\']
  if ← acceptJoin then return []
  return [← escape]

/-- The rest of a string over several lines, after its first newline. -/
def long (quote : Char) (escapes : Bool) : Nat → Reader (List Char)
  | 0 => Reader.refuse
  | fuel + 1 => do
    let taken ← Reader.takeWhile fun c => isPlain c && c != quote && !(escapes && c == '\\')
    let (quotes, closed) ← quoteRun quote
    if closed then return taken ++ quotes
    let more ← if quotes.isEmpty then interruption escapes else pure quotes
    return taken ++ more ++ (← long quote escapes fuel)

/-- A string on one line, if the text starts with one. -/
def short? : Reader (Option (List Char)) := do
  if ← Reader.accept ['"'] then return some (← quoted ((← Reader.rest).length + 1))
  if ← Reader.accept ['\''] then return some (← literal)
  return none

/-- A string of any form, if the text starts with one. -/
def any? : Reader (Option (List Char)) := do
  for quote in ['"', '\''] do
    if ← Reader.accept [quote, quote, quote] then
      discard acceptNewline
      return some (← long quote (quote == '"') ((← Reader.rest).length + 1))
  short?

end Text

end Cadence.Toml
