import Cadence.Toml.Moment
import Cadence.Toml.Text
import Cadence.Toml.Tree

/-!
The grammar: keys, values and the three kinds of statements. Arrays and inline tables nest to a
fixed depth, and their readers count down from it.
-/

namespace Cadence.Toml

inductive Statement where
  | opens (path : List String) (key : String)
  /-- The header of the next of several tables. -/
  | appends (path : List String) (key : String)
  | assigns (path : List String) (key : String) (node : Node)

/-- Arrays and inline tables inside one another, and keys on the way to another key. -/
def maxDepth : Nat := 80

def isBareKey (c : Char) : Bool := c.isAlphanum || c == '_' || c == '-'

def simpleKey : Reader String := do
  match ← Text.short? with
  | some cs => return .ofList cs
  | none => return .ofList (← Reader.takeWhile1 isBareKey)

/-- The parts of a key after its first, each behind a dot. -/
def keyTail : Nat → Reader (List String)
  | 0 => Reader.refuse
  | fuel + 1 => do
    skipBlanks
    if !(← Reader.accept ['.']) then return []
    skipBlanks
    let part ← simpleKey
    return part :: (← keyTail fuel)

/-- A key with its path: all parts but the last. -/
def dottedKey : Reader (List String × String) := do
  skipBlanks
  let first ← simpleKey
  let parts := first :: (← keyTail ((← Reader.rest).length + 1))
  if maxDepth < parts.length then Reader.refuse
  return (parts.dropLast, parts.getLastD first)

/-- A value without quotes or brackets around it. -/
def scalar? (cs : List Char) : Option Value :=
  let spelling := String.ofList cs
  if spelling = "true" then some (.boolean true)
  else if spelling = "false" then some (.boolean false)
  else match integer? cs with
    | some n => some (.integer n)
    | none =>
      if isFloat cs then some (.float spelling)
      else if isMoment cs then some (.moment spelling)
      else if isNumberLike cs then some (.misspelled spelling)
      else none

/-- A character that ends a run of a value without quotes. -/
def endsRun (c : Char) : Bool := c ∈ " \t\r\n,[]\x7b\x7d#=".toList

/-- Runs with only blanks between them are one value, because a date and its time may be. -/
def runs : Nat → Reader (List Char)
  | 0 => Reader.refuse
  | fuel + 1 => do
    let run ← Reader.takeWhile1 (!endsRun ·)
    match (← Reader.rest).span isBlank with
    | (_ :: _, c :: _) =>
      if endsRun c || ".\"'".toList.contains c then return run
      let blanks ← Reader.takeWhile isBlank
      return run ++ blanks ++ (← runs fuel)
    | _ => return run

def scalar : Reader Value := do
  match scalar? (← runs ((← Reader.rest).length + 1)) with
  | some value => return value
  | none => Reader.refuse

/-- The items of an array, up to and with its bracket. -/
def arrayItems (item : Reader Node) : Nat → Reader (List Value)
  | 0 => Reader.refuse
  | fuel + 1 => do
    skipTrivia
    if ← Reader.accept [']'] then return []
    let value := (← item).toValue
    skipTrivia
    if ← Reader.accept [','] then
      return value :: (← arrayItems item fuel)
    Reader.expect [']']
    return [value]

/-- A key and its value, with what may stand on both sides of the equals sign. -/
def keyValue (gap : Reader Unit) (value : Reader Node) : Reader (List String × String × Node) := do
  let (path, key) ← dottedKey
  gap
  Reader.expect ['=']
  gap
  return (path, key, ← value)

/-- The entries of an inline table, up to and with its brace. -/
def inlineEntries (value : Reader Node) : Nat → Entries → Reader Entries
  | 0, _ => Reader.refuse
  | fuel + 1, entries => do
    skipTrivia
    if ← Reader.accept ['\x7d'] then return entries
    let (path, key, node) ← keyValue skipTrivia value
    match entries.assign .inline path key node with
    | none => Reader.refuse
    | some entries =>
      skipTrivia
      if ← Reader.accept [','] then
        return ← inlineEntries value fuel entries
      Reader.expect ['\x7d']
      return entries

/-- A value with room for `depth` more arrays and inline tables inside one another. -/
def value : (depth : Nat) → Reader Node
  | 0 => do
    match ← Text.any? with
    | some cs => return .leaf (.text (.ofList cs))
    | none => return .leaf (← scalar)
  | depth + 1 => do
    let fuel := (← Reader.rest).length + 1
    if ← Reader.accept ['['] then
      return .leaf (.array (← arrayItems (value depth) fuel))
    if ← Reader.accept ['\x7b'] then
      return .table .inline (← inlineEntries (value depth) fuel [])
    value 0

def statement : Reader Statement := do
  if ← Reader.accept ['[', '['] then
    let (path, key) ← dottedKey
    Reader.expect [']', ']']
    endLine
    return .appends path key
  if ← Reader.accept ['['] then
    let (path, key) ← dottedKey
    Reader.expect [']']
    endLine
    return .opens path key
  let (path, key, node) ← keyValue skipBlanks (value maxDepth)
  endLine
  return .assigns path key node

/-- Statements up to the end of the text. -/
def statements : Nat → Reader (List Statement)
  | 0 => Reader.refuse
  | fuel + 1 => do
    skipTrivia
    if ← Reader.atEnd then return []
    let first ← statement
    return first :: (← statements fuel)

end Cadence.Toml
