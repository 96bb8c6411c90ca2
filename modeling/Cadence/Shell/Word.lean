/-!
The words of a shell text. Quotes and backslashes keep characters from having a meaning of their own. A
dollar or a backquote stands for something that is only known when the command runs, so the text
of it is kept as it is.
-/

namespace Cadence.Shell

inductive Piece where
  | plain (c : Char)
  | quoted (cs : List Char)
  /-- A parameter, and what braces have behind its name. -/
  | parameter (name : String) (change : List Char) (isQuoted : Bool)
  | size (name : String) (isQuoted : Bool)
  | output (text : List Char) (isQuoted : Bool)
  | arithmetic (text : List Char) (isQuoted : Bool)
  deriving DecidableEq

abbrev Word := List Piece

def isNameStart (c : Char) : Bool := c.isAlpha || c = '_'

def isNameRest (c : Char) : Bool := c.isAlphanum || c = '_'

def isName : List Char → Bool
  | c :: cs => isNameStart c && cs.all isNameRest
  | [] => false

def isSpecial (c : Char) : Bool := c.isDigit || "?#$!@*-".toList.contains c

def endsWord (c : Char) : Bool := " \t\n;&|()<>".toList.contains c

namespace Word

inductive Quoting where
  | bare
  | single
  | double
  | comment
  deriving DecidableEq

/-- Splits a text at the mark that closes it. Marks in quotes do not count, and inner pairs of marks go
together. Single quotes may be plain characters. Inside round brackets there may be comments. -/
def upTo (opens closes : Char) (singles : Bool) :
    Quoting → Nat → List Char → Option (List Char × List Char)
  | _, _, [] => none
  | .single, depth, c :: cs =>
    (upTo opens closes singles (if c = '\'' then .bare else .single) depth cs).map
      fun (inner, rest) => (c :: inner, rest)
  | .comment, depth, c :: cs =>
    (upTo opens closes singles (if c = '\n' then .bare else .comment) depth cs).map
      fun (inner, rest) => (c :: inner, rest)
  | quoting, depth, '\\' :: c :: cs =>
    (upTo opens closes singles quoting depth cs).map fun (inner, rest) => ('\\' :: c :: inner, rest)
  | .double, depth, c :: cs =>
    (upTo opens closes singles (if c = '"' then .bare else .double) depth cs).map
      fun (inner, rest) => (c :: inner, rest)
  | .bare, depth, c :: cs =>
    if c = closes ∧ depth = 0 then some ([], cs)
    else
      let quoting := if c = '"' then Quoting.double
        else if c = '\'' ∧ singles then .single
        else if cs.head? = some '#' ∧ opens = '(' ∧ endsWord c then .comment
        else .bare
      let depth := if c = closes then depth - 1 else if c = opens then depth + 1 else depth
      (upTo opens closes singles quoting depth cs).map fun (inner, rest) => (c :: inner, rest)

/-- Up to the closing backquote. A backslash before another one, a dollar or a backquote goes away. -/
def backquoted (isQuoted : Bool) : List Char → Option (List Char × List Char)
  | [] => none
  | '\x60' :: cs => some ([], cs)
  | '\\' :: c :: cs =>
    (backquoted isQuoted cs).map fun (inner, rest) =>
      (if "\\$`".toList.contains c || (isQuoted && c = '"') then c :: inner else '\\' :: c :: inner,
        rest)
  | c :: cs => (backquoted isQuoted cs).map fun (inner, rest) => (c :: inner, rest)

/-- Whether a choice by patterns has begun, whose brackets close nothing else. -/
def isInCases (cs : List Char) : Bool :=
  let words := cs.splitBy fun a b => !endsWord a && !endsWord b
  words.count "esac".toList < words.count "case".toList

/-- Up to the bracket that closes a command, behind all that has come so far. -/
def commandAfter : Nat → List Char → List Char → Option (List Char × List Char)
  | 0, _, _ => none
  | fuel + 1, before, cs => do
    let (inner, rest) ← upTo '(' ')' true .bare 0 cs
    let text := before ++ inner
    if isInCases text then commandAfter fuel (text ++ [')']) rest else return (text, rest)

/-- The text of a command in brackets. A word that only looks like a choice begins none. -/
def command (cs : List Char) : Option (List Char × List Char) :=
  commandAfter (cs.length + 1) [] cs <|> upTo '(' ')' true .bare 0 cs

def braced (isQuoted : Bool) (inner : List Char) : Piece :=
  match inner with
  | ['#'] => .parameter "#" [] isQuoted
  | '#' :: name =>
    if isName name || name.all Char.isDigit || (name.length = 1 && name.all isSpecial) then
      .size (.ofList name) isQuoted
    else .parameter "#" name isQuoted
  | c :: cs =>
    if isNameStart c then
      .parameter (.ofList (inner.takeWhile isNameRest)) (inner.dropWhile isNameRest) isQuoted
    else if c.isDigit then
      .parameter (.ofList (inner.takeWhile Char.isDigit)) (inner.dropWhile Char.isDigit) isQuoted
    else if isSpecial c then .parameter (.ofList [c]) cs isQuoted
    else .parameter "" inner isQuoted
  | [] => .parameter "" [] isQuoted

/-- What follows a dollar. A dollar before anything else stands for itself. -/
def dollar (isQuoted : Bool) (cs : List Char) : Option (Piece × List Char) :=
  match cs with
  | '(' :: '(' :: cs =>
    match upTo '(' ')' true .bare 0 cs with
    | some (inner, ')' :: rest) => some (.arithmetic inner isQuoted, rest)
    | _ => none
  | '(' :: cs => (command cs).map fun (inner, rest) => (.output inner isQuoted, rest)
  | '\x7b' :: cs => do
    let (inner, rest) ← upTo '\x7b' '\x7d' (!isQuoted) .bare 0 cs
    return (braced isQuoted inner, rest)
  | c :: cs =>
    if isNameStart c then
      some (.parameter (.ofList (c :: cs.takeWhile isNameRest)) [] isQuoted, cs.dropWhile isNameRest)
    else if isSpecial c then some (.parameter (.ofList [c]) [] isQuoted, cs)
    else some (.quoted ['$'], c :: cs)
  | [] => some (.quoted ['$'], [])

/-- What a double quote does in a text that is quoted already. -/
inductive Mark where
  | closes
  | stands
  | vanishes
  deriving DecidableEq

/-- Up to a closing double quote, or up to the end where none is to come. -/
def doubleQuoted (mark : Mark) : Nat → List Char → Option (List Piece × List Char)
  | 0, _ => none
  | _, [] => if mark = .closes then none else some ([], [])
  | fuel + 1, c :: cs =>
    let go (p : Piece) (cs : List Char) : Option (List Piece × List Char) := do
      let (pieces, rest) ← doubleQuoted mark fuel cs
      return (p :: pieces, rest)
    match c, cs with
    | '\\', '\n' :: cs => doubleQuoted mark fuel cs
    | '\\', d :: cs =>
      let isEscaped := "\\$`".toList.contains d || (d = '"' && mark ≠ .stands) ||
        (d = '\x7d' && mark = .vanishes)
      go (.quoted (if isEscaped then [d] else ['\\', d])) cs
    | '$', cs => do
      let (p, rest) ← dollar true cs
      go p rest
    | '\x60', cs => do
      let (inner, rest) ← backquoted true cs
      go (.output inner true) rest
    | '"', cs =>
      match mark with
      | .closes => some ([], cs)
      | .stands => go (.quoted ['"']) cs
      | .vanishes => doubleQuoted mark fuel cs
    | c, cs => go (.quoted [c]) cs

def read (ends : Char → Bool) : Nat → List Char → Option (Word × List Char)
  | 0, _ => none
  | _, [] => some ([], [])
  | fuel + 1, c :: cs =>
    let go (ps : List Piece) (cs : List Char) : Option (Word × List Char) := do
      let (w, rest) ← read ends fuel cs
      return (ps ++ w, rest)
    match c, cs with
    | '\\', '\n' :: cs => read ends fuel cs
    | '\\', d :: cs => go [.quoted [d]] cs
    | '\'', cs =>
      match cs.dropWhile (· != '\'') with
      | _ :: rest => go [.quoted (cs.takeWhile (· != '\''))] rest
      | [] => none
    | '"', cs => do
      let (pieces, rest) ← doubleQuoted .closes fuel cs
      -- all arguments in quotes may be no field at all
      go (if pieces = [.parameter "@" [] true] then pieces else .quoted [] :: pieces) rest
    | '$', cs => do
      let (p, rest) ← dollar false cs
      go [p] rest
    | '\x60', cs => do
      let (inner, rest) ← backquoted false cs
      go [.output inner false] rest
    | c, cs => if ends c then some ([], c :: cs) else go [.plain c] cs

/-- A whole text as one word, blanks and all. It may be quoted already. -/
def ofText (quoting : Option Mark) (cs : List Char) : Option Word := do
  let (w, _) ← match quoting with
    | some mark => doubleQuoted mark (cs.length + 1) cs
    | none => read (fun _ => false) (cs.length + 1) cs
  return w

/-- A word without quotes or dollars, which may be a keyword. -/
def plain? (w : Word) : Option String :=
  (w.mapM fun
    | Piece.plain c => some c
    | _ => none).map String.ofList

def assignment? (w : Word) : Option (String × Word) :=
  let name := w.takeWhile fun p => p ≠ .plain '='
  match plain? name, w.drop name.length with
  | some x, _ :: value => if isName x.toList then some (x, value) else none
  | _, _ => none

end Word

end Cadence.Shell
