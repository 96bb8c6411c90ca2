import Cadence.Shell.Word

/-!
The tokens of a shell text: words, operators and redirections. A text that is kept in place for an
input is taken out of the lines where it stands, so that it never looks like commands. Where a quote
stays open the tokens end with a mark, because what stands before may still run.
-/

namespace Cadence.Shell

/-- What becomes of an input or output, which has a number. -/
inductive Redirect where
  | write (output : Nat) (appends : Bool) (target : Word)
  | read (target : Word)
  | here (text : Word)
  /-- The same way as another output, or none at all. -/
  | copy (output : Nat) (source : Option Nat)
  | same
  deriving DecidableEq

inductive Operator where
  | next
  | background
  | both
  | either
  | pipe
  | enter
  | leave
  | endsBranch
  deriving DecidableEq

inductive Token where
  | word (w : Word)
  | operator (o : Operator)
  | newline
  | redirect (r : Redirect)
  | broken
  deriving DecidableEq

namespace Token

/-- Lines up to one that is the given mark, and the text after that. -/
def hereLines (mark : List Char) (dropTabs : Bool) : Nat → List Char → List Char × List Char
  | 0, cs => ([], cs)
  | _, [] => ([], [])
  | fuel + 1, cs =>
    let line := cs.takeWhile (· != '\n')
    let line := if dropTabs then line.dropWhile (· = '\t') else line
    let rest := (cs.dropWhile (· != '\n')).drop 1
    if line = mark then ([], rest)
    else
      let (more, rest) := hereLines mark dropTabs fuel rest
      (line ++ '\n' :: more, rest)

/-- The input behind its mark, and the text without it. -/
def here (dropTabs : Bool) (cs : List Char) : Option (Redirect × List Char) := do
  let (mark, rest) ← Word.read endsWord (cs.length + 1) (cs.dropWhile (· = ' '))
  let spelled := mark.flatMap fun
    | Piece.plain c => [c]
    | .quoted cs => cs
    | _ => []
  let isQuoted := mark.any fun
    | Piece.quoted _ => true
    | _ => false
  let (lines, after) := hereLines spelled dropTabs (cs.length + 1)
    ((rest.dropWhile (· != '\n')).drop 1)
  let text ← if isQuoted then some [.quoted lines] else Word.ofText (some .stands) lines
  return (.here text, rest.takeWhile (· != '\n') ++ '\n' :: after)

/-- A redirection of an output or input by its number. -/
def redirection (number : Nat) (cs : List Char) : Option (Redirect × List Char) :=
  let target (make : Word → Redirect) (cs : List Char) : Option (Redirect × List Char) :=
    match Word.read endsWord (cs.length + 1) (cs.dropWhile fun c => c = ' ' || c = '\t') with
    | some (w@(_ :: _), rest) => some (make w, rest)
    | _ => none
  match cs with
  | '>' :: '&' :: '-' :: cs => some (.copy number none, cs)
  | '>' :: '&' :: c :: cs =>
    if c.isDigit then some (.copy number (some (c.toNat - '0'.toNat)), cs) else none
  | '>' :: '>' :: cs => target (.write number true) cs
  | '>' :: '|' :: cs | '>' :: cs => target (.write number false) cs
  | '<' :: '<' :: '-' :: cs => here true cs
  | '<' :: '<' :: cs => here false cs
  | '<' :: '&' :: _ :: cs => some (.same, cs)
  | '<' :: '>' :: cs | '<' :: cs => target .read cs
  | _ => none

def scan : Nat → List Char → List Token
  | 0, _ => [.broken]
  | _, [] => []
  | fuel + 1, c :: cs =>
    let go (t : Token) (cs : List Char) : List Token := t :: scan fuel cs
    let way (number : Nat) (cs : List Char) : List Token :=
      match redirection number cs with
      | some (r, rest) => go (.redirect r) rest
      | none => [.broken]
    match c, cs with
    | ' ', cs | '\t', cs => scan fuel cs
    | '\\', '\n' :: cs => scan fuel cs
    | '\n', cs => go .newline cs
    | '#', cs => scan fuel (cs.dropWhile (· != '\n'))
    | '&', '&' :: cs => go (.operator .both) cs
    | '|', '|' :: cs => go (.operator .either) cs
    | ';', ';' :: cs => go (.operator .endsBranch) cs
    | '&', cs => go (.operator .background) cs
    | ';', cs => go (.operator .next) cs
    | '|', cs => go (.operator .pipe) cs
    | '(', cs => go (.operator .enter) cs
    | ')', cs => go (.operator .leave) cs
    | '<', cs => way 0 ('<' :: cs)
    | '>', cs => way 1 ('>' :: cs)
    | c, cs =>
      if c.isDigit ∧ (cs.head? = some '>' ∨ cs.head? = some '<') then way (c.toNat - '0'.toNat) cs
      else
        match Word.read endsWord fuel (c :: cs) with
        | some (w, rest) => go (.word w) rest
        | none => [.broken]

/-- Every step consumes a character of the text, or of what an input in it leaves behind. -/
def ofText (text : List Char) : List Token := scan (2 * text.length + 2) text

end Token

end Cadence.Shell
