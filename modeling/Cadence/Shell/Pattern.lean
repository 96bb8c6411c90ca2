/-!
Patterns for texts: a star stands for any characters, a question mark for one, and brackets for one of
a set. A quoted character only stands for itself.
-/

namespace Cadence.Shell

namespace Pattern

inductive Item where
  | exactly (c : Char)
  | one
  | many
  | oneOf (isExcluded : Bool) (ranges : List (Char × Char))

end Pattern

abbrev Pattern := List Pattern.Item

namespace Pattern

def classes : List (String × List (Char × Char)) := [
  ("alpha", [('a', 'z'), ('A', 'Z')]), ("digit", [('0', '9')]),
  ("alnum", [('a', 'z'), ('A', 'Z'), ('0', '9')]), ("upper", [('A', 'Z')]), ("lower", [('a', 'z')]),
  ("space", [('\t', '\x0d'), (' ', ' ')]), ("blank", [(' ', ' '), ('\t', '\t')]),
  ("xdigit", [('0', '9'), ('a', 'f'), ('A', 'F')]),
  ("punct", [('!', '/'), (':', '@'), ('[', '\x60'), ('\x7b', '\x7e')])]

/-- The set up to its closing bracket, which stands for itself at the start. -/
def ranges (isFirst : Bool) : Nat → List (Char × Bool) →
    Option (List (Char × Char) × List (Char × Bool))
  | 0, _ => none
  | _, [] => none
  | fuel + 1, (c, isActive) :: cs =>
    let go (r : List (Char × Char)) (cs : List (Char × Bool)) :
        Option (List (Char × Char) × List (Char × Bool)) :=
      (ranges false fuel cs).map fun (rs, rest) => (r ++ rs, rest)
    if c = ']' ∧ isActive ∧ !isFirst then some ([], cs)
    else match c, cs with
      | '[', (':', _) :: cs =>
        let name := cs.takeWhile (·.1 != ':')
        match classes.lookup (.ofList (name.map (·.1))) with
        | some r => go r (cs.drop (name.length + 2))
        | none => go [('[', '['), (':', ':')] cs
      | c, ('-', true) :: (d, isActive) :: cs =>
        if d = ']' ∧ isActive then go [(c, c)] (('-', false) :: (d, isActive) :: cs)
        else go [(c, d)] cs
      | c, cs => go [(c, c)] cs

/-- Reads a pattern off its characters, each with whether it may have a meaning of its own. -/
def read : Nat → List (Char × Bool) → Pattern
  | 0, _ => []
  | _, [] => []
  | fuel + 1, (c, isActive) :: cs =>
    if !isActive then .exactly c :: read fuel cs
    else if c = '*' then .many :: read fuel cs
    else if c = '?' then .one :: read fuel cs
    else if c = '[' then
      let isExcluded := cs.head? = some ('!', true) ∨ cs.head? = some ('^', true)
      match ranges true (cs.length + 1) (if isExcluded then cs.drop 1 else cs) with
      | some (rs, rest) => .oneOf isExcluded rs :: read fuel rest
      | none => .exactly c :: read fuel cs
    else .exactly c :: read fuel cs

def ofChars (cs : List (Char × Bool)) : Pattern := read (cs.length + 1) cs

/-- The ends of a text, from the whole to nothing. -/
def ends {α : Type} : List α → List (List α)
  | [] => [[]]
  | c :: cs => (c :: cs) :: ends cs

def accepts : Pattern → List Char → Bool
  | [], cs => cs.isEmpty
  | .many :: ps, cs => (ends cs).any (accepts ps)
  | .exactly p :: ps, c :: cs => p == c && accepts ps cs
  | .one :: ps, _ :: cs => accepts ps cs
  | .oneOf isExcluded rs :: ps, c :: cs =>
    (rs.any (fun (low, high) => low ≤ c && c ≤ high)) != isExcluded && accepts ps cs
  | _, [] => false

/-- Drops a start that the pattern accepts: the longest or the shortest. -/
def dropStart (p : Pattern) (longest : Bool) (cs : List Char) : List Char :=
  let lengths := List.range (cs.length + 1)
  let lengths := if longest then lengths.reverse else lengths
  match lengths.find? fun n => accepts p (cs.take n) with
  | some n => cs.drop n
  | none => cs

/-- Drops an end that the pattern accepts: the longest or the shortest. -/
def dropEnd (p : Pattern) (longest : Bool) (cs : List Char) : List Char :=
  let lengths := List.range (cs.length + 1)
  let lengths := if longest then lengths else lengths.reverse
  match lengths.find? fun n => accepts p (cs.drop n) with
  | some n => cs.take n
  | none => cs

end Pattern

end Cadence.Shell
