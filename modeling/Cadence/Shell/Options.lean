/-!
Options among words, one letter at a time: several letters may share a word, and a letter may have an
argument, which is the rest of its word or the next one.
-/

namespace Cadence.Shell

namespace Options

/-- What becomes of the argument of the letter before. -/
inductive Argument where
  | kept
  | gone
  | is (value : String)
  deriving DecidableEq

/-- One letter read off, and where the next one stands. -/
structure Step where
  letter : Char := '?'
  argument : Argument := .is ""
  complaint : Option String := none
  /-- The word with the next letter, counted from 1. -/
  index : Nat
  /-- How many characters of the word before it have been read, or 0 for all of them. -/
  offset : Nat := 0
  isOver : Bool := false

/-- What is known of a letter: whether it has an argument. -/
def kind? (letters : List Char) (c : Char) : Option Bool :=
  match letters with
  | [] => none
  | l :: rest =>
    if l = c ∧ l ≠ ':' then some (rest.head? = some ':') else kind? rest c

/-- Reads the letter at a place in a word, the next word being the given one. -/
def letter (letters : List Char) (words : List String) (next offset : Nat) (c : Char)
    (rest : List Char) : Step :=
  let isQuiet := letters.head? = some ':'
  let following := if rest.isEmpty then 0 else offset + 1
  match kind? letters c with
  | none =>
    if isQuiet then { argument := .is c.toString, index := next, offset := following }
    else
      { argument := .gone, complaint := some ("Illegal option -" ++ c.toString)
        index := next, offset := following }
  | some false => { letter := c, index := next, offset := following }
  | some true =>
    if !rest.isEmpty then { letter := c, argument := .is (.ofList rest), index := next }
    else match words[next - 1]? with
      | some w => { letter := c, argument := .is w, index := next + 1 }
      | none =>
        if isQuiet then { letter := ':', argument := .is c.toString, index := next }
        else
          { argument := .gone, complaint := some ("No arg for -" ++ c.toString ++ " option")
            index := next }

/-- The next letter among words, going on inside a word if it is the one that was left. -/
def next (letters : List Char) (words : List String) (index : Nat) (within : Nat × Nat) : Step :=
  let index := max 1 index
  let inside := if within.1 = index ∧ within.2 ≠ 0 then
      (words.getD (index - 2) "").toList.drop within.2
    else []
  match inside with
  | c :: rest => letter letters words index within.2 c rest
  | [] =>
    match (words.getD (index - 1) "").toList with
    | ['-', '-'] => { index := index + 1, isOver := true, argument := .kept }
    | '-' :: c :: rest => letter letters words (index + 1) 1 c rest
    | _ => { index, isOver := true, argument := .kept }

end Options

end Cadence.Shell
