import Cadence.Shell.Builtin
import Cadence.Shell.Regex

/-!
Sums, comparisons and matches whose parts are words. A value is a text, which may be a number, and
what is empty or zero counts as nothing.
-/

namespace Cadence.Shell

namespace Reckon

abbrev Reader := StateT (List String) (Except String)

def number? (w : String) : Option Int := do
  let (isNegative, digits) := match w.toList with
    | '-' :: cs => (true, cs)
    | cs => (false, cs)
  guard (!digits.isEmpty && digits.all Char.isDigit)
  let n : Int := (Format.natural digits : Nat)
  return if isNegative then -n else n

def isNothing (w : String) : Bool := w = "" || number? w = some 0

/-- The operators of each level, those that bind least first. -/
def levels : List (List String) :=
  [["|"], ["&"], ["<", "<=", "=", "==", "!=", ">=", ">"], ["+", "-"], ["*", "/", "%"], [":"]]

/-- How much of a text a pattern matches from its start, or its first group. -/
def matched (text pattern : String) : Except String String := do
  let some r := Regex.read? false pattern.toList | throw "Invalid regular expression"
  let found := Regex.longest? false r { isStart := true, rest := text.toList }
  let hasGroup := 1 < (pattern.splitOn "\\(").length
  return match found with
    | some p =>
      if hasGroup then .ofList ((p.groups.lookup 1).getD [])
      else toString (text.length - p.rest.length)
    | none => if hasGroup then "" else "0"

def compared (op : String) (o : Ordering) : Bool :=
  match op with
  | "<" => o == .lt
  | "<=" => o != .gt
  | "=" | "==" => o == .eq
  | "!=" => o != .eq
  | ">=" => o != .lt
  | _ => o == .gt

def apply (op a b : String) : Except String String :=
  let sum (f : Int → Int → Int) : Except String String :=
    match number? a, number? b with
    | some m, some n =>
      if (op = "/" ∨ op = "%") ∧ n = 0 then .error "division by zero" else .ok (toString (f m n))
    | _, _ => .error "non-integer argument"
  match op with
  | "|" => .ok (if !isNothing a then a else if !isNothing b then b else "0")
  | "&" => .ok (if isNothing a || isNothing b then "0" else a)
  | "+" => sum (· + ·)
  | "-" => sum (· - ·)
  | "*" => sum (· * ·)
  | "/" => sum Int.tdiv
  | "%" => sum Int.tmod
  | ":" => matched a b
  | op =>
    let o := match number? a, number? b with
      | some m, some n => compare m n
      | _, _ => compare a b
    .ok (if compared op o then "1" else "0")

def take : Reader String := do
  match ← get with
  | w :: ws =>
    set ws
    return w
  | [] => throw "syntax error: missing argument"

/-- The part of a text from a position on, both counted from 1. -/
def part (text : String) (start count : Option Int) : String :=
  match start, count with
  | some p, some n =>
    if p ≤ 0 ∨ n ≤ 0 then "" else .ofList ((text.toList.drop (p.toNat - 1)).take n.toNat)
  | _, _ => ""

mutual

/-- A value of one level, its operators from the left. -/
def level : Nat → List (List String) → Reader String
  | 0, _ => throw "syntax error"
  | fuel + 1, [] => primary fuel
  | fuel + 1, ops :: tighter => do
    let a ← level fuel tighter
    chain fuel ops tighter a

def chain : Nat → List String → List (List String) → String → Reader String
  | 0, _, _, _ => throw "syntax error"
  | fuel + 1, ops, tighter, a => do
    match ← get with
    | op :: rest =>
      if ops.contains op then
        set rest
        let b ← level fuel tighter
        chain fuel ops tighter (← (apply op a b : Except String String))
      else return a
    | [] => return a

def primary : Nat → Reader String
  | 0 => throw "syntax error"
  | fuel + 1 => do
    match ← take with
    | "(" =>
      let a ← level fuel levels
      if (← take) ≠ ")" then throw "syntax error: expecting ')'"
      return a
    | "+" => take
    | "length" => return toString (← primary fuel).length
    | "match" =>
      let a ← primary fuel
      matched a (← primary fuel)
    | "index" =>
      let a ← primary fuel
      let b ← primary fuel
      return toString (((a.toList.findIdx? b.toList.contains).map (· + 1)).getD 0)
    | "substr" =>
      let a ← primary fuel
      let b ← primary fuel
      let c ← primary fuel
      return part a (number? b) (number? c)
    | w => if w = ")" then throw "syntax error: unexpected ')'" else return w

end

/-- Prints the value of an expression; the status says whether it is something. -/
def expr : Builtin := fun s words =>
  let words := if words.head? = some "--" then words.drop 1 else words
  match (level (10 * words.length + 20) levels).run words with
  | .ok (w, []) => Builtin.done s (if isNothing w then 1 else 0) (w ++ "\n")
  | .ok (_, w :: _) => (s.ends 2, { err := "expr: syntax error: unexpected argument " ++ w ++ "\n" })
  | .error e => (s.ends 2, { err := "expr: " ++ e ++ "\n" })

end Reckon

end Cadence.Shell
