import Cadence.Shell.State

/-!
Arithmetic on 64-bit words with a sign. Names stand for parameters, which an expression can also change;
what a condition leaves out has no effect. A text that is no number is a mistake, and so is a
division by zero.
-/

namespace Cadence.Shell

inductive Sum where
  | number (n : Int64)
  | name (x : String)
  | unary (op : String) (a : Sum)
  | binary (op : String) (a b : Sum)
  | both (a b : Sum)
  | either (a b : Sum)
  | choice (c a b : Sum)
  /-- A new value, by way of an operation on the old one if there is one. -/
  | assign (op : String) (x : String) (a : Sum)

namespace Sum

inductive Token where
  | number (n : Int64)
  | name (x : String)
  | op (s : String)
  deriving DecidableEq

/-- Longer operators come before those that they start with. -/
def operators : List String := ["<<=", ">>=", "==", "!=", "<=", ">=", "&&", "||", "<<", ">>", "+=",
  "-=", "*=", "/=", "%=", "&=", "|=", "^=", "+", "-", "*", "/", "%", "<", ">", "!", "~", "&", "|",
  "^", "?", ":", "=", "(", ")"]

def digitValue (c : Char) : Nat :=
  if c.isDigit then c.toNat - '0'.toNat
  else if 'a' ≤ c then c.toNat - 'a'.toNat + 10
  else c.toNat - 'A'.toNat + 10

/-- A number in one of three bases, and the text after it. -/
def numeral (cs : List Char) : Nat × List Char :=
  let take (base : Nat) (cs : List Char) : Nat × List Char :=
    let ok (c : Char) : Bool :=
      (c.isDigit || ('a' ≤ c && c ≤ 'f') || ('A' ≤ c && c ≤ 'F')) && digitValue c < base
    ((cs.takeWhile ok).foldl (fun n c => n * base + digitValue c) 0, cs.dropWhile ok)
  match cs with
  | '0' :: 'x' :: cs | '0' :: 'X' :: cs => take 16 cs
  | '0' :: cs => take 8 ('0' :: cs)
  | cs => take 10 cs

def clamp (n : Int) : Int64 :=
  .ofInt (max Int64.minValue.toInt (min Int64.maxValue.toInt n))

def isBlank (c : Char) : Bool := c = ' ' || c = '\t' || c = '\n'

/-- The whole text as a number with a sign; nothing at all is zero. -/
def value? (cs : List Char) : Option Int64 :=
  let cs := cs.dropWhile isBlank
  let (minus, body) := match cs with
    | '-' :: r => (true, r)
    | '+' :: r => (false, r)
    | r => (false, r)
  if cs.isEmpty then some 0
  else if !(body.head?.any Char.isDigit) then none
  else
    let (n, rest) := numeral body
    if rest.all isBlank then some (clamp (if minus then -(n : Int) else n)) else none

def tokens : Nat → List Char → Option (List Token)
  | 0, _ => none
  | _, [] => some []
  | fuel + 1, c :: cs =>
    if isBlank c then tokens fuel cs
    else if c.isDigit then
      let (n, rest) := numeral (c :: cs)
      if rest.head?.any isNameRest then none
      else (tokens fuel rest).map (.number (clamp n) :: ·)
    else if isNameStart c then
      let name := (c :: cs).takeWhile isNameRest
      (tokens fuel ((c :: cs).drop name.length)).map (.name (.ofList name) :: ·)
    else match operators.find? fun o => o.toList.isPrefixOf (c :: cs) with
      | some o => (tokens fuel ((c :: cs).drop o.length)).map (.op o :: ·)
      | none => none

abbrev Parser := StateT (List Token) Option

/-- The binary operators that just compute, the loosest first. -/
def levels : List (List String) := [["|"], ["^"], ["&"], ["==", "!="], ["<", ">", "<=", ">="],
  ["<<", ">>"], ["+", "-"], ["*", "/", "%"]]

def accept (ops : List String) : Parser (Option String) := fun ts =>
  match ts with
  | .op o :: rest => if o ∈ ops then some (some o, rest) else some (none, ts)
  | _ => some (none, ts)

def assignments : List String := ["=", "+=", "-=", "*=", "/=", "%=", "&=", "|=", "^=", "<<=", ">>="]

mutual

def assignment : Nat → Parser Sum
  | 0 => fun _ => none
  | fuel + 1 => do
    match ← get with
    | .name x :: .op o :: rest =>
      if o ∈ assignments then
        set rest
        return .assign (o.dropEnd 1).toString x (← assignment fuel)
      else conditional fuel
    | _ => conditional fuel

def conditional : Nat → Parser Sum
  | 0 => fun _ => none
  | fuel + 1 => do
    let c ← disjunction fuel
    if (← accept ["?"]).isNone then return c
    let a ← assignment fuel
    if (← accept [":"]).isNone then fun _ => none
    return .choice c a (← conditional fuel)

def disjunction : Nat → Parser Sum
  | 0 => fun _ => none
  | fuel + 1 => do
    let a ← conjunction fuel
    if (← accept ["||"]).isSome then return .either a (← disjunction fuel)
    return a

def conjunction : Nat → Parser Sum
  | 0 => fun _ => none
  | fuel + 1 => do
    let a ← level fuel levels
    if (← accept ["&&"]).isSome then return .both a (← conjunction fuel)
    return a

def level : Nat → List (List String) → Parser Sum
  | 0, _ => fun _ => none
  | fuel + 1, [] => signed fuel
  | fuel + 1, ops :: rest => do more fuel ops rest (← level fuel rest)

def more : Nat → List String → List (List String) → Sum → Parser Sum
  | 0, _, _, _ => fun _ => none
  | fuel + 1, ops, rest, a => do
    match ← accept ops with
    | some o => more fuel ops rest (.binary o a (← level fuel rest))
    | none => return a

def signed : Nat → Parser Sum
  | 0 => fun _ => none
  | fuel + 1 => do
    match ← accept ["+", "-", "!", "~"] with
    | some o => return .unary o (← signed fuel)
    | none => primary fuel

def primary : Nat → Parser Sum
  | 0 => fun _ => none
  | fuel + 1 => do
    match ← get with
    | .number n :: rest =>
      set rest
      return .number n
    | .name x :: rest =>
      set rest
      return .name x
    | .op "(" :: rest =>
      set rest
      let a ← assignment fuel
      if (← accept [")"]).isNone then fun _ => none
      return a
    | _ => fun _ => none

end

def ofText (cs : List Char) : Option Sum := do
  let ts ← tokens (cs.length + 1) cs
  let (a, []) ← (assignment (ts.length * 20 + 20)).run ts | none
  return a

def truth (b : Bool) : Int64 := if b then 1 else 0

def compute (op : String) (a b : Int64) : Except String Int64 :=
  match op with
  | "+" => .ok (a + b)
  | "-" => .ok (a - b)
  | "*" => .ok (a * b)
  | "/" => if b = 0 then .error "arithmetic expression: division by zero" else .ok (a / b)
  | "%" => if b = 0 then .error "arithmetic expression: division by zero" else .ok (a % b)
  | "<<" => .ok (a <<< b)
  | ">>" => .ok (a >>> b)
  | "&" => .ok (a &&& b)
  | "|" => .ok (a ||| b)
  | "^" => .ok (a ^^^ b)
  | "==" => .ok (truth (a == b))
  | "!=" => .ok (truth (a != b))
  | "<" => .ok (truth (a < b))
  | ">" => .ok (truth (b < a))
  | "<=" => .ok (truth (a ≤ b))
  | _ => .ok (truth (b ≤ a))

def lookUp (s : State) (x : String) : Except String Int64 :=
  let text := (s.value? x).getD ""
  match value? text.toList with
  | some n => .ok n
  | none => .error ("Illegal number: " ++ text)

def eval (s : State) : Sum → Except String (State × Int64)
  | .number n => .ok (s, n)
  | .name x => (lookUp s x).map fun n => (s, n)
  | .unary op a => do
    let (s, n) ← eval s a
    return (s, match op with
      | "-" => -n
      | "!" => truth (n == 0)
      | "~" => ~~~n
      | _ => n)
  | .binary op a b => do
    let (s, m) ← eval s a
    let (s, n) ← eval s b
    return (s, ← compute op m n)
  | .both a b => do
    let (s, m) ← eval s a
    if m = 0 then return (s, 0)
    let (s, n) ← eval s b
    return (s, truth (n != 0))
  | .either a b => do
    let (s, m) ← eval s a
    if m ≠ 0 then return (s, 1)
    let (s, n) ← eval s b
    return (s, truth (n != 0))
  | .choice c a b => do
    let (s, m) ← eval s c
    if m ≠ 0 then eval s a else eval s b
  | .assign op x a => do
    let (s, n) ← eval s a
    let n ← if op = "" then pure n else do compute op (← lookUp s x) n
    return (← s.set x (toString n.toInt), n)

end Sum

end Cadence.Shell
