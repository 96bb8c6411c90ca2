import Cadence.Toml.Value

/-!
Numbers. A numeral is digits with single underscores between them and no idle zero in front; the
wide integer range lets a caller decide which integers suit it. A float has to be finite unless it
is spelled as infinite.
-/

namespace Cadence.Toml

/-- The digits of a numeral, without the underscores between them. -/
def digits? (ok : Char → Bool) : List Char → Option (List Char)
  | [] => none
  | [c] => if ok c then some [c] else none
  | c :: '_' :: r => if ok c then (digits? ok r).map (c :: ·) else none
  | c :: r => if ok c then (digits? ok r).map (c :: ·) else none

def digitValue (c : Char) : Nat :=
  if c.isDigit then c.toNat - '0'.toNat
  else if 'a' ≤ c then c.toNat - 'a'.toNat + 10
  else c.toNat - 'A'.toNat + 10

def isHexDigit (c : Char) : Bool :=
  c.isDigit || ('a' ≤ c && c ≤ 'f') || ('A' ≤ c && c ≤ 'F')

def valueOf (base : Nat) (digits : List Char) : Nat :=
  digits.foldl (fun n c => n * base + digitValue c) 0

/-- A run of decimal digits that is zero or starts with another digit. -/
def decimal? (cs : List Char) : Option (List Char) := do
  let digits ← digits? Char.isDigit cs
  if digits.length > 1 ∧ digits.head? = some '0' then none else digits

/-- Splits off a sign; `true` is minus. -/
def sign : List Char → Bool × List Char
  | '-' :: r => (true, r)
  | '+' :: r => (false, r)
  | r => (false, r)

/-- A numeral behind a mark for its base, which takes no sign. -/
def based? : List Char → Option (Nat × (Char → Bool) × List Char)
  | '0' :: 'x' :: r => some (16, isHexDigit, r)
  | '0' :: 'o' :: r => some (8, fun c => '0' ≤ c && c ≤ '7', r)
  | '0' :: 'b' :: r => some (2, fun c => c == '0' || c == '1', r)
  | _ => none

def integer? (cs : List Char) : Option Int := do
  let n : Int ← match based? cs with
    | some (base, ok, r) => (digits? ok r).map fun ds => (valueOf base ds : Int)
    | none =>
      let (minus, body) := sign cs
      (decimal? body).map fun ds => if minus then -(valueOf 10 ds : Int) else valueOf 10 ds
  if -(1 <<< 127 : Nat) ≤ n ∧ n < (1 <<< 128 : Nat) then some n else none

/-- The decimal `m · 10^e` rounds beyond the largest double. -/
def isTooLarge (m : Nat) (e : Int) : Bool :=
  let places : Int := (Nat.toDigits 10 m).length + e
  let limit := (1 <<< 1024) - (1 <<< 970)
  if m = 0 || places < 308 then false
  else if places > 310 then true
  else if 0 ≤ e then limit ≤ m * Nat.pow 10 e.toNat
  else limit * Nat.pow 10 (-e).toNat ≤ m

def exponent? (cs : List Char) : Option Int := do
  let (minus, body) := sign cs
  let ds ← digits? Char.isDigit body
  return if minus then -(valueOf 10 ds : Int) else valueOf 10 ds

/-- The digits and the exponent of a float with a fraction, an exponent or both. -/
def float? (cs : List Char) : Option (Nat × Int) := do
  let isMark (c : Char) := c == 'e' || c == 'E'
  let body := (sign cs).2
  let mantissa := body.takeWhile (!isMark ·)
  let tail := body.dropWhile (!isMark ·)
  let back := mantissa.dropWhile (· != '.')
  let front ← decimal? (mantissa.takeWhile (· != '.'))
  let places ← if back.isEmpty then some [] else digits? Char.isDigit (back.drop 1)
  let e ← if tail.isEmpty then some 0 else exponent? (tail.drop 1)
  if back.isEmpty ∧ tail.isEmpty then none
  return (valueOf 10 (front ++ places), e - places.length)

def isFloat (cs : List Char) : Bool :=
  let body := (sign cs).2
  body = "inf".toList || body = "nan".toList || (float? cs).any fun (m, e) => !isTooLarge m e

/-- Every underscore has a digit of some base on both sides; `before` stands in front. -/
def separates (before : Char) : List Char → Bool
  | [] => true
  | '_' :: r => isHexDigit before && (r.head?.any isHexDigit) && separates '_' r
  | c :: r => separates c r

/-- Spelled like a number. Behind the first underscore a decimal integer is not looked at closely. -/
def isNumberLike (cs : List Char) : Bool :=
  match based? cs with
  | some (_, ok, r) => r.isEmpty || (digits? ok r).isSome
  | none =>
    let body := (sign cs).2
    let tail := body.dropWhile Char.isDigit
    (decimal? body).isSome || (float? cs).isSome ||
      (body.head?.any (fun c => c.isDigit && c != '0') && tail.head? = some '_' &&
        !tail.any (" .eE".toList.contains ·) && separates '0' tail)

end Cadence.Toml
