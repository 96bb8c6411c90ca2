/-!
Numbers with a fraction, which are printed as the machine keeps them: 53 binary digits and a bounded
exponent. Once a number has been rounded to those, its decimals are exact, and a half goes to the even
neighbour both times.
-/

namespace Cadence.Shell

inductive Fraction where
  /-- A quotient, with a sign that zero has too. -/
  | finite (isNegative : Bool) (n d : Nat)
  | infinite (isNegative : Bool)
  | undefined (isNegative : Bool)
  deriving DecidableEq

namespace Fraction

def nearest (n d : Nat) : Nat :=
  let k := n / d
  if d < 2 * (n % d) ∨ (d = 2 * (n % d) ∧ k % 2 = 1) then k + 1 else k

def scaled (base : Nat) (exponent : Int) (n d : Nat) : Nat × Nat :=
  if 0 ≤ exponent then (n * Nat.pow base exponent.toNat, d)
  else (n, d * Nat.pow base (-exponent).toNat)

/-- The nearest number that a machine keeps, and whether it is in the range of those. -/
def rounded (isNegative : Bool) (n d : Nat) : Fraction × Bool :=
  if n = 0 then (.finite isNegative 0 1, true)
  else
    let low : Int := (n.log2 : Int) - (d.log2 : Int) - 53
    let (a, b) := scaled 2 (-low) n d
    let exponent := max (if Nat.pow 2 53 ≤ a / b then low + 1 else low) (-1074)
    let (a, b) := scaled 2 (-exponent) n d
    let kept := nearest a b
    let (p, q) := scaled 2 exponent kept 1
    if Nat.pow 2 1024 ≤ p / q then (.infinite isNegative, false)
    else (.finite isNegative p q, Nat.pow 2 52 ≤ kept || kept * b = a)

/-- Digits of a base, and the value of each. -/
def digit? (base : Nat) (c : Char) : Option Nat :=
  let value := if c.isDigit then c.toNat - '0'.toNat
    else if 'a' ≤ c.toLower ∧ c.toLower ≤ 'f' then c.toLower.toNat - 'a'.toNat + 10
    else base
  if value < base then some value else none

def natural (base : Nat) (cs : List Char) : Nat :=
  cs.foldl (fun n c => n * base + (digit? base c).getD 0) 0

/-- Digits with a point among them: all of them as one number, how many follow the point, and the
rest of the text. -/
def digits? (base : Nat) (cs : List Char) : Option (Nat × Nat × List Char) :=
  let isDigit (c : Char) : Bool := (digit? base c).isSome
  let front := cs.takeWhile isDigit
  let (back, rest) := match cs.drop front.length with
    | '.' :: more => (more.takeWhile isDigit, more.dropWhile isDigit)
    | rest => ([], rest)
  if front.isEmpty && back.isEmpty then none
  else some (natural base (front ++ back), back.length, rest)

/-- A power behind its letter, if there is one with digits. -/
def power (letter : Char) (cs : List Char) : Int × List Char :=
  match cs with
  | c :: more =>
    let (sign, more) : Int × List Char := match more with
      | '-' :: more => (-1, more)
      | '+' :: more => (1, more)
      | more => (1, more)
    let exponent := more.takeWhile Char.isDigit
    if c.toLower ≠ letter ∨ exponent.isEmpty then (0, cs)
    else (sign * (natural 10 exponent : Nat), more.drop exponent.length)
  | [] => (0, [])

def utmost : Int := 100000

/-- A number without a sign off the start of a text, whether it is in range, and the rest. -/
def unsigned? (isNegative : Bool) (cs : List Char) : Option (Fraction × Bool × List Char) :=
  let lower := cs.map Char.toLower
  let build (base : Nat) (n : Nat) (exponent : Int) (rest : List Char) :
      Fraction × Bool × List Char :=
    let size : Int := exponent + (n.log2 : Nat)
    let (f, isInRange) :=
      if n ≠ 0 ∧ utmost < size then (infinite isNegative, false)
      else if n ≠ 0 ∧ size < -utmost then (finite isNegative 0 1, false)
      else
        let (a, b) := scaled base exponent n 1
        rounded isNegative a b
    (f, isInRange, rest)
  let decimal? : Option (Fraction × Bool × List Char) := do
    let (n, places, rest) ← digits? 10 cs
    let (exponent, rest) := power 'e' rest
    return build 10 n (exponent - (places : Int)) rest
  if "infinity".toList.isPrefixOf lower then some (.infinite isNegative, true, cs.drop 8)
  else if "inf".toList.isPrefixOf lower then some (.infinite isNegative, true, cs.drop 3)
  else if "nan".toList.isPrefixOf lower then some (.undefined isNegative, true, cs.drop 3)
  else if "0x".toList.isPrefixOf lower then
    match digits? 16 (cs.drop 2) with
    | some (n, places, rest) =>
      let (exponent, rest) := power 'p' rest
      some (build 2 n (exponent - 4 * (places : Int)) rest)
    | none => decimal?
  else decimal?

/-- A number off the start of a text; without one it is zero and the text stays. -/
def read (cs : List Char) : Fraction × Bool × List Char :=
  let body := cs.dropWhile fun c => c = ' ' || ('\t' ≤ c && c ≤ '\x0d')
  let (isNegative, body) := match body with
    | '-' :: more => (true, more)
    | '+' :: more => (false, more)
    | body => (false, body)
  (unsigned? isNegative body).getD (.finite false 0 1, true, cs)

def isNegative : Fraction → Bool
  | .finite b _ _ | .infinite b | .undefined b => b

def magnitude (n d : Nat) : Int :=
  if n = 0 then 0
  else if d ≤ n then ((Nat.toDigits 10 (n / d)).length : Int) - 1
  else -((Nat.toDigits 10 ((d + n - 1) / n - 1)).length : Int)

def pointed (isMarked : Bool) (places n : Nat) : List Char :=
  let digits := Nat.toDigits 10 n
  let digits := List.replicate (places + 1 - digits.length) '0' ++ digits
  let front := digits.take (digits.length - places)
  if places = 0 then (if isMarked then front ++ ['.'] else front)
  else front ++ '.' :: digits.drop (digits.length - places)

def fixed (isMarked : Bool) (places n d : Nat) : List Char :=
  pointed isMarked places (nearest (n * Nat.pow 10 places) d)

/-- The first digits as a whole number, and the power of ten of the first one. -/
def leading (places n d : Nat) : Nat × Int :=
  let exponent := magnitude n d
  let (a, b) := scaled 10 ((places : Int) - exponent) n d
  let k := nearest a b
  if Nat.pow 10 (places + 1) ≤ k then (k / 10, exponent + 1) else (k, exponent)

def exponentText (exponent : Int) : List Char :=
  let digits := Nat.toDigits 10 exponent.natAbs
  'e' :: (if exponent < 0 then '-' else '+') :: List.replicate (2 - digits.length) '0' ++ digits

def scientific (isMarked : Bool) (places n d : Nat) : List Char :=
  let (k, exponent) := leading places n d
  pointed isMarked places k ++ exponentText exponent

def shortened (cs : List Char) : List Char :=
  if cs.contains '.' then
    let kept := cs.reverse.dropWhile (· = '0')
    (if kept.head? = some '.' then kept.drop 1 else kept).reverse
  else cs

/-- So many digits in all, with a power of ten where the number is large or very small. -/
def general (isMarked : Bool) (wanted n d : Nat) : List Char :=
  let wanted := max 1 wanted
  let short (cs : List Char) : List Char := if isMarked then cs else shortened cs
  let (k, exponent) := leading (wanted - 1) n d
  if -4 ≤ exponent ∧ exponent < wanted then
    short (fixed isMarked (wanted - 1 - exponent).toNat n d)
  else short (pointed isMarked (wanted - 1) k) ++ exponentText exponent

end Fraction

end Cadence.Shell
