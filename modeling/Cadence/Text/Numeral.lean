/-!
Integers as words of a command line: decimal digits, behind a sign if one is wanted. A count takes
no minus, and leading zeros mean nothing.
-/

namespace Cadence.Text

def digits? (cs : List Char) : Option Nat :=
  if cs.isEmpty || !cs.all Char.isDigit then none
  else some (cs.foldl (fun n c => n * 10 + (c.toNat - '0'.toNat)) 0)

def integer? : List Char → Option Int
  | '-' :: cs => (digits? cs).map fun n => -(n : Int)
  | '+' :: cs => (digits? cs).map Int.ofNat
  | cs => (digits? cs).map Int.ofNat

def count? : List Char → Option Nat
  | '+' :: cs => digits? cs
  | cs => digits? cs

end Cadence.Text
