/-!
TOML values and tables. Floats and moments are kept as they were spelled, since nothing here
computes with them. A table is a list of entries in order of writing.

Numbers are worked out late: something spelled like a number that is none only counts as a mistake
where it is looked at.
-/

namespace Cadence.Toml

inductive Value where
  | text (s : String)
  | integer (n : Int)
  | boolean (b : Bool)
  | float (spelling : String)
  | moment (spelling : String)
  /-- Spelled like a number, but beyond every range or with a strange digit. -/
  | misspelled (number : String)
  | array (items : List Value)
  | table (entries : List (String × Value))

abbrev Table := List (String × Value)

mutual

/-- No part of the value is misspelled. -/
def Value.isSound : Value → Bool
  | .misspelled _ => false
  | .array items => areSound items
  | .table entries => Table.isSound entries
  | _ => true

def areSound : List Value → Bool
  | [] => true
  | item :: rest => item.isSound && areSound rest

def Table.isSound : Table → Bool
  | [] => true
  | (_, value) :: rest => value.isSound && Table.isSound rest

end

mutual

/-- Documents are written with integers of 64 bits, one of them for the sign. -/
def Value.isWritable : Value → Bool
  | .integer n => -9223372036854775808 ≤ n && n ≤ 9223372036854775807
  | .array items => areWritable items
  | .table entries => Table.isWritable entries
  | _ => true

def areWritable : List Value → Bool
  | [] => true
  | item :: rest => item.isWritable && areWritable rest

def Table.isWritable : Table → Bool
  | [] => true
  | (_, value) :: rest => value.isWritable && Table.isWritable rest

end

end Cadence.Toml
