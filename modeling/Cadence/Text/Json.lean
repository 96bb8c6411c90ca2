/-!
Text as a string of a data format that machines read: quotes, backslashes and controls are escaped,
and nothing else.
-/

namespace Cadence.Text

def jsonEscapes : List (Char × Char) :=
  [('"', '"'), ('\\', '\\'), ('\n', 'n'), ('\r', 'r'), ('\t', 't'), ('\x08', 'b'), ('\x0c', 'f')]

def jsonChar (c : Char) : List Char :=
  match jsonEscapes.lookup c with
  | some e => ['\\', e]
  | none =>
    if c.toNat < 32 then
      let digits := Nat.toDigits 16 c.toNat
      ['\\', 'u'] ++ List.replicate (4 - digits.length) '0' ++ digits
    else [c]

def jsonQuoted (s : String) : String := .ofList ('"' :: s.toList.flatMap jsonChar ++ ['"'])

end Cadence.Text
