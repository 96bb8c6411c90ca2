import Cadence.Shell.Arithmetic
import Cadence.Shell.Fraction

/-!
Printing of words: with escapes for characters that are hard to type, and by formats, which are
repeated until every word has been used.
-/

namespace Cadence.Shell

namespace Format

def isOctal (c : Char) : Bool := '0' ≤ c && c ≤ '7'

def octal (cs : List Char) : Char :=
  .ofNat (cs.foldl (fun n c => n * 8 + (c.toNat - '0'.toNat)) 0 % 256)

/-- The characters that a backslash and a letter stand for. -/
def escapes : List (Char × Char) :=
  [('n', '\n'), ('t', '\t'), ('\\', '\\'), ('r', '\r'), ('a', '\x07'), ('b', '\x08'),
    ('f', '\x0c'), ('v', '\x0b'), ('e', '\x1b')]

/-- What follows a backslash: the character it stands for, if any, and the rest. -/
def escape (cs : List Char) : Option (Char × List Char) :=
  match cs with
  | c :: rest =>
    if isOctal c then
      let digits := (cs.take 3).takeWhile isOctal
      some (octal digits, cs.drop digits.length)
    else (escapes.lookup c).map fun e => (e, rest)
  | [] => none

/-- Replaces escapes, up to one that ends the output. A zero may stand before three more digits. -/
def unescape : Nat → List Char → List Char × Bool
  | 0, cs => (cs, false)
  | fuel + 1, cs =>
    let go (c : Char) (cs : List Char) : List Char × Bool :=
      let (rest, cut) := unescape fuel cs
      (c :: rest, cut)
    match cs with
    | '\\' :: 'c' :: _ => ([], true)
    | '\\' :: '0' :: cs =>
      let digits := (cs.take 3).takeWhile isOctal
      go (octal digits) (cs.drop digits.length)
    | '\\' :: cs =>
      match escape cs with
      | some (c, rest) => go c rest
      | none => go '\\' cs
    | c :: cs => go c cs
    | [] => ([], false)

def echo (words : List String) : String :=
  let (words, newline) := if words.head? = some "-n" then (words.drop 1, "") else (words, "\n")
  let cs := (" ".intercalate words).toList
  match unescape (cs.length + 1) cs with
  | (cs, true) => .ofList cs
  | (cs, false) => .ofList cs ++ newline

/-- A text in a form that a shell reads back: runs of single quotes stand in double ones. -/
def quoted (text : String) : String :=
  let parts := text.toList.splitBy fun a b => (a == '\'') == (b == '\'')
  let around (q : Char) (cs : List Char) : List Char := q :: cs ++ [q]
  let part (cs : List Char) : List Char := around (if cs.head? = some '\'' then '"' else '\'') cs
  .ofList ((if text.startsWith "'" || text = "" then ['\'', '\''] else []) ++ parts.flatMap part)

inductive Trouble where
  | word
  | range
  /-- What is to be done with a word is not known. -/
  | format
  deriving DecidableEq

def Trouble.message : Trouble → String
  | .word => "expected numeric value"
  | .range => "Numerical result out of range"
  | .format => "invalid directive"

structure Directive where
  toLeft : Bool := false
  plus : Bool := false
  blank : Bool := false
  zeros : Bool := false
  marked : Bool := false
  width : Nat := 0
  precision : Option Nat := none
  kind : Char

/-- A printing under way: what is out, the words that are left, and how it goes. -/
structure Progress where
  out : List Char := []
  words : List String
  took : Bool := false
  trouble : Option Trouble := none
  isOver : Bool := false

def natural (cs : List Char) : Nat := cs.foldl (fun n c => n * 10 + (c.toNat - '0'.toNat)) 0

namespace Progress

def take (p : Progress) : Option String × Progress :=
  (p.words.head?, { p with words := p.words.drop 1, took := true })

/-- A number out of a word: a character's code behind a quote, or as much as is a number. -/
def number (p : Progress) : Int × Progress :=
  match p.take with
  | (none, p) => (0, p)
  | (some w, p) =>
    match w.toList with
    | '\'' :: c :: _ | '"' :: c :: _ => (c.toNat, p)
    | cs =>
      let (isNegative, body) := match cs.dropWhile Sum.isBlank with
        | '-' :: r => (true, r)
        | '+' :: r => (false, r)
        | r => (false, r)
      let (n, rest) := Sum.numeral body
      let n : Int := if isNegative then -(n : Int) else n
      if !cs.isEmpty ∧ (!rest.isEmpty || !body.head?.any Char.isDigit) then
        (n, { p with trouble := some .word })
      else if (Sum.clamp n).toInt ≠ n then ((Sum.clamp n).toInt, { p with trouble := some .range })
      else (n, p)

def fraction (p : Progress) : Fraction × Progress :=
  match p.take with
  | (none, p) => (.finite false 0 1, p)
  | (some w, p) =>
    match w.toList with
    | '\'' :: c :: _ | '"' :: c :: _ => (.finite false c.toNat 1, p)
    | cs =>
      let (f, isInRange, rest) := Fraction.read cs
      let trouble := if !rest.isEmpty then some .word
        else if isInRange then p.trouble
        else some .range
      (f, { p with trouble })

end Progress

namespace Directive

def pad (d : Directive) (sign body : List Char) : List Char :=
  let missing := d.width - (sign.length + body.length)
  if d.toLeft then sign ++ body ++ List.replicate missing ' '
  else if d.zeros then sign ++ List.replicate missing '0' ++ body
  else List.replicate missing ' ' ++ sign ++ body

def text (d : Directive) (cs : List Char) : List Char :=
  { d with zeros := false }.pad [] (match d.precision with
    | some n => cs.take n
    | none => cs)

def integer (d : Directive) (sign digits : List Char) : List Char :=
  let digits := List.replicate ((d.precision.getD 1) - digits.length) '0' ++ digits
  { d with zeros := d.zeros && d.precision.isNone }.pad sign
    (if d.precision = some 0 ∧ digits = ['0'] then [] else digits)

def signOf (d : Directive) (isNegative : Bool) : List Char :=
  if isNegative then ['-'] else if d.plus then ['+'] else if d.blank then [' '] else []

/-- A number without a sign, in one of the bases. -/
def unsigned (d : Directive) (base : Nat) (n : Int) : List Char :=
  let digits := Nat.toDigits base (n % (1 <<< 64)).toNat
  let start := if !d.marked ∨ n = 0 then []
    else if base = 8 then ['0'] else if base = 16 then ['0', 'x'] else []
  d.integer start digits

/-- A number with a fraction, in the form that a letter asks for. -/
def fraction (d : Directive) (f : Fraction) : List Char :=
  let places := d.precision.getD 6
  let sign := d.signOf f.isNegative
  let body := match f with
    | .finite _ n m =>
      d.pad sign (match d.kind.toLower with
        | 'e' => Fraction.scientific d.marked places n m
        | 'g' => Fraction.general d.marked places n m
        | _ => Fraction.fixed d.marked places n m)
    | .infinite _ => { d with zeros := false }.pad sign "inf".toList
    | .undefined _ => { d with zeros := false }.pad sign "nan".toList
  if d.kind.isUpper then body.map Char.toUpper else body

def write (d : Directive) (p : Progress) : Progress :=
  let put (p : Progress) (cs : List Char) : Progress := { p with out := p.out ++ cs }
  match d.kind with
  | 's' => let (w, p) := p.take; put p (d.text (w.getD "").toList)
  | 'c' => let (w, p) := p.take; put p (d.text ((w.getD "").toList.take 1))
  | 'b' =>
    let (w, p) := p.take
    let cs := (w.getD "").toList
    let (cs, cut) := unescape (cs.length + 1) cs
    { put p (d.text cs) with isOver := cut }
  | 'd' | 'i' =>
    let (n, p) := p.number
    put p (d.integer (d.signOf (n < 0)) (Nat.toDigits 10 n.natAbs))
  | 'u' => let (n, p) := p.number; put p (d.unsigned 10 n)
  | 'o' => let (n, p) := p.number; put p (d.unsigned 8 n)
  | 'x' => let (n, p) := p.number; put p (d.unsigned 16 n)
  | 'X' => let (n, p) := p.number; put p ((d.unsigned 16 n).map Char.toUpper)
  | 'e' | 'E' | 'f' | 'F' | 'g' | 'G' => let (f, p) := p.fraction; put p (d.fraction f)
  | _ => { p with trouble := some .format, isOver := true }

end Directive

def flags (d : Directive) : List Char → Directive × List Char
  | '-' :: cs => flags { d with toLeft := true } cs
  | '+' :: cs => flags { d with plus := true } cs
  | ' ' :: cs => flags { d with blank := true } cs
  | '0' :: cs => flags { d with zeros := true } cs
  | '#' :: cs => flags { d with marked := true } cs
  | cs => (d, cs)

/-- A count in a format: digits, or a star for the next word. -/
def count (p : Progress) : List Char → Int × Progress × List Char
  | '*' :: cs => let (n, p) := p.number; (n, p, cs)
  | cs => (natural (cs.takeWhile Char.isDigit), p, cs.dropWhile Char.isDigit)

def pass : Nat → List Char → Progress → Progress
  | 0, _, p => p
  | fuel + 1, cs, p =>
    if p.isOver then p
    else match cs with
      | [] => p
      | '%' :: '%' :: cs => pass fuel cs { p with out := p.out ++ ['%'] }
      | '%' :: cs =>
        let (d, cs) := flags { kind := ' ' } cs
        let (width, p, cs) := count p cs
        let d := { d with width := width.natAbs, toLeft := d.toLeft || width < 0 }
        let (precision, p, cs) := match cs with
          | '.' :: cs => let (n, p, cs) := count p cs; (some n.toNat, p, cs)
          | cs => (none, p, cs)
        match cs with
        | kind :: cs => pass fuel cs ({ d with precision, kind }.write p)
        | [] => { p with trouble := some .format, isOver := true }
      | '\\' :: 'c' :: _ => { p with isOver := true }
      | '\\' :: cs =>
        match escape cs with
        | some (c, rest) => pass fuel rest { p with out := p.out ++ [c] }
        | none => pass fuel cs { p with out := p.out ++ ['\\'] }
      | c :: cs => pass fuel cs { p with out := p.out ++ [c] }

/-- Repeats a format as long as there are words and it takes some. -/
def repeated (format : List Char) : Nat → Progress → Progress
  | 0, p => p
  | fuel + 1, p =>
    let p := pass (format.length + 1) format { p with took := false }
    if p.isOver || p.words.isEmpty || !p.took then p else repeated format fuel p

def printf (format : String) (words : List String) : String × Option Trouble :=
  let p := repeated format.toList (words.length + 1) { words }
  (.ofList p.out, p.trouble)

end Format

end Cadence.Shell
