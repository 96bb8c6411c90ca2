import Cadence.Shell.Pattern

/-!
Regular expressions in their basic and extended spelling. Of the matches that start first the longest
one counts. A group remembers what it has matched last.
-/

namespace Cadence.Shell

inductive Regex where
  | empty
  | any
  | exactly (c : Char)
  | oneOf (isExcluded : Bool) (ranges : List (Char × Char))
  | start
  | finish
  | group (number : Nat) (a : Regex)
  | again (number : Nat)
  | sequence (a b : Regex)
  | either (a b : Regex)
  | times (least : Nat) (most : Option Nat) (a : Regex)

namespace Regex

/-- The text as one that only stands for itself. -/
def ofText (cs : List Char) : Regex := cs.foldr (fun c r => .sequence (.exactly c) r) .empty

inductive Token where
  | one (r : Regex)
  | enter
  | leave
  | bar
  | times (least : Nat) (most : Option Nat) (spelling : List Char)
  | caret
  | dollar

def wordRanges : List (Char × Char) := [('a', 'z'), ('A', 'Z'), ('0', '9'), ('_', '_')]

def spaceRanges : List (Char × Char) := [('\t', '\x0d'), (' ', ' ')]

def bounds? (closes : List Char) (cs : List Char) : Option (Nat × Option Nat × List Char) := do
  let number (cs : List Char) : Nat := cs.foldl (fun n c => n * 10 + (c.toNat - '0'.toNat)) 0
  let front := cs.takeWhile Char.isDigit
  let (hasComma, rest) := match cs.drop front.length with
    | ',' :: rest => (true, rest)
    | rest => (false, rest)
  let back := if hasComma then rest.takeWhile Char.isDigit else front
  let rest := if hasComma then rest.drop back.length else rest
  guard (closes.isPrefixOf rest && (hasComma || !front.isEmpty))
  return (number front, if hasComma && back.isEmpty then none else some (number back),
    rest.drop closes.length)

/-- A mark that stands for itself in one spelling and has a meaning in the other. -/
def mark? (isExtended : Bool) (c : Char) (cs : List Char) : Option (Token × List Char) :=
  match c with
  | '(' => some (.enter, cs)
  | ')' => some (.leave, cs)
  | '|' => some (.bar, cs)
  | '+' => some (.times 1 none ['+'], cs)
  | '?' => some (.times 0 (some 1) ['?'], cs)
  | '\x7b' =>
    (bounds? (if isExtended then ['\x7d'] else ['\\', '\x7d']) cs).map fun (least, most, rest) =>
      (.times least most [], rest)
  | _ => none

def escaped (c : Char) : Token :=
  match c with
  | 'n' => .one (.exactly '\n')
  | 't' => .one (.exactly '\t')
  | 'w' => .one (.oneOf false wordRanges)
  | 'W' => .one (.oneOf true wordRanges)
  | 's' => .one (.oneOf false spaceRanges)
  | 'S' => .one (.oneOf true spaceRanges)
  | c =>
    if c.isDigit ∧ c ≠ '0' then .one (.again (c.toNat - '0'.toNat)) else .one (.exactly c)

def tokens (isExtended : Bool) : Nat → List Char → Option (List Token)
  | 0, _ => none
  | _, [] => some []
  | fuel + 1, c :: cs =>
    let go (t : Token) (cs : List Char) : Option (List Token) :=
      (tokens isExtended fuel cs).map (t :: ·)
    match c, cs with
    | '\\', [] => none
    | '\\', d :: cs =>
      match if isExtended then none else mark? isExtended d cs with
      | some (t, rest) => go t rest
      | none => go (escaped d) cs
    | '.', cs => go (.one .any) cs
    | '*', cs => go (.times 0 none ['*']) cs
    | '^', cs => go .caret cs
    | '$', cs => go .dollar cs
    | '[', cs =>
      let isExcluded := cs.head? = some '^'
      match Pattern.ranges true (cs.length + 1)
          ((if isExcluded then cs.drop 1 else cs).map fun c => (c, true)) with
      | some (rs, rest) => go (.one (.oneOf isExcluded rs)) (rest.map (·.1))
      | none => none
    | c, cs =>
      match if isExtended then mark? isExtended c cs else none with
      | some (t, rest) => go t rest
      | none => go (.one (.exactly c)) cs

mutual

/-- Alternatives up to the end or a closing mark, with the number of groups so far. -/
def alternatives (isExtended : Bool) : Nat → Nat → List Token → Option (Regex × Nat × List Token)
  | 0, _, _ => none
  | fuel + 1, groups, ts => do
    let (a, groups, ts) ← branch isExtended fuel groups none .empty ts
    match ts with
    | .bar :: ts =>
      let (b, groups, ts) ← alternatives isExtended fuel groups ts
      return (.either a b, groups, ts)
    | ts => return (a, groups, ts)

/-- One alternative: what has been read, the last item apart, because it may be repeated. -/
def branch (isExtended : Bool) :
    Nat → Nat → Option Regex → Regex → List Token → Option (Regex × Nat × List Token)
  | 0, _, _, _, _ => none
  | fuel + 1, groups, last, before, ts =>
    let all := last.elim before fun r => .sequence before r
    let go (r : Regex) (ts : List Token) : Option (Regex × Nat × List Token) :=
      branch isExtended fuel groups (some r) all ts
    match ts with
    | [] | .bar :: _ | .leave :: _ => some (all, groups, ts)
    | .one r :: ts => go r ts
    | .caret :: ts =>
      if isExtended || last.isNone then branch isExtended fuel groups none (.sequence all .start) ts
      else go (.exactly '^') ts
    | .dollar :: ts =>
      let isLast := match ts with
        | [] | .bar :: _ | .leave :: _ => true
        | _ => false
      go (if isExtended || isLast then .finish else .exactly '$') ts
    | .times least most spelling :: ts =>
      match last with
      | some r => branch isExtended fuel groups (some (.times least most r)) before ts
      | none => go (ofText spelling) ts
    | .enter :: ts => do
      let (a, inner, ts) ← alternatives isExtended fuel (groups + 1) ts
      match ts with
      | .leave :: ts => branch isExtended fuel inner (some (.group (groups + 1) a)) all ts
      | _ => none

end

def read? (isExtended : Bool) (cs : List Char) : Option Regex := do
  let ts ← tokens isExtended (cs.length + 1) cs
  let (r, _, rest) ← alternatives isExtended (3 * ts.length + 3) 0 ts
  if rest.isEmpty then return r else none

/-- A place in a text, and what groups have matched before it. -/
structure Place where
  isStart : Bool
  rest : List Char
  groups : List (Nat × List Char) := []

def Place.upTo (p q : Place) : List Char := p.rest.take (p.rest.length - q.rest.length)

/-- Steps again and again, each time as far as it goes before it stops. -/
def repeated (step : Place → List Place) : Nat → Nat → Option Nat → Place → List Place
  | 0, _, _, p => [p]
  | fuel + 1, least, most, p =>
    if most = some 0 then [p]
    else
      let further := (step p).filter fun q => 0 < least || q.rest.length < p.rest.length
      further.flatMap (repeated step fuel (least - 1) (most.map (· - 1))) ++
        if least = 0 then [p] else []

/-- Where a match that starts at a place can end. Capitals may count as small letters. -/
def ends (isFolding : Bool) : Regex → Place → List Place
  | .empty, p => [p]
  | .start, p => if p.isStart then [p] else []
  | .finish, p => if p.rest.isEmpty then [p] else []
  | .group n a, p => (ends isFolding a p).map fun q =>
    { q with groups := (n, p.upTo q) :: q.groups.filter (·.1 != n) }
  | .again n, p =>
    let text := (p.groups.lookup n).getD []
    if text.isPrefixOf p.rest then
      [{ p with isStart := p.isStart && text.isEmpty, rest := p.rest.drop text.length }]
    else []
  | .sequence a b, p => (ends isFolding a p).flatMap (ends isFolding b)
  | .either a b, p => ends isFolding a p ++ ends isFolding b p
  | .times least most a, p =>
    repeated (ends isFolding a) (p.rest.length + least + 1) least most p
  | .any, p => one p fun _ => true
  | .exactly c, p => one p fun d => d == c || (isFolding && d.toLower == c.toLower)
  | .oneOf isExcluded rs, p => one p fun d =>
    let isIn (d : Char) : Bool := rs.any fun (low, high) => low ≤ d && d ≤ high
    (isIn d || (isFolding && (isIn d.toLower || isIn d.toUpper))) != isExcluded
where
  one (p : Place) (fits : Char → Bool) : List Place :=
    match p.rest with
    | c :: cs => if fits c then [{ p with isStart := false, rest := cs }] else []
    | [] => []

def longest? (isFolding : Bool) (r : Regex) (p : Place) : Option Place :=
  (ends isFolding r p).foldl (fun best q =>
    if best.all fun (b : Place) => q.rest.length < b.rest.length then some q else best) none

/-- A part of a text, with what stands before it. -/
structure Found where
  before : List Char
  text : List Char
  place : Place

/-- A match of nothing before it at one place. -/
def foundAt? (isFolding : Bool) (r : Regex) (isStart : Bool) (cs : List Char) : Option Found :=
  let here : Place := { isStart, rest := cs }
  (longest? isFolding r here).map fun q => { before := [], text := here.upTo q, place := q }

def find? (isFolding : Bool) (r : Regex) (isStart : Bool) : List Char → Option Found
  | [] => foundAt? isFolding r isStart []
  | c :: cs =>
    match foundAt? isFolding r isStart (c :: cs) with
    | some f => some f
    | none => (find? isFolding r false cs).map fun f => { f with before := c :: f.before }

end Regex

end Cadence.Shell
