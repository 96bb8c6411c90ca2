import Cadence.Toml.Value

/-!
Tables under construction. A table remembers how it came about, because that decides who may still
add to it: one that a header or a dotted key only passed through may be opened once, one that dotted
keys made grows by dotted keys alone, and an inline table is finished when it is written.
-/

namespace Cadence.Toml

inductive Origin where
  /-- Has a header of its own, or is the document. -/
  | opened
  | implied
  | dotted
  | inline
  deriving DecidableEq

inductive Node where
  | leaf (value : Value)
  | table (origin : Origin) (entries : List (String × Node))
  /-- The tables of one repeated header, the last one being open. -/
  | tables (done : List (List (String × Node))) (last : List (String × Node))

abbrev Entries := List (String × Node)

namespace Entries

def replace (entries : Entries) (key : String) (node : Node) : Entries :=
  if (entries.lookup key).isSome then
    entries.map fun (k, old) => if k == key then (k, node) else (k, old)
  else entries ++ [(key, node)]

def remove (entries : Entries) (key : String) : Entries :=
  entries.filter (·.1 != key)

/-- Changes the table that a path leads to, making the tables on the way. -/
def descend (byDots : Bool) (change : Origin → Entries → Option Entries) :
    List String → Origin → Entries → Option Entries
  | [], origin, entries => change origin entries
  | key :: path, _, entries =>
    match entries.lookup key with
    | none => do
      let origin := if byDots then Origin.dotted else .implied
      return entries ++ [(key, .table origin (← descend byDots change path origin []))]
    | some (.tables done last) => do
      return entries.replace key (.tables done (← descend byDots change path .opened last))
    | some (.table origin inner) => do
      if origin = .inline ∨ (byDots ∧ origin = .opened) then none
      else return entries.replace key (.table origin (← descend byDots change path origin inner))
    | some (.leaf _) => none

/-- Gives a value to the key at the end of a path. A table made by dots and one made otherwise do not
mix, and no key is given twice. -/
def assign (entries : Entries) (origin : Origin) (path : List String) (key : String)
    (node : Node) : Option Entries :=
  descend (!path.isEmpty) (fun origin entries =>
    if (origin = .dotted) ≠ !path.isEmpty ∨ (entries.lookup key).isSome then none
    else some (entries ++ [(key, node)])) path origin entries

end Entries

mutual

def Node.toValue : Node → Value
  | .leaf value => value
  | .table _ entries => .table (tableOf entries)
  | .tables done last => .array (tablesOf done ++ [.table (tableOf last)])

def tableOf : Entries → Table
  | [] => []
  | (key, node) :: rest => (key, node.toValue) :: tableOf rest

def tablesOf : List Entries → List Value
  | [] => []
  | entries :: rest => .table (tableOf entries) :: tablesOf rest

end

/-- A document being read: what is finished, and the table that the last header opened. -/
structure Draft where
  root : Entries := []
  /-- The open table's header, and whether the header repeats. -/
  header : Option (List String × String × Bool) := none
  current : Entries := []

namespace Draft

/-- Puts the open table in its place. -/
def close (d : Draft) : Option Entries :=
  match d.header with
  | none => some d.current
  | some (path, key, repeats) =>
    Entries.descend false (fun _ parent =>
      match parent.lookup key, repeats with
      | none, false => some (parent ++ [(key, .table .opened d.current)])
      | none, true => some (parent ++ [(key, .tables [] d.current)])
      | some (.tables done last), true =>
        some (parent.replace key (.tables (done ++ [last]) d.current))
      | _, _ => none) path .opened d.root

/-- Opens a table. One that headers only passed through keeps what it has. -/
def openTable (d : Draft) (path : List String) (key : String) : Option Draft := do
  let root ← d.close
  let found := (parentOf path root).bind (·.lookup key)
  let root ← Entries.descend false (fun _ parent => some (parent.remove key)) path .opened root
  match found with
  | none => return ⟨root, some (path, key, false), []⟩
  | some (.table .implied entries) => return ⟨root, some (path, key, false), entries⟩
  | some _ => none
where
  parentOf : List String → Entries → Option Entries
    | [], entries => some entries
    | key :: path, entries =>
      match entries.lookup key with
      | some (.table _ inner) => parentOf path inner
      | some (.tables _ last) => parentOf path last
      | _ => none

/-- Opens the next table of a repeated header. -/
def openNext (d : Draft) (path : List String) (key : String) : Option Draft := do
  return ⟨← d.close, some (path, key, true), []⟩

def assign (d : Draft) (path : List String) (key : String) (node : Node) : Option Draft := do
  return { d with current := ← d.current.assign .opened path key node }

end Draft

end Cadence.Toml
