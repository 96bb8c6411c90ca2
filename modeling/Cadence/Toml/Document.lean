import Cadence.Toml.Statement

/-!
Documents: statements in order, put together into one table. A document is refused as a whole if one
statement is misspelled or gives a name a second meaning.
-/

namespace Cadence.Toml

def Draft.apply (d : Draft) : Statement → Option Draft
  | .opens path key => d.openTable path key
  | .appends path key => d.openNext path key
  | .assigns path key node => d.assign path key node

def build (parts : List Statement) : Option Table := do
  let d ← parts.foldlM Draft.apply {}
  return tableOf (← d.close)

/-- A byte order mark may stand in front of the document. -/
def dropMark : List Char → List Char
  | '\ufeff' :: r => r
  | cs => cs

def parse? (s : String) : Option Table := do
  let cs := dropMark s.toList
  build (← (statements (cs.length + 1)).whole? cs)

end Cadence.Toml
