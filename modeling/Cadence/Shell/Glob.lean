import Cadence.Shell.Pattern
import Cadence.Shell.State

/-!
Patterns for names of files. Each part of a path is a pattern of its own, because a star does not reach
beyond a slash. A path that no file answers to stays as it was written.
-/

namespace Cadence.Shell

/-- The characters of a field, each with whether it may have a meaning in a pattern. -/
abbrev Field := List (Char × Bool)

namespace Field

def text (f : Field) : String := .ofList (f.map (·.1))

def isPattern (f : Field) : Bool := f.any fun (c, isActive) => isActive && "*?[".toList.contains c

def parts (f : Field) : List Field :=
  f.foldr (fun c parts =>
    if c.1 = '/' then [] :: parts else (c :: parts.headD []) :: parts.drop 1) [[]]

end Field

namespace Glob

/-- The names in a directory that a part of a path stands for. Those that start with a dot have to be
asked for. -/
def names (s : State) (directory : String) (part : Field) : List String :=
  if !part.isPattern then [part.text]
  else match s.find (if directory = "" then "." else directory) with
    | .ok (p, .directory) =>
      ("." :: ".." :: Files.entries s.places p).filter fun name =>
        (!name.startsWith "." || part.text.startsWith ".") &&
          (Pattern.ofChars part).accepts name.toList
    | _ => []

def paths (s : State) : String → List Field → List String
  | start, [] => [start]
  | start, part :: rest =>
    (names s start part).flatMap fun name =>
      paths s (start ++ name ++ if rest.isEmpty then "" else "/") rest

/-- The files that a field stands for, or the field itself. -/
def expand (s : State) (f : Field) : List String :=
  if s.options.contains 'f' || !f.isPattern then [f.text]
  else
    let found := (paths s "" f.parts).filter fun path => (s.find path).isOk
    if found.isEmpty then [f.text] else found

end Glob

end Cadence.Shell
