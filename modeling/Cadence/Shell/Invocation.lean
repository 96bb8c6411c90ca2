import Cadence.Shell.Settings

/-!
How a shell is started: options in front, and then a command, the name of a file with commands, or
nothing, in which case it reads its input.
-/

namespace Cadence.Shell

inductive Source where
  | command (text : String)
  | file (path : String)
  | input
  deriving DecidableEq

structure Invocation where
  source : Source
  name : String
  arguments : List String
  options : List Char
  shown : String

namespace Invocation

/-- Reads the words behind the name of a shell. One that cannot start still shows what it was asked
for. -/
def read (name : String) (words : List String) : Except String Invocation :=
  let r := Settings.read true [] words
  let options := r.settings.applied []
  let start (source : Source) (name : String) (arguments : List String) :
      Except String Invocation :=
    .ok { source, name, arguments, options, shown := r.shown }
  match r.complaint, r.takesCommand, r.rest with
  | some _, _, _ | none, true, [] => .error r.shown
  | none, true, text :: rest => start (.command text) (rest.headD name) (rest.drop 1)
  | none, false, [] => start .input name []
  | none, false, file :: rest =>
    if options.contains 's' then start .input name (file :: rest) else start (.file file) file rest

end Invocation

end Cadence.Shell
