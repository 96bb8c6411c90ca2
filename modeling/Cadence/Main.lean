import Cadence.Launcher.Launch
import Cadence.Scheduling.Linux
import Cadence.Shell.Run

/-!
The launcher's command line. The configuration file is a real one; the schedule goes to a Linux machine
on which nothing is privileged, and the command to the small shell.
-/

namespace Cadence.Launcher

def readSource (path : String) : IO Config.Source := do
  try
    return .bytes (← IO.FS.readBinFile path).toList
  catch
    | .noFileOrDirectory .. => return .missing
    | _ => return .unreadable

/-- The one file that a request names. -/
def sourceFor (words : List String) : IO Config.Source :=
  match (Request.parse words).toOption.bind (·.config) with
  | some path => readSource path
  | none => pure .missing

def surroundings (source : Config.Source) : Surroundings where
  host := .linux 4 false true
  thread := Host.newThread 4
  file _ := source
  shell := Shell.runCommand

def Output.print (json : Bool) : Output → IO Unit
  | .log line => IO.println (if json then line.json else line.compact)
  | .text s => IO.print s

end Cadence.Launcher

def main (words : List String) : IO UInt32 := do
  let source ← Cadence.Launcher.sourceFor words
  let launch := Cadence.Launcher.launch (Cadence.Launcher.surroundings source) words
  launch.output.forM (Cadence.Launcher.Output.print (Cadence.Launcher.wantsJson words))
  return .ofNat launch.status
