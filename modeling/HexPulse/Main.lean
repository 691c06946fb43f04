import HexPulse.CommandLine
import HexPulse.Scalar.Double
import Std.Time

/-!
# HexPulse — Main

The program: it reads the files that a command needs, runs the command, and carries its report
out.
-/

namespace HexPulse

/-- The text of a file; nothing if it cannot be read. -/
def fileText? (path : String) : IO (Option String) := do
  try
    return some (← IO.FS.readFile path)
  catch _ => return none

/-- The variables of the environment. -/
def environmentVariables : IO (List (String × String)) := do
  let text := (← fileText? "/proc/self/environ").getD ""
  return (text.splitOn (String.singleton (Char.ofNat 0))).map fun entry =>
    let cs := entry.toList
    (String.ofList (cs.takeWhile (· ≠ '=')), String.ofList (cs.dropWhile (· ≠ '=')).tail)

/-- The time at which the program runs, down to the second. -/
def currentTime : IO String := do
  let now ← Std.Time.Timestamp.now
  return (Std.Time.DateTime.ofTimestamp now .UTC).format "uuuuMMdd'T'HHmmss'Z'"

/-- Does what a report asks for. -/
def carryOut : FileAction → IO Unit
  | .makeFolder path true => IO.FS.createDirAll path
  | .makeFolder path false => do
    IO.FS.createDirAll (Path.parent path)
    IO.FS.createDir path
  | .write path text => IO.FS.writeFile path text

/-- Runs a command and carries its report out. -/
def perform (i : Invocation Float) : IO UInt32 := do
  let files ← i.command.reads.filterMapM fun path => return (← fileText? path).map (path, ·)
  let report := i.command.run (← currentTime) (← environmentVariables) fun path => files.lookup path
  for action in report.actions do
    carryOut action
    if i.verbose then IO.eprintln ("done: " ++ action.path)
  for line in report.lines do
    IO.println line
  if let some e := report.failure then IO.eprintln e.message
  return report.exitCode.toUInt32

end HexPulse

open HexPulse in
/-- The entry of the program. -/
def main (args : List String) : IO UInt32 := do
  match (Invocation.read args : Except UsageError (Invocation Float)) with
  | .error e =>
    IO.eprintln e.message
    return 2
  | .ok i => perform i
