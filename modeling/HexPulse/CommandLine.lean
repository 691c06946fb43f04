import HexPulse.Catalogue.Builtin
import HexPulse.CommandLine.Command
import HexPulse.Scenario.Starter
import HexPulse.Session

/-!
# HexPulse — CommandLine

The report of a command, as plain data: the lines that it prints, what it does to files, and why
it failed, if it did.  Files are read through a function; what is done to them is for whoever
carries the report out.
-/

namespace HexPulse

/-- Why a command failed. -/
inductive CommandError where
  | usage (error : UsageError)
  | unknownKind (error : UnknownKind)
  | rejected (error : LoadError)
  | stopped (error : SessionError)
  | file (error : FileError)
  deriving DecidableEq, Repr

namespace CommandError

/-- The exit code of a failure: two for what was asked wrongly, one for what went wrong. -/
def exitCode : CommandError → Nat
  | .usage _ => 2
  | .unknownKind _ => 2
  | .rejected (.unreadable ..) => 1
  | .rejected (.environment _) => 1
  | .rejected _ => 2
  | .stopped _ => 1
  | .file _ => 1

/-- The text shown for a failure. -/
def message : CommandError → String
  | .usage e => e.message
  | .unknownKind e => e.message
  | .rejected e => e.message
  | .stopped e => e.message
  | .file e => e.message

end CommandError

/-- What a command does. -/
structure Report where
  /-- the lines that are printed -/
  lines : List String
  /-- what is done to files before the lines are printed -/
  actions : List FileAction
  failure : Option CommandError
  deriving Repr

namespace Report

/-- Only lines are printed. -/
def printed (lines : List String) : Report := ⟨lines, [], none⟩

/-- Nothing is done but to fail. -/
def failed (e : CommandError) : Report := ⟨[], [], some e⟩

/-- The exit code of the program. -/
def exitCode (o : Report) : Nat := (o.failure.map CommandError.exitCode).getD 0

/-- The report behind a line. -/
def behind (line : String) (o : Report) : Report := { o with lines := line :: o.lines }

end Report

namespace Report

/-- Does to a tree of files what a report asks for.  Where that fails, nothing is printed. -/
def carryOut (o : Report) (t : FileTree) : FileTree × Report :=
  go t o.actions
where
  /-- Does one thing after the other. -/
  go (t : FileTree) : List FileAction → FileTree × Report
    | [] => (t, o)
    | a :: as =>
      match t.perform a with
      | .ok t => go t as
      | .error e => (t, .failed (.file e))

end Report

/-- The lines of data that is written out. -/
def Data.printedLines {α : Type} [Scalar α] (d : Data α) : List String :=
  d.jsonIndented.splitOn "\n"

namespace Command

variable {α : Type} [Scalar α]

/-- How the program is used. -/
def usage : List String := [
  "Usage: hexpulse [--verbose] COMMAND",
  "  kinds                       list the kinds of nodes",
  "  describe KIND               describe a kind and its ports",
  "  validate --scenario FILE    check scenarios",
  "  init [--output FILE]        write a starter scenario",
  "  simulate --scenario FILE [--config FILE] [--frames N] [--dt SECONDS] [--seed N]",
  "           [--runs-root FOLDER]"]

/-- Describes a kind. -/
def runDescribe (catalogue : Catalogue) (kind : String) : Report :=
  match catalogue.find kind with
  | .error e => .failed (.unknownKind e)
  | .ok d => .printed (d.toData : Data α).printedLines

/-- Checks scenarios one after the other, up to the first one that is rejected. -/
def runValidate (rules : Rules) : List (String × String) → Report
  | [] => .printed []
  | (path, text) :: files =>
    match (Scenario.load rules text : Except LoadError (Scenario α)) with
    | .error e => .failed (.rejected e)
    | .ok _ => (runValidate rules files).behind ("valid scenario: " ++ Path.normal path)

/-- Writes the starter scenario. -/
def runInit (output : String) : Report where
  lines := ["starter scenario written: " ++ Path.normal output]
  actions := [.makeFolder (Path.parent output) true,
    .write (Path.normal output) (Scenario.starter : Data α).jsonIndented]
  failure := none

/-- Simulates a scenario and keeps the session. -/
def runSimulate (catalogue : Catalogue) (now : String) (environment : List (String × String))
    (s : Simulation α) (scenario : String) (config : Option String) : Report :=
  match Session.start catalogue ⟨scenario, config, environment, s.frames, s.dt, s.seed⟩ with
  | .error e => .failed (.rejected e)
  | .ok session =>
    match session.kept s.runsRoot now with
    | .error e => .failed (.file e)
    | .ok (path, actions) =>
      match session.outcome with
      | .error e => ⟨[], actions, some (.stopped e)⟩
      | .ok summary => ⟨summary.toData.printedLines ++ ["Run completed: " ++ path], actions, none⟩

/-- Runs a command at a time, with the files that it reads. -/
def runWith (now : String) (environment : List (String × String)) (files : List (String × String))
    (c : Command α) : Report :=
  let catalogue := Catalogue.builtin
  match c with
  | .help => .printed usage
  | .kinds => .printed catalogue.names
  | .describe kind => runDescribe (α := α) catalogue kind
  | .validate _ =>
    let radius := (GridSettings.standard : GridSettings α).radius
    runValidate (α := α) ⟨catalogue.contracts, radius⟩ files
  | .init output => runInit (α := α) output
  | .simulate s =>
    runSimulate catalogue now environment s ((files.lookup s.scenario).getD "")
      (s.config.bind fun path => files.lookup path)

/-- The texts of some files, or the first one that is not there. -/
def readFiles (read : String → Option String) :
    List String → Except UsageError (List (String × String))
  | [] => .ok []
  | path :: paths =>
    match read path with
    | none => .error (.missingFile path)
    | some text => (readFiles read paths).map ((path, text) :: ·)

/-- Runs a command.  All files that it reads have to be there before anything is done. -/
def run (now : String) (environment : List (String × String)) (read : String → Option String)
    (c : Command α) : Report :=
  match readFiles read c.reads with
  | .error e => .failed (.usage e)
  | .ok files => c.runWith now environment files

end Command

end HexPulse
