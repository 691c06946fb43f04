import HexPulse.Data.Outline
import HexPulse.FileTree
import HexPulse.Scenario.Build
import HexPulse.Session.Load
import HexPulse.Session.Log
import HexPulse.Session.Metric

/-!
# HexPulse — Session

A scenario played for some frames, and the files that are kept of it: what it was played with, a
log of its events, the metrics of its frames, and its summary.
-/

namespace HexPulse

variable {α : Type} [Scalar α]

/-- What a session is asked for. -/
structure SessionRequest (α : Type) where
  /-- the text of the scenario's document -/
  scenario : String
  /-- the text of the settings' document -/
  config : Option String
  environment : List (String × String)
  frames : Int
  dt : α
  seed : Option Int

/-- Why a session has no summary. -/
inductive SessionError where
  | notBuilt (error : BuildError)
  | halted (fault : Fault)
  deriving DecidableEq, Repr

/-- The text shown for a session without a summary. -/
def SessionError.message : SessionError → String
  | .notBuilt e => e.message
  | .halted e => e.message

/-- A session that was played. -/
structure Session (α : Type) where
  scenario : Scenario α
  settings : Settings α
  journal : List (Entry α)
  outcome : Except SessionError (Summary α)

namespace Session

/-- Plays a scenario. -/
def play (catalogue : Catalogue) (settings : Settings α) (s : Scenario α) (frames : Int) (dt : α) :
    Session α :=
  match s.build catalogue settings (.ofSeed settings.seed.toNat) with
  | .error e => ⟨s, settings, [], .error (.notBuilt e)⟩
  | .ok built =>
    let p := World.run dt frames.toNat built.world
    let outcome := match p.fault with
      | some f => .error (.halted f)
      | none => .ok p.state.summary
    ⟨s, settings, p.state.journal, outcome⟩

/-- Loads the documents of a request and plays the scenario. -/
def start (catalogue : Catalogue) (r : SessionRequest α) : Except LoadError (Session α) := do
  let settings ← Settings.load r.environment r.config r.seed
  let scenario ← Scenario.load ⟨catalogue.contracts, settings.grid.radius⟩ r.scenario
  return play catalogue settings scenario r.frames r.dt

/-- The name of the folder that keeps a session.  The scenario's name comes from a document, where
a character of two units is two halves, which no folder can be named by. -/
def folder (now : String) (s : Session α) : Except FileError String :=
  if s.scenario.name.toList.any Text.isHalved then .error .halfCharacter
  else .ok (now ++ "_" ++ s.scenario.name)

/-- The log of a session. -/
def records (now : String) (s : Session α) : List (LogRecord α) := s.journal.map (.ofEntry now)

/-- The lines of the log of a session. -/
def lines (now : String) (s : Session α) : List String :=
  (s.records now).map (LogRecord.line Text.quotedUnits)

def metrics (s : Session α) : List (Metric α) := s.journal.flatMap Entry.metrics

/-- A file of one line a piece; there is none without a piece. -/
def linesFile (name : String) : List String → List (String × String)
  | [] => []
  | lines => [(name, String.join (lines.map (· ++ "\n")))]

/-- The files of a session, by their names. -/
def files (now : String) (s : Session α) : List (String × String) :=
  [("config.yaml", s.settings.toData.outline), ("scenario.json", s.scenario.toData.jsonIndented)]
    ++ linesFile "events.log" (s.lines now)
    ++ linesFile "events.jsonl" ((s.records now).map fun r => r.toData.json)
    ++ linesFile "metrics.jsonl" (s.metrics.map fun m => (m.toData now).json)
    ++ (match s.outcome with
      | .ok summary => [("summary.json", summary.toData.jsonIndented)]
      | .error _ => [])

/-- Keeps a session in a new folder below a root: the path of the folder, and what is done. -/
def kept (root now : String) (s : Session α) : Except FileError (String × List FileAction) := do
  let path := Path.join root (← s.folder now)
  let writes := (s.files now).map fun (name, text) => FileAction.write (Path.join path name) text
  return (path, .makeFolder path false :: writes)

end Session

end HexPulse
