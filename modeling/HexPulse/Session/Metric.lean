import HexPulse.Event

/-!
# HexPulse — Session — Metric

What is measured at the end of each frame: how much is on the board, how the weakest heart is,
and how many nodes are in each phase.
-/

namespace HexPulse

variable {α : Type} [Scalar α]

/-- A measured value. -/
structure Metric (α : Type) where
  step : Int
  name : String
  value : Data α
  metadata : Data α
  deriving Repr

/-- Some values of one step.  Metadata that says nothing is an empty record. -/
def Metric.ofValues (step : Int) (values : Table String (Data α)) (metadata : Data α) :
    List (Metric α) :=
  let metadata := if metadata.isVoid then .record [] else metadata
  values.entries.map fun (name, value) => ⟨step, name, value, metadata⟩

omit [Scalar α] in
/-- A metric as plain data, with the time at which it was written. -/
def Metric.toData (now : String) (m : Metric α) : Data α := .record [
  ("timestamp", .text now),
  ("step", .int m.step),
  ("metric_name", .text m.name),
  ("value", m.value),
  ("metadata", m.metadata)]

namespace Status

/-- The health of the weakest heart; zero if there is none. -/
def minHeartHealth (s : Status α) : α :=
  match s.hearts.map (·.2) with
  | [] => 0.0
  | h :: hs => hs.foldl Scalar.lesser h

/-- What is measured in a frame. -/
def values (s : Status α) : Table String (Data α) :=
  let phases := s.phases.entries.map fun (phase, count) => ("phase." ++ phase.name, Data.int count)
  .ofList ([
    ("nodes", .int s.nodes),
    ("targets", .int s.targets),
    ("active_effects", .int s.activeEffects),
    ("min_heart_health", .number s.minHeartHealth)] ++ phases)

/-- The metrics of a frame. -/
def metrics (s : Status α) : List (Metric α) :=
  Metric.ofValues s.frame s.values (.record [("time", .number s.time)])

end Status

/-- The metrics of a journal entry; only the end of a frame has any. -/
def Entry.metrics (e : Entry α) : List (Metric α) :=
  match e.event with
  | .frame status => status.metrics
  | _ => []

end HexPulse
