import HexPulse.Data
import HexPulse.Hex
import HexPulse.Scalar

/-!
# HexPulse — Effect

What nodes ask of the world when they fire.  Effects are collected while the nodes of a pass
fire, and carried out afterwards in the order in which they were asked for.
-/

namespace HexPulse

/-- A request to the world. -/
inductive Effect (α : Type) where
  /-- takes health from a target at once -/
  | damage (target : Int) (amount : α)
  /-- shows a beam from a cell to a target -/
  | beam (origin : Hex) (target : Int)
  | rocket (origin : Hex) (direction : α × α)
  | strike (cell : Hex) (delay : α)
  | plasma (center : Point α) (charge : Int)
  /-- shows bolts from a cell to targets -/
  | shock (origin : Hex) (targets : List Int)
  | terrain (cell : Hex) (source : Int)
  | log (node : Int) (values : List (Data α))
  deriving Repr

namespace Effect

variable {α : Type}

/-- The name that an effect is shown by. -/
def name : Effect α → String
  | .damage .. => "Damage"
  | .beam .. => "LaserBeam"
  | .rocket .. => "RocketLaunch"
  | .strike .. => "OrbitalStrike"
  | .plasma .. => "PlasmaZone"
  | .shock .. => "ShockLinks"
  | .terrain .. => "PlaceTerrain"
  | .log .. => "DebugLog"

/-- A cell as data. -/
def cellData (c : Hex) : Data α := .pair c.q c.r

/-- The fields of an effect as plain data. -/
def fields : Effect α → List (String × Data α)
  | .damage target amount => [("target", .int target), ("amount", .number amount)]
  | .beam origin target => [("origin", cellData origin), ("target", .int target)]
  | .rocket origin direction =>
    [("origin", cellData origin), ("direction", .tuple [.number direction.1, .number direction.2])]
  | .strike cell delay => [("cell", cellData cell), ("delay", .number delay)]
  | .plasma center charge =>
    [("center", .tuple [.number center.x, .number center.y]), ("charge", .int charge)]
  | .shock origin targets =>
    [("origin", cellData origin), ("targets", .tuple (targets.map .int))]
  | .terrain cell source => [("cell", cellData cell), ("source", .int source)]
  | .log node values => [("node", .int node), ("values", .tuple values)]

/-- The name and the fields of an effect. -/
def payload (e : Effect α) : List (String × Data α) := ("effect", .text e.name) :: e.fields

end Effect

end HexPulse
