import HexPulse.Data
import HexPulse.Hex
import HexPulse.Table
import HexPulse.Value

/-!
# HexPulse — Scenario

A board as it is written down: nodes with their wiring, hearts, targets and terrain.
-/

namespace HexPulse

/-- A node of a scenario.  Its wiring is written in names. -/
structure NodeSpec (α : Type) where
  cell : Hex
  id : String
  kind : String
  /-- the name of a port by the name of a direction -/
  wiring : Table String String
  /-- a number or a text -/
  constant : Option (Value α)
  deriving Repr

/-- A target of a scenario. -/
structure TargetSpec (α : Type) where
  cell : Hex
  health : Option α
  path : List Hex
  deriving Repr

structure Scenario (α : Type) where
  name : String
  nodes : List (NodeSpec α)
  hearts : List Hex
  targets : List (TargetSpec α)
  terrain : List Hex
  deriving Repr

variable {α : Type}

/-- The scenario of an empty board. -/
def Scenario.blank : Scenario α := ⟨"scenario", [], [], [], []⟩

/-- The fields of a cell. -/
def Hex.fields (c : Hex) : List (String × Data α) := [("q", .int c.q), ("r", .int c.r)]

def NodeSpec.toData (n : NodeSpec α) : Data α :=
  .record (n.cell.fields ++ [
    ("id", .text n.id),
    ("kind", .text n.kind),
    ("wiring", .record (n.wiring.entries.map fun e => (e.1, .text e.2))),
    ("constant", (n.constant.map Value.toData).getD .null)])

def TargetSpec.toData (t : TargetSpec α) : Data α :=
  .record (t.cell.fields ++ [
    ("health", (t.health.map Data.number).getD .null),
    ("path", .list (t.path.map fun c => .pair c.q c.r))])

/-- A scenario as plain data. -/
def Scenario.toData (s : Scenario α) : Data α := .record [
  ("name", .text s.name),
  ("nodes", .list (s.nodes.map NodeSpec.toData)),
  ("hearts", .list (s.hearts.map fun c => .record c.fields)),
  ("targets", .list (s.targets.map TargetSpec.toData)),
  ("terrain", .list (s.terrain.map fun c => .record c.fields))]

end HexPulse
