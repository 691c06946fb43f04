import HexPulse.Data
import HexPulse.Scalar

/-!
# HexPulse — Scenario — Starter

A small board to begin with: a heart, a turret, a chain that calls orbital strikes, and one
target on its way to the heart.
-/

namespace HexPulse.Scenario

variable {α : Type}

/-- The fields of a starter node. -/
def starterNode (id kind : String) (q r : Int) (more : List (String × Data α)) : Data α :=
  .record ([("id", .text id), ("kind", .text kind), ("q", .int q), ("r", .int r)] ++ more)

/-- One binding. -/
def starterWiring (direction port : String) : List (String × Data α) :=
  [("wiring", .record [(direction, .text port)])]

/-- The starter scenario as data. -/
def starter : Data α := .record [
  ("name", .text "starter"),
  ("hearts", .list [.record [("q", .int 0), ("r", .int 0)]]),
  ("nodes", .list [
    starterNode "closest" "ClosestEntity" 0 1 [],
    starterNode "lazor" "Lazor" 0 2 (starterWiring "north" "target"),
    starterNode "position" "EntityPosition" (-1) 1 (starterWiring "south_east" "target"),
    starterNode "orbital" "Orbital" (-1) 2 (starterWiring "north" "target"),
    starterNode "three" "ConstantNumber" 1 0 [("constant", .int 3)],
    starterNode "debug" "Debug" 1 1 (starterWiring "north" "a")]),
  ("targets", .list [.record [
    ("q", .int 0),
    ("r", .int 6),
    ("health", .int 30),
    ("path", .list [.pair 0 5, .pair 0 4, .pair 0 3, .pair 0 2, .pair 0 1, .pair 0 0])]]),
  ("terrain", .list [.record [("q", .int 3), ("r", .int (-3))]])]

end HexPulse.Scenario
