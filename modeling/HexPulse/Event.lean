import HexPulse.Effect
import HexPulse.Kind
import HexPulse.NodeState
import HexPulse.Table

/-!
# HexPulse — Event

What is reported about a running world.  Every event is an entry of a journal, under the number
of the frame in which it happened.
-/

namespace HexPulse

variable {α : Type}

/-- The state of a world at the end of a frame, with rounded times and healths. -/
structure Status (α : Type) where
  frame : Int
  time : α
  nodes : Nat
  /-- how many nodes are in each phase, phases in the order in which they are met -/
  phases : Table Phase Nat
  hearts : List (Int × α)
  targets : Nat
  activeEffects : Nat
  gameOver : Bool
  deriving Repr

inductive Event (α : Type) where
  | heartDestroyed (heart : Int) (cell : Hex)
  | nodesStalled (nodes : List Int)
  | heartbeat (heart beat : Int) (period health : α) (requested : Nat)
  | nodeDone (node : Int) (kind : Kind) (state : NodeState α)
  | effect (effect : Effect α)
  | terrainPlaced (terrain source : Int) (cell : Hex)
  | targetKilled (target : Int)
  | frame (status : Status α)
  deriving Repr

/-- An event with the frame in which it happened. -/
structure Entry (α : Type) where
  frame : Int
  event : Event α
  deriving Repr

/-- The fields of a status behind its frame. -/
def Status.fields (s : Status α) : List (String × Data α) := [
  ("time", .number s.time),
  ("nodes", .int s.nodes),
  ("phases", .record (s.phases.entries.map fun e => (e.1.name, .int e.2))),
  ("hearts", .map (s.hearts.map fun h => (.int h.1, .number h.2))),
  ("targets", .int s.targets),
  ("active_effects", .int s.activeEffects),
  ("game_over", .bool s.gameOver)]

/-- A status as plain data. -/
def Status.toData (s : Status α) : Data α := .record (("frame", .int s.frame) :: s.fields)

namespace Event

/-- The name that an event is logged by. -/
def name : Event α → String
  | .heartDestroyed .. => "HEART_DESTROYED"
  | .nodesStalled _ => "NODES_STALLED"
  | .heartbeat .. => "HEARTBEAT"
  | .nodeDone .. => "NODE_DONE"
  | .effect _ => "EFFECT"
  | .terrainPlaced .. => "TERRAIN_PLACED"
  | .targetKilled _ => "TARGET_KILLED"
  | .frame _ => "FRAME"

/-- The fields of an event. -/
def fields : Event α → List (String × Data α)
  | .heartDestroyed heart cell => [("heart", .int heart), ("q", .int cell.q), ("r", .int cell.r)]
  | .nodesStalled nodes => [("nodes", .list (nodes.map .int))]
  | .heartbeat heart beat period health requested => [
    ("heart", .int heart), ("beat", .int beat), ("period", .number period),
    ("health", .number health), ("requested", .int requested)]
  | .nodeDone node kind state =>
    [("node", .int node), ("kind", .text kind.name), ("state", state.toData)]
  | .effect e => e.payload
  | .terrainPlaced terrain source cell => [
    ("terrain", .int terrain), ("source", .int source), ("q", .int cell.q), ("r", .int cell.r)]
  | .targetKilled target => [("target", .int target)]
  | .frame status => status.fields

end Event

/-- The fields of a journal entry: its frame, the name of its event, and the event's own. -/
def Entry.fields (e : Entry α) : List (String × Data α) :=
  ("frame", .int e.frame) :: ("type", .text e.event.name) :: e.event.fields

end HexPulse
