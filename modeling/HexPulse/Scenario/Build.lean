import HexPulse.Scenario
import HexPulse.World

/-!
# HexPulse — Scenario — Build

A scenario made into a world: hearts, terrain, nodes with their wiring, targets, in this order.
-/

namespace HexPulse

/-- Why a scenario cannot be made into a world. -/
inductive BuildError where
  /-- random numbers do not start from a seed below zero -/
  | negativeSeed
  | refused (refusal : Refusal)
  | fault (fault : Fault)
  deriving DecidableEq, Repr

/-- The text shown for a scenario that cannot be made into a world. -/
def BuildError.message : BuildError → String
  | .negativeSeed => "expected non-negative integer"
  | .refused e => e.message
  | .fault e => e.message

/-- A world made from a scenario, and the ids of its nodes. -/
structure Built (α : Type) where
  world : World α
  ids : Table String Int

namespace Scenario

variable {α : Type} [Scalar α]

/-- Places hearts. -/
def buildHearts (b : Board α) (cells : List Hex) : Except Refusal (Board α) :=
  cells.foldlM (fun b c => ((b.placeHeart c).mapError .board).map (·.2)) b

/-- Places terrain. -/
def buildTerrain (b : Board α) (cells : List Hex) : Except Refusal (Board α) :=
  cells.foldlM (fun b c => ((b.placeTerrain c none).mapError .board).map (·.2)) b

/-- Places a node, binds its ports and gives it its constant. -/
def buildNode (b : Board α) (n : NodeSpec α) : Except Refusal (Int × Board α) := do
  let (node, b) ← b.placeNode n.cell n.kind
  let b ← n.wiring.entries.foldlM (fun b e => b.bind node.id e.1 e.2) b
  match n.constant with
  | none => return (node.id, b)
  | some v => return (node.id, ← b.setConstant node.id (some v))

/-- Places nodes and notes their ids. -/
def buildNodes : List (NodeSpec α) → Board α → Table String Int →
    Except Refusal (Board α × Table String Int)
  | [], b, ids => .ok (b, ids)
  | n :: ns, b, ids => do
    let (id, b) ← buildNode b n
    buildNodes ns b (ids.insert n.id id)

/-- Adds targets. -/
def buildTargets (w : World α) (targets : List (TargetSpec α)) : Except Fault (World α) :=
  targets.foldlM (fun w t => (w.addTarget t.cell t.health t.path).map (·.2)) w

/-- The world of a scenario. -/
def build (catalogue : Catalogue) (settings : Settings α) (draws : Draws α) (s : Scenario α) :
    Except BuildError (Built α) := do
  if settings.seed < 0 then throw .negativeSeed
  let w := World.new catalogue settings draws
  let b ← (buildHearts w.board s.hearts).mapError .refused
  let b ← (buildTerrain b s.terrain).mapError .refused
  let (b, ids) ← (buildNodes s.nodes b .empty).mapError .refused
  let w ← (buildTargets { w with board := b } s.targets).mapError .fault
  return ⟨w, ids⟩

end Scenario

end HexPulse
