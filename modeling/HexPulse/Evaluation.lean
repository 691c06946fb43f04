import HexPulse.Evaluation.Acting
import HexPulse.Evaluation.Computing

/-!
# HexPulse — Evaluation

What each kind of node does when it fires.  An evaluation reads the board and changes nothing;
what it asks for is carried out by others.
-/

namespace HexPulse.Board

variable {α : Type} [Scalar α]

/-- The evaluation of a node on a board. -/
def evaluate (b : Board α) (n : Node α) : Evaluation α :=
  match n.kind with
  | .constantNumber => .quiet n (constantNumber n)
  | .closestEntity => .quiet n (b.closestEntity n)
  | .nearbyEntities => .quiet n (b.nearbyEntities n)
  | .entityPosition => .quiet n (b.entityPosition n)
  | .entityDirection => .quiet n (b.entityDirection n)
  | .vectorCreate => .quiet n (b.vectorCreate n)
  | .vectorNegate => .quiet n (b.vectorNegate n)
  | .vectorLength => .quiet n (b.vectorLength n)
  | .vectorMultiply => .quiet n (.ok (b.vectorMultiply n))
  | .numberMultiply => .quiet n (.ok (b.numberMultiply n))
  | .numberSubtract => .quiet n (.ok (b.numberSubtract n))
  | .listConstruct => .quiet n (.ok (b.listConstruct n))
  | .listLength => .quiet n (b.listLength n)
  | .storage => .quiet n (b.storage n)
  | .lazor => .acting n (b.lazor n)
  | .rocketLauncher => .acting n (b.rocketLauncher n)
  | .orbital => .acting n (b.orbital n)
  | .plasma => b.plasma n
  | .shock => .acting n (b.shock n)
  | .projectTile => .acting n (b.projectTile n)
  | .debug => .acting n (.ok (b.debug n))

end HexPulse.Board
