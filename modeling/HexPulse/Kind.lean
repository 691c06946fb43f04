/-!
# HexPulse — Kind

The kinds of nodes.  A kind selects what a node computes; what ports it has is written in the
catalogue.
-/

namespace HexPulse

inductive Kind where
  | constantNumber
  | closestEntity
  | nearbyEntities
  | entityPosition
  | entityDirection
  | vectorCreate
  | vectorNegate
  | vectorLength
  | vectorMultiply
  | numberMultiply
  | numberSubtract
  | listConstruct
  | listLength
  | lazor
  | rocketLauncher
  | orbital
  | plasma
  | shock
  | projectTile
  | storage
  | debug
  deriving DecidableEq, Repr

namespace Kind

/-- All kinds: sources, arithmetic, weapons, utility. -/
def all : List Kind :=
  [.constantNumber, .closestEntity, .nearbyEntities, .entityPosition, .entityDirection,
   .vectorCreate, .vectorNegate, .vectorLength, .vectorMultiply, .numberMultiply,
   .numberSubtract, .listConstruct, .listLength, .lazor, .rocketLauncher, .orbital, .plasma,
   .shock, .projectTile, .storage, .debug]

theorem mem_all (k : Kind) : k ∈ all := by cases k <;> decide

def name : Kind → String
  | .constantNumber => "ConstantNumber"
  | .closestEntity => "ClosestEntity"
  | .nearbyEntities => "NearbyEntities"
  | .entityPosition => "EntityPosition"
  | .entityDirection => "EntityDirection"
  | .vectorCreate => "VectorCreate"
  | .vectorNegate => "VectorNegate"
  | .vectorLength => "VectorLength"
  | .vectorMultiply => "VectorMultiply"
  | .numberMultiply => "NumberMultiply"
  | .numberSubtract => "NumberSubtract"
  | .listConstruct => "ListConstruct"
  | .listLength => "ListLength"
  | .lazor => "Lazor"
  | .rocketLauncher => "RocketLauncher"
  | .orbital => "Orbital"
  | .plasma => "Plasma"
  | .shock => "Shock"
  | .projectTile => "ProjectTile"
  | .storage => "Storage"
  | .debug => "Debug"

/-- The kind of a name. -/
def ofName? (s : String) : Option Kind := all.find? fun k => k.name = s

end Kind

end HexPulse
