import HexPulse.Hex
import HexPulse.Table

/-!
# HexPulse — Hex — Region

A region holds one entry for every cell within a radius of a centre, column by column.
-/

namespace HexPulse

/-- The integers from `low` to `high`, ascending. -/
def intRange (low high : Int) : List Int :=
  (List.range (high - low + 1).toNat).map fun (n : Nat) => low + n

/-- The cells within a radius of a centre, column by column. -/
def Hex.disc (center : Hex) (radius : Int) : List Hex :=
  (intRange (-radius) radius).flatMap fun dq =>
    (intRange (max (-radius) (-dq - radius)) (min radius (-dq + radius))).map fun dr =>
      ⟨center.q + dq, center.r + dr⟩

/-- An entry for each cell within a radius. -/
structure Region (β : Type) where
  center : Hex
  radius : Int
  cells : Table Hex β
  deriving Repr

namespace Region

variable {β : Type}

/-- The region whose entries are computed from their cells. -/
def ofFn (center : Hex) (radius : Int) (f : Hex → β) : Region β where
  center := center
  radius := radius
  cells := ⟨(center.disc radius).map fun c => (c, f c)⟩

/-- The cell is at most the radius away from the centre. -/
def inBounds (m : Region β) (c : Hex) : Bool := (c.distance m.center : Int) ≤ m.radius

def get? (m : Region β) (c : Hex) : Option β := m.cells.get? c

def contains (m : Region β) (c : Hex) : Bool := m.cells.contains c

/-- The same entries, with the one of a cell changed if the region holds it. -/
def put (m : Region β) (c : Hex) (v : β) : Region β :=
  { m with cells := m.cells.modify c fun _ => v }

/-- The refusal of a cell that a region does not hold. -/
structure Outside where
  cell : Hex
  deriving DecidableEq, Repr

/-- The text shown for a refusal. -/
def Outside.message (e : Outside) : String := s!"cell {e.cell.text} is out of bounds"

/-- The entry of a cell, refused for a cell that the region does not hold. -/
def entry (m : Region β) (c : Hex) : Except Outside β :=
  match m.get? c with
  | some v => .ok v
  | none => .error ⟨c⟩

/-- Writes the entry of a cell, refused for a cell that the region does not hold. -/
def assign (m : Region β) (c : Hex) (v : β) : Except Outside (Region β) :=
  if m.contains c then .ok (m.put c v) else .error ⟨c⟩

end Region

end HexPulse
