/-!
# HexPulse — Hex

Cells of a hexagonal grid in axial coordinates.  The third cube coordinate is `s = -q - r`; the
distance of two cells is half the sum of the absolute differences of the three.  A walk goes
from neighbour to neighbour; `ring` is the walk around a cell at a distance.
-/

namespace HexPulse

/-- A cell. -/
@[ext] structure Hex where
  q : Int
  r : Int
  deriving DecidableEq, Repr, Inhabited

/-- The six edges of a cell, clockwise. -/
inductive Direction where
  | north
  | northEast
  | southEast
  | south
  | southWest
  | northWest
  deriving DecidableEq, Repr

namespace Direction

/-- All directions, clockwise from the north. -/
def all : List Direction := [.north, .northEast, .southEast, .south, .southWest, .northWest]

theorem mem_all (d : Direction) : d ∈ all := by cases d <;> decide

def name : Direction → String
  | .north => "north"
  | .northEast => "north_east"
  | .southEast => "south_east"
  | .south => "south"
  | .southWest => "south_west"
  | .northWest => "north_west"

/-- The direction of a name. -/
def ofName? (s : String) : Option Direction := all.find? fun d => d.name = s

/-- The cell that lies in a direction from the origin. -/
def offset : Direction → Hex
  | .north => ⟨0, -1⟩
  | .northEast => ⟨1, -1⟩
  | .southEast => ⟨1, 0⟩
  | .south => ⟨0, 1⟩
  | .southWest => ⟨-1, 1⟩
  | .northWest => ⟨-1, 0⟩

def opposite : Direction → Direction
  | .north => .south
  | .northEast => .southWest
  | .southEast => .northWest
  | .south => .north
  | .southWest => .northEast
  | .northWest => .southEast

end Direction

namespace Hex

def origin : Hex := ⟨0, 0⟩

/-- The third cube coordinate. -/
def s (c : Hex) : Int := -c.q - c.r

instance : Add Hex := ⟨fun a b => ⟨a.q + b.q, a.r + b.r⟩⟩
instance : Sub Hex := ⟨fun a b => ⟨a.q - b.q, a.r - b.r⟩⟩

@[simp] theorem q_add (a b : Hex) : (a + b).q = a.q + b.q := rfl
@[simp] theorem r_add (a b : Hex) : (a + b).r = a.r + b.r := rfl
@[simp] theorem q_sub (a b : Hex) : (a - b).q = a.q - b.q := rfl
@[simp] theorem r_sub (a b : Hex) : (a - b).r = a.r - b.r := rfl

/-- The cell stretched from the origin. -/
def scale (c : Hex) (k : Int) : Hex := ⟨c.q * k, c.r * k⟩

/-- The distance from the origin. -/
def length (c : Hex) : Nat := (c.q.natAbs + c.r.natAbs + c.s.natAbs) / 2

/-- The distance of two cells. -/
def distance (a b : Hex) : Nat := (a - b).length

/-- The cell across an edge. -/
def neighbor (c : Hex) (d : Direction) : Hex := c + d.offset

/-- The six cells around a cell, clockwise. -/
def neighbors (c : Hex) : List Hex := Direction.all.map c.neighbor

/-- The direction in which `b` lies next to `a`. -/
def directionTo? (a b : Hex) : Option Direction := Direction.all.find? fun d => d.offset = b - a

/-- The cells that a walk visits before each of its steps. -/
def walk : Hex → List Direction → List Hex
  | _, [] => []
  | c, d :: ds => c :: walk (c.neighbor d) ds

/-- Where a walk ends. -/
def walkEnd (c : Hex) (ds : List Direction) : Hex := ds.foldl neighbor c

/-- The cells around a cell at a distance, clockwise from the south-western corner; the cell
alone for a distance that is not positive. -/
def ring (c : Hex) (radius : Int) : List Hex :=
  if radius ≤ 0 then [c]
  else walk (c + Direction.southWest.offset.scale radius)
    (Direction.all.flatMap (List.replicate radius.toNat))

/-- The order by `q`, then by `r`. -/
def le (a b : Hex) : Bool := a.q < b.q || (a.q = b.q && a.r ≤ b.r)

/-- The text of a cell. -/
def text (c : Hex) : String := s!"({c.q}, {c.r})"

end Hex

end HexPulse
