import HexPulse.Hex
import HexPulse.Scalar

/-!
# HexPulse — Hex — Layout

Where cells lie in the world.  Cells have a flat top; a layout is given by the size of a cell.
`Hex.nearest` is the cell that contains a fractional coordinate, `Hex.line` the cells on the
straight line between two cells.
-/

namespace HexPulse

variable {α : Type} [Scalar α]

/-- The cell of a fractional coordinate.  All three cube coordinates are rounded, and the one
that moved farthest is computed again from the other two. -/
def Hex.nearest (q r : α) : Except Fault Hex := do
  let s := -q - r
  let nq ← Scalar.round q
  let nr ← Scalar.round r
  let ns ← Scalar.round s
  let dq := Scalar.abs (Scalar.ofInt nq - q)
  let dr := Scalar.abs (Scalar.ofInt nr - r)
  let ds := Scalar.abs (Scalar.ofInt ns - s)
  if dr < dq ∧ ds < dq then return ⟨-nr - ns, nr⟩
  else if ds < dr then return ⟨nq, -nq - ns⟩
  else return ⟨nq, nr⟩

/-- The nudge that keeps the points of a line off the edges between cells. -/
def Hex.nudge : α := 1e-6

/-- The cells that `cell` names for `count` numbers from `first` on, behind the cells that were
found before, which are given from the last to the first.  It stops at the first fault, however
many numbers there are. -/
def Hex.sample (cell : Nat → Except Fault Hex) : Nat → Nat → List Hex → Except Fault (List Hex)
  | 0, _, found => .ok found.reverse
  | count + 1, first, found =>
    match cell first with
    | .ok c => sample cell count (first + 1) (c :: found)
    | .error f => .error f

/-- The cells on the line from `a` to `b`, both ends included.  The points between the two
centres are evenly spaced, as many as there are steps. -/
def Hex.line (α : Type) [Scalar α] (a b : Hex) : Except Fault (List Hex) := do
  let steps := a.distance b
  if steps = 0 then return [a]
  let aq := (← Scalar.convert a.q) + (nudge : α)
  let ar := (← Scalar.convert a.r) + (nudge : α)
  let bq := (← Scalar.convert b.q) + (nudge : α)
  let br := (← Scalar.convert b.r) + (nudge : α)
  let n : α ← Scalar.convert steps
  let cell (i : Nat) :=
    let i : α := Scalar.ofInt i
    Hex.nearest (aq + (bq - aq) * i / n) (ar + (br - ar) * i / n)
  Hex.sample cell (steps + 1) 0 []

/-- A sample holds what was found before, and then the cells of the numbers in their order. -/
theorem Hex.sample_eq_mapM (cell : Nat → Except Fault Hex) (count first : Nat) (found : List Hex) :
    Hex.sample cell count first found =
      ((List.range' first count).mapM cell).map (found.reverse ++ ·) := by
  induction count generalizing first found with
  | zero => simp [sample, List.range', pure, Except.pure, Except.map]
  | succ count ih =>
    cases h : cell first with
    | error f => simp [sample, h, List.range', bind, Except.bind, Except.map]
    | ok c =>
      rw [sample, h]
      simp only [ih, List.range'_succ, List.mapM_cons, h]
      cases (List.range' (first + 1) count).mapM cell <;>
        simp [bind, Except.bind, pure, Except.pure, Except.map]

/-- The size of the cells of a board. -/
structure Layout (α : Type) where
  hexSize : α
  deriving Repr

namespace Layout

/-- The world point of a fractional coordinate. -/
def pointOf (l : Layout α) (q r : α) : Point α :=
  ⟨l.hexSize * 1.5 * q, l.hexSize * Scalar.sqrtThree * (r + q / 2.0)⟩

/-- The world point of the centre of a cell. -/
def centre (l : Layout α) (c : Hex) : Except Fault (Point α) := do
  let q ← Scalar.convert c.q
  let r ← Scalar.convert c.r
  return l.pointOf q r

/-- The fractional coordinate of a world point. -/
def coordinates (l : Layout α) (p : Point α) : Except Fault (α × α) := do
  let q ← Scalar.divide (2.0 / 3.0 * p.x) l.hexSize
  let r ← Scalar.divide (-1.0 / 3.0 * p.x + Scalar.sqrtThree / 3.0 * p.y) l.hexSize
  return (q, r)

/-- The cell that contains a world point. -/
def cellAt (l : Layout α) (p : Point α) : Except Fault Hex := do
  let (q, r) ← l.coordinates p
  Hex.nearest q r

end Layout

end HexPulse
