import HexPulse.Hex.Layout
import HexPulse.Table

/-!
# HexPulse — Target

Targets walk along their paths, from waypoint to waypoint, as far as their speed takes them in
the time.  `Targets` holds those that were added and not dropped yet; the ids are issued in
ascending order and never again.  A target whose health is used up is kept until it is reaped,
but no look-up finds it.
-/

namespace HexPulse

variable {α : Type} [Scalar α]

/-- A hostile target. -/
structure Target (α : Type) where
  id : Int
  position : Point α
  health : α
  path : List Hex
  /-- the place in the path of the next cell to walk to -/
  waypoint : Int
  speed : α
  deriving Repr

namespace Target

def alive (t : Target α) : Bool := (0.0 : α) < t.health

/-- The cell at a place of the path; a negative place counts from the end. -/
def cellOnPath (t : Target α) (place : Int) : Except Fault Hex := memberAt t.path place

/-- The cell that the target walks to, its last one where the whole path is behind it; nothing
for a target without a path. -/
def nextWaypoint (t : Target α) : Except Fault (Option Hex) :=
  if t.path.isEmpty then .ok none
  else (t.cellOnPath (min t.waypoint (t.path.length - 1))).map some

/-- A waypoint is reached when it is closer than this. -/
def arrival : α := 0.1

/-- The target after a straight move by `step` towards a point at a distance. -/
def moved (t : Target α) (goal : Point α) (distance step : α) : Target α :=
  let x := t.position.x + (goal.x - t.position.x) / distance * step
  let y := t.position.y + (goal.y - t.position.y) / distance * step
  { t with position := ⟨x, y⟩ }

/-- Walks along the path until the budget of distance is used up.  Each round either passes a
waypoint or moves towards it. -/
def walk (l : Layout α) : Nat → α → Target α → Progress (Target α)
  | 0, _, t => .done t
  | rounds + 1, budget, t =>
    if (0.0 : α) < budget ∧ t.waypoint < t.path.length then
      match t.cellOnPath t.waypoint >>= l.centre with
      | .error f => .halt t f
      | .ok goal =>
        let distance := t.position.distance goal
        if distance < arrival then walk l rounds budget { t with waypoint := t.waypoint + 1 }
        else
          let step := Scalar.lesser budget distance
          walk l rounds (budget - step) (t.moved goal distance step)
    else .done t

/-- More rounds than a walk takes: two for each waypoint ahead are enough where a move over the
full distance arrives, and the rest is for moves that miss by a rounding error. -/
def roundsFor (t : Target α) : Nat := 64 * (t.path.length - t.waypoint).toNat + 1024

/-- The target after some time on its path. -/
def follow (l : Layout α) (dt : α) (t : Target α) : Progress (Target α) :=
  t.walk l t.roundsFor (t.speed * dt)

end Target

/-- The targets by id, and the next id. -/
structure Targets (α : Type) where
  table : Table Int (Target α)
  nextId : Int
  deriving Repr

namespace Targets

def empty : Targets α := ⟨.empty, 1⟩

/-- The targets that are alive, in the order in which they were added. -/
def live (ts : Targets α) : List (Target α) := ts.table.values.filter Target.alive

/-- The live target of an id. -/
def get? (ts : Targets α) (id : Int) : Option (Target α) := (ts.table.get? id).filter Target.alive

/-- Adds a target at a point, at the start of its path. -/
def add (ts : Targets α) (position : Point α) (health : α) (path : List Hex) (speed : α) :
    Target α × Targets α :=
  let t : Target α := ⟨ts.nextId, position, health, path, 0, speed⟩
  (t, ⟨ts.table.insert ts.nextId t, ts.nextId + 1⟩)

/-- Adds a target at the centre of a cell. -/
def addAt (ts : Targets α) (l : Layout α) (cell : Hex) (health : α) (path : List Hex) (speed : α) :
    Except Fault (Target α × Targets α) := do
  let centre ← l.centre cell
  return ts.add centre health path speed

/-- Drops the target of an id. -/
def remove (ts : Targets α) (id : Int) : Targets α := { ts with table := ts.table.erase id }

/-- Takes health from the live target of an id, if there is one. -/
def damage (ts : Targets α) (id : Int) (amount : α) : Targets α :=
  { ts with table := ts.table.modify id fun t =>
      if t.alive then { t with health := t.health - amount } else t }

/-- The live targets at most a radius away from a point. -/
def within (ts : Targets α) (center : Point α) (radius : α) : List (Target α) :=
  ts.live.filter fun t => center.distance t.position ≤ radius

/-- The targets whose health is used up. -/
def dead (ts : Targets α) : List (Target α) := ts.table.values.filter fun t => !t.alive

/-- Drops the targets whose health is used up. -/
def reap (ts : Targets α) : Targets α := { ts with table := ts.table.filter fun _ t => t.alive }

/-- Lets every live target walk on for some time. -/
def follow (ts : Targets α) (l : Layout α) (dt : α) : Progress (Targets α) :=
  (Progress.each (fun e => if e.2.alive then (e.2.follow l dt).map (e.1, ·) else .done e)
    ts.table.entries).map fun entries => { ts with table := ⟨entries⟩ }

end Targets

end HexPulse
