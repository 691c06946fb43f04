import HexPulse.Evaluation.Reading

/-!
# HexPulse — Evaluation — Sensing

The nodes that see targets.  What they see is ordered by distance, equal distances by id.
-/

namespace HexPulse.Board

variable {α : Type} [Scalar α]

/-- The live target of an id. -/
def liveTarget (b : Board α) (id : Int) : Except PortError (Target α) :=
  match b.targets.get? id with
  | some t => .ok t
  | none => .error (.vanished s!"entity {id} no longer exists")

/-- A target in view, with its distance from the viewer. -/
structure Sighting (α : Type) where
  target : Target α
  cell : Hex
  distance : α

/-- The first sighting is nearer, or as near with a smaller id. -/
def Sighting.before (a b : Sighting α) : Bool :=
  a.distance < b.distance || (a.distance == b.distance && a.target.id < b.target.id)

/-- The order of sightings: none comes behind one that it is before. -/
def Sighting.le (a b : Sighting α) : Bool := !b.before a

/-- All live targets as they are seen from a node, in the order of the targets. -/
def sightings (b : Board α) (n : Node α) : Except Fault (List (Sighting α)) := do
  let origin ← b.layout.centre n.position
  b.targets.live.mapM fun t => do
    let cell ← b.layout.cellAt t.position
    return ⟨t, cell, origin.distance t.position⟩

/-- The targets that are few enough cells away from a node, the nearest first. -/
def inView (b : Board α) (n : Node α) (near : Nat → Bool) : Except Fault (List (Target α)) := do
  let seen ← b.sightings n
  let close := seen.filter fun s => near (n.position.distance s.cell)
  return (close.mergeSort Sighting.le).map (·.target)

/-- The nearest target within the range of the settings. -/
def closestEntity (b : Board α) (n : Node α) : Except Halt (Value α) := do
  let found ← Halt.ofArithmetic (b.inView n fun d => (d : Int) ≤ b.settings.targeting.closestRange)
  match found with
  | [] => throw (.refused (.vanished "no entity in range"))
  | t :: _ => return .entity t.id

/-- The range in which a node looks for targets: the wired one if it can be read, else the
default, at least zero and at most the greatest. -/
def viewRange (b : Board α) (n : Node α) : α :=
  let s := b.settings.targeting
  let asked := match b.readNumber n "range" with
    | .ok x => x
    | .error _ => s.nearbyDefaultRange
  Scalar.greater 0.0 (Scalar.lesser asked s.nearbyMaxRange)

/-- All targets within a node's range. -/
def nearbyEntities (b : Board α) (n : Node α) : Except Halt (Value α) := do
  let range := b.viewRange n
  let found ← Halt.ofArithmetic (b.inView n fun d => Scalar.intLe d range)
  return .list (found.map fun t => .entity t.id)

/-- Where a target is, in cells. -/
def entityPosition (b : Board α) (n : Node α) : Except Halt (Value α) := do
  let id ← Halt.ofReading (b.readEntity n "target")
  let t ← Halt.ofReading (b.liveTarget id)
  let (q, r) ← Halt.ofArithmetic (b.layout.coordinates t.position)
  return .vector q r

/-- The direction in which a target moves; the zero vector for one without a path. -/
def entityDirection (b : Board α) (n : Node α) : Except Halt (Value α) := do
  let id ← Halt.ofReading (b.readEntity n "target")
  let t ← Halt.ofReading (b.liveTarget id)
  match ← Halt.ofArithmetic t.nextWaypoint with
  | none => return .vector 0.0 0.0
  | some cell =>
    let goal ← Halt.ofArithmetic (b.layout.centre cell)
    let (x, y) := Vector2.normalize (goal.x - t.position.x) (goal.y - t.position.y)
    return .vector x y

end HexPulse.Board
