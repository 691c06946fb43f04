import HexPulse.Effect
import HexPulse.Evaluation.Sensing

/-!
# HexPulse — Evaluation — Acting

The nodes that ask something of the world.  None of them asks for anything before it is sure to
have a value.
-/

namespace HexPulse

variable {α : Type} [Scalar α]

/-- What became of an evaluation: a value or the reason why there is none, the node's charge
afterwards, and the effects it asked for. -/
structure Evaluation (α : Type) where
  result : Except Halt (Value α)
  charge : Int
  effects : List (Effect α)

namespace Evaluation

/-- An evaluation that asks for nothing. -/
def quiet (n : Node α) (result : Except Halt (Value α)) : Evaluation α := ⟨result, n.charge, []⟩

/-- An evaluation that asks for effects if it has a value. -/
def acting (n : Node α) : Except Halt (Value α × List (Effect α)) → Evaluation α
  | .ok (v, effects) => ⟨.ok v, n.charge, effects⟩
  | .error h => ⟨.error h, n.charge, []⟩

end Evaluation

namespace Board

/-- Damages a target and shows a beam to it. -/
def lazor (b : Board α) (n : Node α) : Except Halt (Value α × List (Effect α)) := do
  let id ← Halt.ofReading (b.readEntity n "target")
  let t ← Halt.ofReading (b.liveTarget id)
  return (.empty, [.damage t.id b.settings.weapons.lazorDamage, .beam n.position t.id])

/-- Launches a rocket in a direction. -/
def rocketLauncher (b : Board α) (n : Node α) : Except Halt (Value α × List (Effect α)) := do
  let (x, y) ← Halt.ofReading (b.readVector n "direction")
  let length := Vector2.length x y
  if Vector2.hasDirection length then
    return (.empty, [.rocket n.position (Vector2.normalize x y)])
  else
    let got := "Vector of length " ++ Scalar.text length
    throw (.refused (.mismatch "direction" "non-zero finite Vector" got))

/-- Calls a strike on the cell of a vector. -/
def orbital (b : Board α) (n : Node α) : Except Halt (Value α × List (Effect α)) := do
  let (q, r) ← Halt.ofReading (b.readFiniteVector n "target")
  let cell ← Halt.ofArithmetic (Hex.nearest q r)
  return (.empty, [.strike cell b.settings.weapons.orbitalDelay])

/-- Damages all live targets of a list and shows bolts to them. -/
def shock (b : Board α) (n : Node α) : Except Halt (Value α × List (Effect α)) := do
  let items ← Halt.ofReading (b.readList n "targets")
  let hits := (items.filterMap Value.entity?).filter fun id => (b.targets.get? id).isSome
  let damage := hits.map fun id => Effect.damage id b.settings.weapons.shockDamage
  let bolts := if hits.isEmpty then [] else [Effect.shock n.position hits]
  return (.number (Scalar.ofInt hits.length), damage ++ bolts)

/-- Projects terrain onto the cell of a vector, which has to be free. -/
def projectTile (b : Board α) (n : Node α) : Except Halt (Value α × List (Effect α)) := do
  let (q, r) ← Halt.ofReading (b.readFiniteVector n "target")
  let cell ← Halt.ofArithmetic (Hex.nearest q r)
  match b.tile? cell with
  | none => throw (.refused (.outside s!"cell {cell.text} is outside the board"))
  | some .unoccupied => return (.empty, [.terrain cell n.id])
  | some tile => throw (.refused (.occupied s!"cell {cell.text} holds {tile.name}"))

/-- Logs what can be read from the slots. -/
def debug (b : Board α) (n : Node α) : Value α × List (Effect α) :=
  (.empty, [.log n.id ((b.readPresent read n Catalogue.slots).map Value.toData)])

/-- The charge at which a plasma node shoots, from its threshold and the greatest one. -/
def plasmaLimit (greatest : α) : Option α → α
  | none => Scalar.greater 1.0 greatest
  | some threshold => Scalar.greater 1.0 (Scalar.lesser threshold greatest)

/-- The aim and the limit of a plasma node. -/
def plasmaOrder (b : Board α) (n : Node α) : Except PortError ((α × α) × α) := do
  let aim ← b.readFiniteVector n "target"
  let threshold ← readOptional readNumber b n "threshold"
  return (aim, plasmaLimit b.settings.weapons.plasmaMaxThreshold threshold)

/-- Fires a plasma zone of some charge at the cell of a vector. -/
def plasmaShot (b : Board α) (aim : α × α) (charge : Int) : Evaluation α :=
  match Hex.nearest aim.1 aim.2 >>= b.layout.centre with
  | .error f => ⟨.error (.fault f), 0, []⟩
  | .ok center =>
    ⟨Halt.ofArithmetic ((Scalar.convert charge).map .number), 0, [.plasma center charge]⟩

/-- Charges, and shoots once the charge reaches the limit. -/
def plasma (b : Board α) (n : Node α) : Evaluation α :=
  match b.plasmaOrder n with
  | .error e => .quiet n (.error (.refused e))
  | .ok (aim, limit) =>
    let charge := n.charge + 1
    if Scalar.intLt charge limit then ⟨.ok (.number 0.0), charge, []⟩ else b.plasmaShot aim charge

end Board

end HexPulse
