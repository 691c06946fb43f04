import HexPulse.Catalogue
import HexPulse.Hex

/-!
# HexPulse — Wiring

Which neighbour a node reads each of its input ports from.  A direction is bound to one port, a
port to at most one direction; binding a port again takes it away from its old direction and
puts it last.
-/

namespace HexPulse

/-- Why a wiring request is refused. -/
inductive WiringError where
  | unknownDirection (name : String)
  | directionTaken (direction : Direction) (port : String)
  | noInput (kind : Kind) (port : String)
  | noConstant (kind : Kind)
  deriving DecidableEq, Repr

/-- The text shown for a refused wiring request. -/
def WiringError.message : WiringError → String
  | .unknownDirection name =>
    let names := ", ".intercalate (Direction.all.map Direction.name)
    s!"unknown direction '{name}'. Expected one of: {names}"
  | .directionTaken direction port =>
    s!"direction '{direction.name}' already bound to port '{port}'"
  | .noInput kind port => s!"node kind '{kind.name}' has no input port '{port}'"
  | .noConstant kind => s!"node kind '{kind.name}' has no constant output"

/-- The bindings of a node, in the order in which they were made, and its constant. -/
structure Wiring (α : Type) where
  inputs : Table Direction Port
  constant : Option (Value α)
  deriving Repr

namespace Wiring

variable {α : Type}

def empty : Wiring α := ⟨.empty, none⟩

/-- The first direction whose port passes a test. -/
def directionWhere? (w : Wiring α) (p : Port → Bool) : Option Direction :=
  (w.inputs.entries.find? fun e => p e.2).map (·.1)

/-- The direction that a port is bound to. -/
def directionOfPort? (w : Wiring α) (port : Port) : Option Direction :=
  w.directionWhere? fun p => p.id = port.id

/-- The direction that the first port of a name is bound to. -/
def directionOf? (w : Wiring α) (name : String) : Option Direction :=
  w.directionWhere? fun p => p.name = name

/-- Binds a port to a direction, refused if the direction holds another port. -/
def bind (w : Wiring α) (d : Direction) (port : Port) : Except WiringError (Wiring α) :=
  let rebound : Wiring α :=
    let inputs := match w.directionOfPort? port with
      | some stale => w.inputs.erase stale
      | none => w.inputs
    { w with inputs := inputs.insert d port }
  match w.inputs.get? d with
  | some current =>
    if current.id = port.id then .ok rebound else .error (.directionTaken d current.name)
  | none => .ok rebound

/-- Frees a direction. -/
def unbind (w : Wiring α) (d : Direction) : Wiring α := { w with inputs := w.inputs.erase d }

/-- The directions that are bound, in the order of binding. -/
def directions (w : Wiring α) : List Direction := w.inputs.keys

end Wiring

end HexPulse
