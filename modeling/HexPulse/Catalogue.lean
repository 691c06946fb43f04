import HexPulse.Data
import HexPulse.Kind
import HexPulse.Table
import HexPulse.Value

/-!
# HexPulse — Catalogue

What each kind of node looks like from outside: its name, its input ports and its output.  Ports
are told apart by their ids, which a catalogue issues in order; two ports may share a name.
-/

namespace HexPulse

/-- A port of a kind of node. -/
structure Port where
  id : Int
  name : String
  description : String
  type : ValueType
  isConstant : Bool
  deriving DecidableEq, Repr

/-- What all nodes of a kind have in common. -/
structure Descriptor where
  kind : Kind
  title : String
  description : String
  inputs : List Port
  output : Port
  deriving DecidableEq, Repr

namespace Descriptor

/-- The first input port of a name. -/
def input? (d : Descriptor) (name : String) : Option Port := d.inputs.find? fun p => p.name = name

/-- The descriptor as plain data. -/
def toData {α : Type} (d : Descriptor) : Data α :=
  .record [
    ("kind", .text d.kind.name),
    ("name", .text d.title),
    ("description", .text d.description),
    ("inputs", .list (d.inputs.map fun p => .record [
      ("name", .text p.name),
      ("type", .text p.type.name),
      ("description", .text p.description)])),
    ("output", .record [
      ("name", .text d.output.name),
      ("type", .text d.output.type.name),
      ("constant", .bool d.output.isConstant)])]

end Descriptor

/-- What a scenario is checked against: the inputs by name, the output's type and whether the
output is a constant. -/
structure Contract where
  inputs : Table String ValueType
  output : ValueType
  constant : Bool
  deriving Repr

/-- What a descriptor promises about its ports.  Of two inputs of one name the later type counts. -/
def Descriptor.contract (d : Descriptor) : Contract where
  inputs := Table.ofList (d.inputs.map fun p => (p.name, p.type))
  output := d.output.type
  constant := d.output.isConstant

/-- A name that no kind in the catalogue has. -/
structure UnknownKind where
  name : String
  available : List String
  deriving DecidableEq, Repr

/-- The text shown for an unknown kind. -/
def UnknownKind.message (e : UnknownKind) : String :=
  let known := ", ".intercalate e.available
  s!"Unknown node kind '{e.name}'. Available: {known}"

/-- The descriptors by kind, and the id that the next port gets. -/
structure Catalogue where
  kinds : Table Kind Descriptor
  nextPort : Int
  deriving Repr

namespace Catalogue

def empty : Catalogue := ⟨.empty, 1⟩

/-- A new port with the next id. -/
def issue (c : Catalogue) (name description : String) (type : ValueType) (isConstant : Bool) :
    Port × Catalogue :=
  (⟨c.nextPort, name, description, type, isConstant⟩, { c with nextPort := c.nextPort + 1 })

/-- Writes the descriptor of its kind. -/
def register (c : Catalogue) (d : Descriptor) : Catalogue :=
  { c with kinds := c.kinds.insert d.kind d }

/-- The names of the kinds, in alphabetical order. -/
def names (c : Catalogue) : List String :=
  (c.kinds.keys.map Kind.name).mergeSort fun a b => decide (a ≤ b)

/-- The descriptor of the kind of a name. -/
def find (c : Catalogue) (name : String) : Except UnknownKind Descriptor :=
  match (Kind.ofName? name).bind c.kinds.get? with
  | some d => .ok d
  | none => .error ⟨name, c.names⟩

/-- The contracts by the names of the kinds. -/
def contracts (c : Catalogue) : Table String Contract :=
  ⟨c.kinds.entries.map fun e => (e.1.name, e.2.contract)⟩

end Catalogue

end HexPulse
