import HexPulse.Catalogue

/-!
# HexPulse — Catalogue — Builtin

The built-in catalogue.  Kinds that only act on the world share one output port, which carries
nothing; every other port is its kind's own.
-/

namespace HexPulse

/-- An input or output port before it has an id. -/
structure PortSketch where
  name : String
  description : String
  type : ValueType
  isConstant : Bool
  deriving DecidableEq, Repr

/-- A kind before its ports have ids.  Without an output of its own it carries nothing. -/
structure KindSketch where
  kind : Kind
  title : String
  description : String
  inputs : List PortSketch
  output : Option PortSketch
  deriving DecidableEq, Repr

namespace Catalogue

/-- Issues ports for sketches, in order. -/
def issueAll (c : Catalogue) : List PortSketch → List Port × Catalogue
  | [] => ([], c)
  | p :: ps =>
    let (port, c) := c.issue p.name p.description p.type p.isConstant
    let (ports, c) := c.issueAll ps
    (port :: ports, c)

/-- Adds a kind: first its inputs get their ids, then its output. -/
def add (nothing : Port) (c : Catalogue) (k : KindSketch) : Catalogue :=
  let (inputs, c) := c.issueAll k.inputs
  let (outputs, c) := c.issueAll k.output.toList
  c.register ⟨k.kind, k.title, k.description, inputs, outputs.headD nothing⟩

/-- An input port. -/
def input (name : String) (type : ValueType) (description : String) : PortSketch :=
  ⟨name, description, type, false⟩

/-- The slots of the kinds that take any number of inputs, in order. -/
def slots : List String := ["a", "b", "c", "d", "e"]

/-- One input port per slot. -/
def slotInputs (noun : String) (type : ValueType) : List PortSketch :=
  (slots.zip ["first", "second", "third", "fourth", "fifth"]).map fun s =>
    input s.1 type (s.2 ++ " " ++ noun)

/-- The slots that a store chooses from. -/
def storeSlots : List String := ["0", "1", "2", "3"]

/-- The built-in kinds, in the order in which their ports get ids. -/
def sketches : List KindSketch := [
  ⟨.lazor, "lazor", "shoots lazor beam at target",
    [input "target" .entity "the target entity to shoot"], none⟩,
  ⟨.rocketLauncher, "rocket launcher", "shoots rockets in the target direction",
    [input "direction" .vector "the direction to shoot in"], none⟩,
  ⟨.orbital, "orbital strike",
    "request an orbital strike at a position that will arrive in the future",
    [input "target" .vector "the target position"], none⟩,
  ⟨.plasma, "plasma cannon",
    "shoot a plasma to the target position. the size of the plasma depends on how many ticks the plasma cannon has been charged",
    [input "target" .vector "the target position",
     input "threshold" .number "the amount of ticks to collect before firing. default is max: 10"],
    some (input "fired" .number "power of the shot or 0 if it didnt fire this tick")⟩,
  ⟨.shock, "tesla coil", "shoot lightning at all targets",
    [input "targets" .list "list of target entities"],
    some (input "shot" .number "number of targets shot")⟩,
  ⟨.projectTile, "project tile", "project an illusory tile at the target position",
    [input "target" .vector "target position"], none⟩,
  ⟨.debug, "debug", "log all inputs to the console", slotInputs "item" .any, none⟩,
  ⟨.listConstruct, "list: construct",
    "construct list out of all inputs, input lists will be flattened", slotInputs "item" .any,
    some (input "list" .list "1 dimensional list of all inputs")⟩,
  ⟨.closestEntity, "entity: closest", "returns the closest nearby entity", [],
    some (input "closest" .entity "the closest nearby entity")⟩,
  ⟨.constantNumber, "number: constant", "returns a constant number set in the port config", [],
    some ⟨"constant", "the constant value", .number, true⟩⟩,
  ⟨.vectorMultiply, "vector: multiply", "multiplies an arbitrary amount of vectors",
    slotInputs "vector" .vector,
    some (input "vector" .vector "a vector like: (ax * bx * cx ..., ay * by...)")⟩,
  ⟨.numberMultiply, "number: multiply", "multiplies an arbitrary amount of numbers together",
    slotInputs "number" .number, some (input "product" .number "a * b * c * d * e")⟩,
  ⟨.numberSubtract, "number: subtract",
    "subtracts an arbitrary amount of numbers in order of the input ports",
    slotInputs "number" .number, some (input "difference" .number "a - b - c - d - e")⟩,
  ⟨.storage, "store", "outputs the data slot selected by `slot`",
    storeSlots.map (fun s => input s .any ("data slot " ++ s)) ++
      [input "slot" .number "determines the slot to output. default is 0"],
    some (input "data" .any "the stored data from the slot `slot`")⟩,
  ⟨.vectorCreate, "vector: create", "constructs a vector from 2 numbers",
    [input "x" .number "first number", input "y" .number "second number"],
    some (input "vector" .vector "the constructed vector")⟩,
  ⟨.vectorNegate, "vector: negate", "negates a vector",
    [input "vector" .vector "the vector to negate"],
    some (input "vector" .vector "the negated vector")⟩,
  ⟨.listLength, "list: len", "returns the length of a list", [input "list" .list "list input"],
    some (input "length" .number "the number of elements in the list")⟩,
  ⟨.vectorLength, "vector: length", "computes the length / magnitude of a vector",
    [input "vector" .vector "the vector to compute"],
    some (input "length" .number "the length of the vector")⟩,
  ⟨.nearbyEntities, "entity: nearby", "returns all nearby entities as a list of Entity",
    [input "range" .number "limit to the range. default is max: 10."],
    some (input "entities" .list "the nearby entities")⟩,
  ⟨.entityDirection, "entity: direction",
    "returns the direction the target entity is moving towards",
    [input "target" .entity "target entity"],
    some (input "direction" .vector "direction of the target")⟩,
  ⟨.entityPosition, "entity: position", "returns the target entities current position",
    [input "target" .entity "target entity"],
    some (input "position" .vector "position of target entity")⟩]

/-- The built-in catalogue. -/
def builtin : Catalogue :=
  let (nothing, c) := empty.issue "nothing" "nothing" .empty false
  sketches.foldl (add nothing) c

end Catalogue

end HexPulse
