import HexPulse.Catalogue.Builtin
import HexPulse.Heart
import HexPulse.Hex.Region
import HexPulse.NodeState
import HexPulse.Target
import HexPulse.Wiring

/-!
# HexPulse — Board

The board: what stands on which cell, and the nodes, hearts and terrain by id.  One counter
issues the ids of all three.  Every edit goes through `claim`, which takes a free cell,
`emptied`, which frees one, or `updateNode`, which changes a node where it stands.
-/

namespace HexPulse

/-- What stands on a cell, with its id. -/
inductive Tile where
  | unoccupied
  | terrain (id : Int)
  | heart (id : Int)
  | node (id : Int)
  deriving DecidableEq, Repr, Inhabited

namespace Tile

/-- The name that a tile is shown by. -/
def name : Tile → String
  | .unoccupied => "Unoccupied"
  | .terrain _ => "Terrain"
  | .heart _ => "Heart"
  | .node _ => "Node"

/-- The id of what stands on the cell. -/
def occupant? : Tile → Option Int
  | .unoccupied => none
  | .terrain id => some id
  | .heart id => some id
  | .node id => some id

end Tile

/-- A node on the board. -/
structure Node (α : Type) where
  id : Int
  position : Hex
  kind : Kind
  wiring : Wiring α
  state : NodeState α
  health : α
  /-- how often a plasma node has fired since its last shot -/
  charge : Int
  deriving Repr

/-- A piece of terrain. -/
structure Terrain (α : Type) where
  id : Int
  position : Hex
  health : α
  deriving Repr

/-- Why an edit of the board is refused. -/
inductive BoardError where
  | unknownNode (id : Int)
  | outOfBounds (cell : Hex)
  | occupied (cell : Hex) (tile : Tile)
  deriving DecidableEq, Repr

/-- The text shown for a refused edit. -/
def BoardError.message : BoardError → String
  | .unknownNode id => s!"unknown node id {id}"
  | .outOfBounds cell => s!"cell {cell.text} is out of bounds"
  | .occupied cell tile => s!"cell {cell.text} is occupied by {tile.name}"

/-- Any reason for which a request to the board is refused. -/
inductive Refusal where
  | board (error : BoardError)
  | wiring (error : WiringError)
  | kind (error : UnknownKind)
  deriving DecidableEq, Repr

/-- The text shown for a refusal. -/
def Refusal.message : Refusal → String
  | .board e => e.message
  | .wiring e => e.message
  | .kind e => e.message

/-- The board with everything on it. -/
structure Board (α : Type) where
  settings : Settings α
  catalogue : Catalogue
  tiles : Region Tile
  nodes : Table Int (Node α)
  hearts : Table Int (Heart α)
  terrain : Table Int (Terrain α)
  targets : Targets α
  /-- something was placed or removed since the last pruning -/
  topologyDirty : Bool
  nextId : Int
  deriving Repr

namespace Board

variable {α : Type}

/-- An empty board. -/
def new (catalogue : Catalogue) (settings : Settings α) : Board α where
  settings := settings
  catalogue := catalogue
  tiles := .ofFn .origin settings.grid.radius fun _ => .unoccupied
  nodes := .empty
  hearts := .empty
  terrain := .empty
  targets := .empty
  topologyDirty := true
  nextId := 1

/-! ### Queries -/

def layout (b : Board α) : Layout α := ⟨b.settings.grid.hexSize⟩

/-- The cell is on the board. -/
def inBounds (b : Board α) (cell : Hex) : Bool := b.tiles.inBounds cell

/-- What stands on a cell of the board. -/
def tile? (b : Board α) (cell : Hex) : Option Tile := b.tiles.get? cell

/-- The node on a cell. -/
def nodeAt? (b : Board α) (cell : Hex) : Option (Node α) :=
  match b.tile? cell with
  | some (.node id) => b.nodes.get? id
  | _ => none

/-- The node of an id. -/
def node (b : Board α) (id : Int) : Except BoardError (Node α) :=
  match b.nodes.get? id with
  | some n => .ok n
  | none => .error (.unknownNode id)

/-- The node that a node reads a port from. -/
def resolve? (b : Board α) (n : Node α) (port : String) : Option (Node α) :=
  (n.wiring.directionOf? port).bind fun d => b.nodeAt? (n.position.neighbor d)

/-- The descriptor of a node's kind. -/
def descriptor (b : Board α) (n : Node α) : Except UnknownKind Descriptor :=
  b.catalogue.find n.kind.name

/-! ### Writers -/

/-- Puts something with a new id on a free cell. -/
def claim (b : Board α) (cell : Hex) (tile : Int → Tile) : Except BoardError (Int × Board α) :=
  match b.tile? cell with
  | none => .error (.outOfBounds cell)
  | some .unoccupied =>
    .ok (b.nextId, { b with
      tiles := b.tiles.put cell (tile b.nextId)
      topologyDirty := true
      nextId := b.nextId + 1 })
  | some current => .error (.occupied cell current)

/-- The board without what stands on a cell. -/
def emptied (b : Board α) (cell : Hex) : Board α :=
  let freed := { b with tiles := b.tiles.put cell .unoccupied, topologyDirty := true }
  match b.tile? cell with
  | some (.node id) => { freed with nodes := b.nodes.erase id }
  | some (.heart id) => { freed with hearts := b.hearts.erase id }
  | some (.terrain id) => { freed with terrain := b.terrain.erase id }
  | _ => b

/-- Changes the node of an id where it stands. -/
def updateNode (b : Board α) (id : Int) (f : Node α → Node α) : Board α :=
  { b with nodes := b.nodes.modify id f }

/-! ### Placing and removing -/

/-- Places a node of the kind of a name; it takes no part until the next pruning. -/
def placeNode (b : Board α) (cell : Hex) (kind : String) : Except Refusal (Node α × Board α) := do
  let descriptor ← (b.catalogue.find kind).mapError .kind
  let (id, claimed) ← (b.claim cell .node).mapError .board
  let node : Node α :=
    ⟨id, cell, descriptor.kind, .empty, .disabled, b.settings.grid.nodeHealth, 0⟩
  return (node, { claimed with nodes := b.nodes.insert id node })

/-- Places a heart as the settings describe it. -/
def placeHeart [Scalar α] (b : Board α) (cell : Hex) : Except BoardError (Heart α × Board α) := do
  let (id, claimed) ← b.claim cell .heart
  let heart : Heart α :=
    ⟨id, cell, b.settings.heart.initialHealth, b.settings.heart.initialPeriod, 0.0, 0⟩
  return (heart, { claimed with hearts := b.hearts.insert id heart })

/-- Places terrain of some health, or else of the health that the settings name. -/
def placeTerrain (b : Board α) (cell : Hex) (health : Option α) :
    Except BoardError (Terrain α × Board α) := do
  let (id, claimed) ← b.claim cell .terrain
  let terrain : Terrain α := ⟨id, cell, health.getD b.settings.grid.terrainHealth⟩
  return (terrain, { claimed with terrain := b.terrain.insert id terrain })

/-- Frees a cell and tells what stood there. -/
def clearCell (b : Board α) (cell : Hex) : Except BoardError (Tile × Board α) :=
  match b.tile? cell with
  | none => .error (.outOfBounds cell)
  | some tile => .ok (tile, b.emptied cell)

/-- Removes the node of an id. -/
def removeNode (b : Board α) (id : Int) : Except BoardError (Node α × Board α) := do
  let node ← b.node id
  let (_, cleared) ← b.clearCell node.position
  return (node, cleared)

/-- What died on the board, and the board without it. -/
structure Reaping (α : Type) where
  nodes : List (Node α)
  hearts : List (Heart α)
  terrain : List (Terrain α)
  board : Board α

/-- Clears the cell of everything whose health is used up. -/
def reapDead [Scalar α] (b : Board α) : Reaping α :=
  let nodes := b.nodes.values.filter fun n => n.health ≤ (0.0 : α)
  let hearts := b.hearts.values.filter fun h => h.health ≤ (0.0 : α)
  let terrain := b.terrain.values.filter fun t => t.health ≤ (0.0 : α)
  let cells := nodes.map (·.position) ++ hearts.map (·.position) ++ terrain.map (·.position)
  ⟨nodes, hearts, terrain, cells.foldl emptied b⟩

/-! ### Wiring -/

/-- The direction of a name. -/
def direction (name : String) : Except WiringError Direction :=
  match Direction.ofName? name with
  | some d => .ok d
  | none => .error (.unknownDirection name)

/-- Binds an input port of a node to a direction. -/
def bind (b : Board α) (id : Int) (directionName port : String) : Except Refusal (Board α) := do
  let node ← (b.node id).mapError .board
  let descriptor ← (b.descriptor node).mapError .kind
  match descriptor.input? port with
  | none => throw (.wiring (.noInput node.kind port))
  | some input =>
    let d ← (direction directionName).mapError .wiring
    let wiring ← (node.wiring.bind d input).mapError .wiring
    return b.updateNode id fun n => { n with wiring := wiring }

/-- Frees a direction of a node. -/
def unbind (b : Board α) (id : Int) (directionName : String) : Except Refusal (Board α) := do
  let node ← (b.node id).mapError .board
  let d ← (direction directionName).mapError .wiring
  return b.updateNode id fun n => { n with wiring := node.wiring.unbind d }

/-- Gives a node its constant, or takes it away. -/
def setConstant (b : Board α) (id : Int) (value : Option (Value α)) : Except Refusal (Board α) := do
  let node ← (b.node id).mapError .board
  let descriptor ← (b.descriptor node).mapError .kind
  if descriptor.output.isConstant then
    return b.updateNode id fun n => { n with wiring := { n.wiring with constant := value } }
  else throw (.wiring (.noConstant node.kind))

end Board

end HexPulse
