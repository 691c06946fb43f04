import HexPulse.Board

/-!
# HexPulse — Board — Reach

Which nodes are connected to a heart.  The flood starts at the live hearts and goes from cell to
adjacent cell over nodes; pruning disables the nodes that it does not reach.
-/

namespace HexPulse

theorem length_filter_add_length_filter_not {β : Type} (p : β → Bool) (xs : List β) :
    (xs.filter p).length + (xs.filter fun x => !p x).length = xs.length := by
  induction xs with
  | nil => rfl
  | cons x xs ih => by_cases h : p x <;> simp [h] <;> omega

namespace Hex

/-- The cells of a list that are next to a cell. -/
def beside (c : Hex) (cells : List Hex) : List Hex := cells.filter c.neighbors.contains

/-- The cells of a list that are not next to a cell. -/
def apart (c : Hex) (cells : List Hex) : List Hex := cells.filter fun x => !c.neighbors.contains x

theorem length_beside_add_length_apart (c : Hex) (cells : List Hex) :
    (c.beside cells).length + (c.apart cells).length = cells.length :=
  length_filter_add_length_filter_not _ cells

/-- The cells of `rest` that are reached from the frontier by steps between neighbours.  Every
cell that is found leaves `rest` and joins the frontier. -/
def flood : List Hex → List Hex → List Hex
  | [], _ => []
  | c :: frontier, rest => c.beside rest ++ flood (frontier ++ c.beside rest) (c.apart rest)
  termination_by frontier rest => frontier.length + rest.length
  decreasing_by
    have := c.length_beside_add_length_apart rest
    simp only [List.length_append, List.length_cons]
    omega

end Hex

namespace Board

variable {α : Type} [Scalar α]

/-- The tile is that of a node on the board. -/
def isNode (b : Board α) : Tile → Bool
  | .node id => b.nodes.contains id
  | _ => false

/-- The cells that hold nodes. -/
def nodeCells (b : Board α) : List Hex := (b.tiles.cells.filter fun _ tile => b.isNode tile).keys

/-- The cells of the live hearts. -/
def heartCells (b : Board α) : List Hex := (b.hearts.values.filter Heart.alive).map (·.position)

/-- The cells of the live hearts, and all cells that are connected to them through nodes. -/
def reachable (b : Board α) : List Hex := b.heartCells ++ Hex.flood b.heartCells b.nodeCells

/-- A node after pruning.  A reached node is only touched where it was disabled. -/
def pruneNode (reached : List Hex) (n : Node α) : Node α :=
  if reached.contains n.position then
    match n.state with
    | .disabled => { n with state := .idle }
    | _ => n
  else { n with state := .disabled }

/-- What a pruning changed: the nodes that take part again, and those that no longer do. -/
structure Pruning (α : Type) where
  enabled : List Int
  disabled : List Int
  board : Board α

/-- Enables the nodes that are connected to a heart and disables all others. -/
def prune (b : Board α) : Pruning α :=
  let reached := b.reachable
  let isReached (n : Node α) := reached.contains n.position
  let isDisabled (n : Node α) := n.state.phase = .disabled
  { enabled := (b.nodes.values.filter fun n => isReached n && isDisabled n).map (·.id)
    disabled := (b.nodes.values.filter fun n => !isReached n && !isDisabled n).map (·.id)
    board := { b with nodes := b.nodes.mapValues (pruneNode reached), topologyDirty := false } }

end Board

end HexPulse
