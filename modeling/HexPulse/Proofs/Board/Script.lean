import HexPulse.Proofs.Board.Wiring
import HexPulse.Proofs.Script

/-!
# HexPulse — Proofs — Board — Script

Edits, write after write.  An edit of `Board` that is refused has no board to return, so it cannot
tell whether something was written before the refusal.  Here the edits are carried out once more on
a board that keeps what was written to it (`Script`).

* `Script.ofEdit_apply`: the two ways agree, and an edit that is refused has written nothing.
-/

namespace HexPulse

variable {α : Type}

/-! ### Edits, write after write -/

namespace Script

/-- Takes a free cell: the id is issued first, then the tile is written. -/
def claim (cell : Hex) (tile : Int → Tile) : Script Refusal (Board α) Int := do
  match (← current).tile? cell with
  | none => stop (.board (.outOfBounds cell))
  | some .unoccupied =>
    let id := (← current).nextId
    write fun b => { b with nextId := id + 1 }
    write fun b => { b with tiles := b.tiles.put cell (tile id) }
    write fun b => { b with topologyDirty := true }
    return id
  | some tile => stop (.board (.occupied cell tile))

def placeNode (cell : Hex) (kind : String) : Script Refusal (Board α) (Node α) := do
  let descriptor ← ask fun b => (b.catalogue.find kind).mapError .kind
  let id ← claim cell .node
  let health := (← current).settings.grid.nodeHealth
  let node : Node α := ⟨id, cell, descriptor.kind, .empty, .disabled, health, 0⟩
  write fun b => { b with nodes := b.nodes.insert id node }
  return node

def placeHeart [Scalar α] (cell : Hex) : Script Refusal (Board α) (Heart α) := do
  let id ← claim cell .heart
  let settings := (← current).settings.heart
  let heart : Heart α := ⟨id, cell, settings.initialHealth, settings.initialPeriod, 0.0, 0⟩
  write fun b => { b with hearts := b.hearts.insert id heart }
  return heart

def placeTerrain (cell : Hex) (health : Option α) : Script Refusal (Board α) (Terrain α) := do
  let id ← claim cell .terrain
  let terrain : Terrain α := ⟨id, cell, health.getD (← current).settings.grid.terrainHealth⟩
  write fun b => { b with terrain := b.terrain.insert id terrain }
  return terrain

/-- Takes what stands on a cell out of its table. -/
def evict : Tile → Script Refusal (Board α) Unit
  | .unoccupied => pure ()
  | .node id => write fun b => { b with nodes := b.nodes.erase id }
  | .heart id => write fun b => { b with hearts := b.hearts.erase id }
  | .terrain id => write fun b => { b with terrain := b.terrain.erase id }

def clearCell (cell : Hex) : Script Refusal (Board α) Tile := do
  match (← current).tile? cell with
  | none => stop (.board (.outOfBounds cell))
  | some .unoccupied => return .unoccupied
  | some tile =>
    evict tile
    write fun b => { b with tiles := b.tiles.put cell .unoccupied }
    write fun b => { b with topologyDirty := true }
    return tile

def removeNode (id : Int) : Script Refusal (Board α) (Node α) := do
  let node ← ask fun b => (b.node id).mapError .board
  let _ ← clearCell node.position
  return node

/-- A write to the wiring of a node. -/
def rewire (id : Int) (f : Wiring α → Wiring α) : Script Refusal (Board α) Unit :=
  write fun b => b.updateNode id fun n => { n with wiring := f n.wiring }

/-- Takes the old binding of a port away, if it has one, and writes the new one. -/
def rebind (id : Int) (wiring : Wiring α) (d : Direction) (port : Port) :
    Script Refusal (Board α) Unit := do
  match wiring.directionOfPort? port with
  | some stale => rewire id fun w => { w with inputs := w.inputs.erase stale }
  | none => pure ()
  rewire id fun w => { w with inputs := w.inputs.insert d port }

def bind (id : Int) (directionName port : String) : Script Refusal (Board α) Unit := do
  let node ← ask fun b => (b.node id).mapError .board
  let descriptor ← ask fun b => (b.descriptor node).mapError .kind
  match descriptor.input? port with
  | none => stop (.wiring (.noInput node.kind port))
  | some input =>
    let d ← ask fun _ => (Board.direction directionName).mapError .wiring
    match node.wiring.inputs.get? d with
    | some held =>
      if held.id = input.id then rebind id node.wiring d input
      else stop (.wiring (.directionTaken d held.name))
    | none => rebind id node.wiring d input

def unbind (id : Int) (directionName : String) : Script Refusal (Board α) Unit := do
  let _ ← ask fun b => (b.node id).mapError .board
  let d ← ask fun _ => (Board.direction directionName).mapError .wiring
  rewire id fun w => w.unbind d

def setConstant (id : Int) (value : Option (Value α)) : Script Refusal (Board α) Unit := do
  let node ← ask fun b => (b.node id).mapError .board
  let descriptor ← ask fun b => (b.descriptor node).mapError .kind
  if descriptor.output.isConstant then rewire id fun w => { w with constant := value }
  else stop (.wiring (.noConstant node.kind))

/-- An edit as it goes, with the id that it issued. -/
def ofEdit [Scalar α] : Edit α → Script Refusal (Board α) (Option Int)
  | .placeNode cell kind => return some (← placeNode cell kind).id
  | .placeHeart cell => return some (← placeHeart cell).id
  | .placeTerrain cell health => return some (← placeTerrain cell health).id
  | .clearCell cell => do let _ ← clearCell cell; return none
  | .removeNode id => do let _ ← removeNode id; return none
  | .reapDead => do write fun b => b.reapDead.board; return none
  | .bind id direction port => do bind id direction port; return none
  | .unbind id direction => do unbind id direction; return none
  | .setConstant id value => do setConstant id value; return none
  | .nodeHealth id health => do
    write fun b => b.updateNode id fun n => { n with health := health }
    return none
  | .heartHealth id health => do
    write fun b => { b with hearts := b.hearts.modify id fun h => { h with health := health } }
    return none
  | .terrainHealth id health => do
    write fun b => { b with terrain := b.terrain.modify id fun t => { t with health := health } }
    return none

section Runs

/-- Taking a cell ends as the edit does: it looks before it writes. -/
theorem claim_apply (b : Board α) (cell : Hex) (tile : Int → Tile) :
    claim cell tile b = ending b ((b.claim cell tile).mapError .board) := by
  rw [claim, Board.claim, bind_apply]
  dsimp only [current]
  cases b.tile? cell with
  | none => rfl
  | some t => cases t <;> rfl

/-- Placing a node ends as the edit does: its kind is looked up before anything is written. -/
theorem placeNode_apply (b : Board α) (cell : Hex) (kind : String) :
    placeNode cell kind b = ending b (b.placeNode cell kind) := by
  rw [placeNode, Board.placeNode, bind_apply, ask]
  cases b.catalogue.find kind with
  | error e => rfl
  | ok d =>
    dsimp only [Except.mapError]
    rw [bind_apply, claim_apply]
    cases hclaim : b.claim cell .node with
    | error e => rfl
    | ok r =>
      obtain ⟨id, c⟩ := r
      obtain ⟨-, -, rfl⟩ := Board.claim_eq_ok hclaim
      rfl

/-- Placing a heart ends as the edit does: the table is written behind the tile. -/
theorem placeHeart_apply [Scalar α] (b : Board α) (cell : Hex) :
    placeHeart cell b = ending b ((b.placeHeart cell).mapError .board) := by
  rw [placeHeart, Board.placeHeart, bind_apply, claim_apply]
  cases hclaim : b.claim cell .heart with
  | error e => rfl
  | ok r =>
    obtain ⟨id, c⟩ := r
    obtain ⟨-, -, rfl⟩ := Board.claim_eq_ok hclaim
    rfl

/-- Placing terrain ends as the edit does: the table is written behind the tile. -/
theorem placeTerrain_apply (b : Board α) (cell : Hex) (health : Option α) :
    placeTerrain cell health b = ending b ((b.placeTerrain cell health).mapError .board) := by
  rw [placeTerrain, Board.placeTerrain, bind_apply, claim_apply]
  cases hclaim : b.claim cell .terrain with
  | error e => rfl
  | ok r =>
    obtain ⟨id, c⟩ := r
    obtain ⟨-, -, rfl⟩ := Board.claim_eq_ok hclaim
    rfl

/-- Clearing a cell ends as the edit does: the cell is found before it is cleared. -/
theorem clearCell_apply (b : Board α) (cell : Hex) :
    clearCell cell b = ending b ((b.clearCell cell).mapError .board) := by
  rw [clearCell, Board.clearCell, Board.emptied, bind_apply]
  dsimp only [current]
  cases b.tile? cell with
  | none => rfl
  | some t => cases t <;> rfl

/-- Removing a node ends as the edit does: the node is found before its cell is cleared. -/
theorem removeNode_apply (b : Board α) (id : Int) :
    removeNode id b = ending b ((b.removeNode id).mapError .board) := by
  rw [removeNode, bind_apply, ask]
  cases hn : b.node id with
  | error e =>
    rw [Board.removeNode, hn]
    rfl
  | ok n =>
    have hremove : b.removeNode id = (b.clearCell n.position).map fun r => (n, r.2) := by
      rw [Board.removeNode, hn]
      change (b.clearCell n.position >>= _) = _
      cases b.clearCell n.position with
      | error e => rfl
      | ok r => rfl
    rw [hremove]
    dsimp only [Except.mapError]
    rw [bind_apply, clearCell_apply]
    cases b.clearCell n.position with
    | error e => rfl
    | ok r => rfl

/-- The two writes of a new binding come to one. -/
theorem rebind_apply {b : Board α} (hb : b.nodes.Keyed Node.id) {id : Int} {n : Node α}
    (hn : b.node id = .ok n) (d : Direction) (port : Port) :
    rebind id n.wiring d port b = (.ok (), b.updateNode id fun m => { m with wiring :=
      { n.wiring with inputs := (match n.wiring.directionOfPort? port with
        | some stale => n.wiring.inputs.erase stale
        | none => n.wiring.inputs).insert d port } }) := by
  have hget := Board.get?_of_node_eq_ok hn
  rw [rebind]
  cases n.wiring.directionOfPort? port with
  | none => exact congrArg (Except.ok (), ·) (Board.updateNode_congr hb hget rfl)
  | some stale =>
    refine congrArg (Except.ok (), ·) ((b.updateNode_updateNode id _ _).trans ?_)
    exact Board.updateNode_congr hb hget rfl

/-- Binding a direction ends as the edit does: all is checked before the old binding is taken away.
-/
theorem wire_apply {b : Board α} (hb : b.nodes.Keyed Node.id) (id : Int)
    (direction port : String) :
    bind id direction port b = ending b ((b.bind id direction port).map ((), ·)) := by
  rw [bind, Board.bind, bind_apply, ask]
  -- one link of the chain after the other; only the last one writes
  cases hn : b.node id with
  | error e => rfl
  | ok n =>
    change _ = ending b (Except.map _ ((b.descriptor n).mapError Refusal.kind >>= _))
    dsimp only [Except.mapError]
    rw [bind_apply, ask]
    cases b.descriptor n with
    | error e => rfl
    | ok d =>
      change _ = ending b (Except.map _ (match d.input? port with | none => _ | some input => _))
      dsimp only [Except.mapError]
      cases d.input? port with
      | none => rfl
      | some input =>
        dsimp only
        rw [bind_apply, ask]
        cases Board.direction direction with
        | error e => rfl
        | ok dir =>
          change _ = ending b
            (Except.map _ ((n.wiring.bind dir input).mapError Refusal.wiring >>= _))
          dsimp only [Except.mapError]
          have hrebind := rebind_apply hb hn dir input
          rw [Wiring.bind]
          cases n.wiring.inputs.get? dir with
          | none => exact hrebind
          | some held =>
            dsimp only
            by_cases hid : held.id = input.id
            · rw [if_pos hid, if_pos hid]
              exact hrebind
            · rw [if_neg hid, if_neg hid]
              rfl

/-- Setting a direction free ends as the edit does: node and direction are found before a write. -/
theorem unbind_apply {b : Board α} (hb : b.nodes.Keyed Node.id) (id : Int) (direction : String) :
    unbind id direction b = ending b ((b.unbind id direction).map ((), ·)) := by
  rw [unbind, Board.unbind, bind_apply, ask]
  cases hn : b.node id with
  | error e => rfl
  | ok n =>
    change _ = ending b (Except.map _ ((Board.direction direction).mapError Refusal.wiring >>= _))
    dsimp only [Except.mapError]
    rw [bind_apply, ask]
    cases Board.direction direction with
    | error e => rfl
    | ok d =>
      have hget := Board.get?_of_node_eq_ok hn
      exact congrArg (Except.ok (), ·) (Board.updateNode_congr hb hget rfl)

/-- Setting a constant ends as the edit does: the output is checked before the constant is written.
-/
theorem setConstant_apply (b : Board α) (id : Int) (value : Option (Value α)) :
    setConstant id value b = ending b ((b.setConstant id value).map ((), ·)) := by
  rw [setConstant, Board.setConstant, bind_apply, ask]
  cases hn : b.node id with
  | error e => rfl
  | ok n =>
    change _ = ending b (Except.map _ ((b.descriptor n).mapError Refusal.kind >>= _))
    dsimp only [Except.mapError]
    rw [bind_apply, ask]
    cases b.descriptor n with
    | error e => rfl
    | ok d =>
      change _ = ending b (Except.map _ (if d.output.isConstant then _ else _))
      dsimp only [Except.mapError]
      split
      · rfl
      · rfl

/-- **An edit that is refused has written nothing, and one that is not has written what the edit
returns.** -/
theorem ofEdit_apply [Scalar α] {b : Board α} (hb : b.nodes.Keyed Node.id) (e : Edit α) :
    ofEdit e b = ending b (b.edit e) := by
  cases e with
  | placeNode cell kind =>
    rw [ofEdit, bind_apply, placeNode_apply, Board.edit]
    cases b.placeNode cell kind <;> rfl
  | placeHeart cell =>
    rw [ofEdit, bind_apply, placeHeart_apply, Board.edit]
    cases b.placeHeart cell <;> rfl
  | placeTerrain cell health =>
    rw [ofEdit, bind_apply, placeTerrain_apply, Board.edit]
    cases b.placeTerrain cell health <;> rfl
  | clearCell cell =>
    rw [ofEdit, bind_apply, clearCell_apply, Board.edit]
    cases b.clearCell cell <;> rfl
  | removeNode id =>
    rw [ofEdit, bind_apply, removeNode_apply, Board.edit]
    cases b.removeNode id <;> rfl
  | reapDead => rfl
  | bind id direction port =>
    rw [ofEdit, bind_apply, wire_apply hb, Board.edit]
    cases b.bind id direction port <;> rfl
  | unbind id direction =>
    rw [ofEdit, bind_apply, unbind_apply hb, Board.edit]
    cases b.unbind id direction <;> rfl
  | setConstant id value =>
    rw [ofEdit, bind_apply, setConstant_apply, Board.edit]
    cases b.setConstant id value <;> rfl
  | nodeHealth id health => rfl
  | heartHealth id health => rfl
  | terrainHealth id health => rfl

end Runs

end Script

end HexPulse
