import HexPulse.Proofs.Board.History
import HexPulse.Proofs.Scalar.Exact

/-!
# HexPulse — Proofs — Board — Reaping

Reaping finds the dead in three tables, and clears their cells one after the other through the tiles.
What a cell loses is what the tables say stands there, and the cells behind it still hold what they
held (`Board.emptied_eq`, `Board.Agreed.emptied`); so the board ends up as if all cells were cleared
at once (`Board.foldl_emptied`), and without the dead.

* `Board.Agreed.reaping`: who is reaped, what is left, and that nothing is left to reap.
-/

namespace HexPulse

variable {α : Type}

/-- The same keys, with the values of some of them overwritten. -/
def Table.overwrite {κ ν : Type} [DecidableEq κ] (t : Table κ ν) (ks : List κ) (v : ν) : Table κ ν :=
  ⟨t.entries.map fun e => if e.1 ∈ ks then (e.1, v) else e⟩

namespace Table

variable {κ ν : Type} [DecidableEq κ]

/-- Only the keys that are overwritten are found with the new value. -/
theorem get?_overwrite (t : Table κ ν) (ks : List κ) (v : ν) (k : κ) :
    (t.overwrite ks v).get? k = if k ∈ ks then (t.get? k).map fun _ => v else t.get? k := by
  obtain ⟨es⟩ := t
  induction es with
  | nil => simp [overwrite, get?]
  | cons e es ih =>
    rw [overwrite, List.map_cons, get?_mk_cons, get?_mk_cons]
    rw [overwrite] at ih
    by_cases he : e.1 = k
    · subst he
      by_cases hk : e.1 ∈ ks <;> simp [hk]
    · by_cases hk : e.1 ∈ ks <;> simp [hk, he, ih]

/-- Overwriting twice is overwriting all keys at once. -/
theorem overwrite_overwrite (t : Table κ ν) (ks js : List κ) (v : ν) :
    (t.overwrite ks v).overwrite js v = t.overwrite (ks ++ js) v := by
  rw [overwrite, overwrite, overwrite, List.map_map]
  refine congrArg Table.mk (List.map_congr_left fun e _ => ?_)
  by_cases hk : e.1 ∈ ks <;> simp [hk]

theorem keys_overwrite (t : Table κ ν) (ks : List κ) (v : ν) : (t.overwrite ks v).keys = t.keys := by
  rw [overwrite, keys, keys, List.map_map]
  refine List.map_congr_left fun e _ => ?_
  rw [Function.comp_apply]
  split <;> rfl

/-- A value that is replaced is one that is overwritten. -/
theorem modify_eq_overwrite (t : Table κ ν) (k : κ) (v : ν) :
    (t.modify k fun _ => v) = t.overwrite [k] v := by
  refine congrArg Table.mk (List.map_congr_left fun e _ => ?_)
  simp only [List.mem_singleton]

end Table

namespace Board

/-- The board without all that stands on some cells. -/
def cleared (b : Board α) (cells : List Hex) : Board α :=
  { b with
    tiles := { b.tiles with cells := b.tiles.cells.overwrite cells .unoccupied }
    nodes := b.nodes.filter fun _ n => n.position ∉ cells
    hearts := b.hearts.filter fun _ h => h.position ∉ cells
    terrain := b.terrain.filter fun _ t => t.position ∉ cells
    topologyDirty := b.topologyDirty || !cells.isEmpty }

/-! ### One cell after the other -/

@[simp] theorem cleared_nil (b : Board α) : b.cleared [] = b := by
  simp [cleared, Table.overwrite, Table.filter]

/-- Cells that are cleared in two goes are cleared as if in one. -/
theorem cleared_cleared (b : Board α) (cells cells' : List Hex) :
    (b.cleared cells).cleared cells' = b.cleared (cells ++ cells') := by
  have hempty : (!(cells ++ cells').isEmpty) = (!cells.isEmpty || !cells'.isEmpty) := by
    cases cells <;> rfl
  simp only [cleared, Table.overwrite_overwrite, Table.filter_filter, List.mem_append, not_or,
    Bool.decide_and, Bool.or_assoc, hempty]

/-- A cell that is cleared is free, and all others are as they were. -/
theorem tile?_cleared (b : Board α) (cells : List Hex) (c : Hex) : (b.cleared cells).tile? c =
    if c ∈ cells then (b.tile? c).map fun _ => .unoccupied else b.tile? c :=
  Table.get?_overwrite _ _ _ _

/-- Clearing a cell where something stands takes away what the tables say stands there. -/
theorem emptied_eq {b : Board α} (h : b.Agreed) {c : Hex} {t : Tile} (hc : b.tile? c = some t)
    (ht : t ≠ .unoccupied) : b.emptied c = b.cleared [c] := by
  have hone : b.cleared [c] = { b with
      tiles := b.tiles.put c .unoccupied
      nodes := b.nodes.filter fun _ n => n.position ≠ c
      hearts := b.hearts.filter fun _ h => h.position ≠ c
      terrain := b.terrain.filter fun _ t => t.position ≠ c
      topologyDirty := true } := by
    simp only [cleared, List.mem_singleton, List.isEmpty_cons, Bool.not_false, Bool.or_true,
      Region.put, Table.modify_eq_overwrite]
  -- the occupant goes by its id, and nobody of another sort stands on the cell
  rw [hone, emptied, hc]
  rw [tile?] at hc
  have hother {u : Tile} (hne : u ≠ t) : b.tiles.get? c ≠ some u :=
    fun heq => hne (Option.some.inj (heq.symm.trans hc))
  cases t with
  | unoccupied => exact absurd rfl ht
  | node i =>
    rw [← h.nodes.erase_eq_filter (fun _ _ => Tile.node.inj) hc,
      h.hearts.filter_eq_self fun _ => hother fun h => Tile.noConfusion h,
      h.terrain.filter_eq_self fun _ => hother fun h => Tile.noConfusion h]
  | heart i =>
    rw [← h.hearts.erase_eq_filter (fun _ _ => Tile.heart.inj) hc,
      h.nodes.filter_eq_self fun _ => hother fun h => Tile.noConfusion h,
      h.terrain.filter_eq_self fun _ => hother fun h => Tile.noConfusion h]
  | terrain i =>
    rw [← h.terrain.erase_eq_filter (fun _ _ => Tile.terrain.inj) hc,
      h.nodes.filter_eq_self fun _ => hother fun h => Tile.noConfusion h,
      h.hearts.filter_eq_self fun _ => hother fun h => Tile.noConfusion h]

/-- Clearing cells keeps tiles and tables in agreement. -/
theorem Agreed.foldl_emptied {b : Board α} (h : b.Agreed) (cells : List Hex) :
    (cells.foldl Board.emptied b).Agreed :=
  List.foldlRecOn cells _ h fun _ hc c _ => hc.emptied c

/-- Something stands on the cell. -/
def Occupied (b : Board α) (c : Hex) : Prop := ∃ t, b.tile? c = some t ∧ t ≠ .unoccupied

/-- **Cells that are cleared one after the other are cleared as if all at once**, and no clearing is
refused. -/
theorem foldl_emptied {b : Board α} (h : b.Agreed) {cells : List Hex} (hnodup : cells.Nodup)
    (hcells : ∀ c ∈ cells, b.Occupied c) : cells.foldl emptied b = b.cleared cells ∧
      cells.foldlM (fun b c => (b.clearCell c).map (·.2)) b = .ok (b.cleared cells) := by
  induction cells generalizing b with
  | nil =>
    rw [cleared_nil]
    exact ⟨rfl, rfl⟩
  | cons c cells ih =>
    obtain ⟨hc, hnodup⟩ := List.nodup_cons.mp hnodup
    obtain ⟨t, htile, ht⟩ := hcells c List.mem_cons_self
    have hempty := emptied_eq h htile ht
    -- clearing the first cell leaves the others occupied, as none of them comes twice
    have hstill : ∀ c' ∈ cells, (b.emptied c).Occupied c' := by
      intro c' hc'
      have hne : c' ≠ c := fun e => hc (e ▸ hc')
      rw [Occupied, hempty, tile?_cleared, if_neg (by simpa using hne)]
      exact hcells c' (List.mem_cons_of_mem c hc')
    obtain ⟨hfold, hfoldM⟩ := ih (h.emptied c) hnodup hstill
    have hall : (b.emptied c).cleared cells = b.cleared (c :: cells) := by
      rw [hempty, cleared_cleared]
      rfl
    rw [← hall]
    refine ⟨hfold, ?_⟩
    rw [List.foldlM_cons, clearCell, htile]
    exact hfoldM

end Board

/-! ### Where the dead lie -/

namespace Agrees

variable {ν : Type} {tiles : Region Tile} {tile : Int → Tile} {t : Table Int ν} {id : ν → Int}
  {position : ν → Hex}

/-- Occupants of two sorts stand on different cells. -/
theorem position_ne {μ : Type} {tile' : Int → Tile} {u : Table Int μ} {id' : μ → Int}
    {position' : μ → Hex} (h : Agrees tiles tile t id position)
    (h' : Agrees tiles tile' u id' position') (hne : ∀ i j, tile i ≠ tile' j) {v : ν}
    (hv : v ∈ t.values) {w : μ} (hw : w ∈ u.values) : position v ≠ position' w := by
  intro e
  have := h.tile_of_mem hv
  rw [e, h'.tile_of_mem hw] at this
  exact hne _ _ (Option.some.inj this).symm

/-- Where the occupants stand that pass a test. -/
theorem mem_positions_iff (h : Agrees tiles tile t id position) {p : ν → Bool} {c : Hex} :
    c ∈ (t.values.filter p).map position ↔
      ∃ i v, tiles.get? c = some (tile i) ∧ t.get? i = some v ∧ p v = true := by
  simp only [List.mem_map, List.mem_filter]
  constructor
  · rintro ⟨v, ⟨hv, hp⟩, rfl⟩
    exact ⟨id v, v, h.tile_of_mem hv, h.keyed.get?_id hv, hp⟩
  · rintro ⟨i, v, hc, hv, hp⟩
    obtain ⟨w, hw, hwc⟩ := (h.tile_iff c i).mp hc
    obtain rfl := Option.some.inj (hv.symm.trans hw)
    exact ⟨v, ⟨Table.mem_values_of_get? hv, hp⟩, hwc⟩

end Agrees

namespace Board

/-- The cells of all that were reaped, in the order in which they were cleared. -/
def Reaping.cells (r : Reaping α) : List Hex :=
  r.nodes.map (·.position) ++ r.hearts.map (·.position) ++ r.terrain.map (·.position)

/-- No cell is cleared exactly if nobody is reaped. -/
theorem Reaping.isEmpty_cells (r : Reaping α) :
    r.cells.isEmpty = (r.nodes.isEmpty && r.hearts.isEmpty && r.terrain.isEmpty) := by
  rw [Bool.eq_iff_iff]
  simp [cells, and_assoc]

variable [Scalar α] {b : Board α}

/-- What stands on the cells that are cleared: the dead of each sort. -/
theorem mem_cells_iff (h : b.Agreed) {c : Hex} : c ∈ b.reapDead.cells ↔
    ((∃ i n, b.tile? c = some (.node i) ∧ b.nodes.get? i = some n ∧ n.health ≤ (0.0 : α)) ∨
      ∃ i v, b.tile? c = some (.heart i) ∧ b.hearts.get? i = some v ∧ v.health ≤ (0.0 : α)) ∨
      ∃ i t, b.tile? c = some (.terrain i) ∧ b.terrain.get? i = some t ∧
        t.health ≤ (0.0 : α) := by
  have hnodes := h.nodes.mem_positions_iff (p := fun n => n.health ≤ (0.0 : α)) (c := c)
  have hhearts := h.hearts.mem_positions_iff (p := fun v => v.health ≤ (0.0 : α)) (c := c)
  have hterrain := h.terrain.mem_positions_iff (p := fun t => t.health ≤ (0.0 : α)) (c := c)
  simp only [decide_eq_true_eq] at hnodes hhearts hterrain
  rw [Reaping.cells, List.mem_append, List.mem_append]
  exact or_congr (or_congr hnodes hhearts) hterrain

/-- Every cell that is reaped is occupied. -/
theorem occupied_of_mem_cells (h : b.Agreed) : ∀ c ∈ b.reapDead.cells, b.Occupied c := by
  intro c hc
  rcases (mem_cells_iff h).mp hc with (⟨i, n, hc, -⟩ | ⟨i, v, hc, -⟩) | ⟨i, t, hc, -⟩
  · exact ⟨_, hc, nofun⟩
  · exact ⟨_, hc, nofun⟩
  · exact ⟨_, hc, nofun⟩

/-- No cell is reaped twice. -/
theorem nodup_cells (h : b.Agreed) : b.reapDead.cells.Nodup := by
  -- nobody shares a cell with another of the same sort, or of another one
  have hnodes : (b.reapDead.nodes.map (·.position)).Nodup :=
    (List.filter_sublist.map _).nodup (h.nodes.nodup_positions fun _ _ => Tile.node.inj)
  have hhearts : (b.reapDead.hearts.map (·.position)).Nodup :=
    (List.filter_sublist.map _).nodup (h.hearts.nodup_positions fun _ _ => Tile.heart.inj)
  have hterrain : (b.reapDead.terrain.map (·.position)).Nodup :=
    (List.filter_sublist.map _).nodup (h.terrain.nodup_positions fun _ _ => Tile.terrain.inj)
  refine List.nodup_append.mpr ⟨List.nodup_append.mpr ⟨hnodes, hhearts, ?_⟩, hterrain, ?_⟩
  · intro c hc c' hc'
    obtain ⟨n, hn, rfl⟩ := List.mem_map.mp hc
    obtain ⟨v, hv, rfl⟩ := List.mem_map.mp hc'
    exact h.nodes.position_ne h.hearts (fun _ _ => nofun) (List.mem_of_mem_filter hn)
      (List.mem_of_mem_filter hv)
  · intro c hc c' hc'
    obtain ⟨t, ht, rfl⟩ := List.mem_map.mp hc'
    rcases List.mem_append.mp hc with hc | hc
    · obtain ⟨n, hn, rfl⟩ := List.mem_map.mp hc
      exact h.nodes.position_ne h.terrain (fun _ _ => nofun) (List.mem_of_mem_filter hn)
        (List.mem_of_mem_filter ht)
    · obtain ⟨v, hv, rfl⟩ := List.mem_map.mp hc
      exact h.hearts.position_ne h.terrain (fun _ _ => nofun) (List.mem_of_mem_filter hv)
        (List.mem_of_mem_filter ht)

/-- All cells of the dead are cleared at once, and no clearing is refused. -/
theorem reapDead_eq (h : b.Agreed) : b.reapDead.board = b.cleared b.reapDead.cells ∧
    b.reapDead.cells.foldlM (fun b c => (b.clearCell c).map (·.2)) b = .ok b.reapDead.board := by
  obtain ⟨hfold, hfoldM⟩ := foldl_emptied h (nodup_cells h) (occupied_of_mem_cells h)
  rw [← hfold] at hfoldM
  exact ⟨hfold, hfoldM⟩

/-- The cell of a node is reaped exactly if the node is dead. -/
theorem node_mem_cells_iff (h : b.Agreed) {n : Node α} (hn : n ∈ b.nodes.values) :
    n.position ∈ b.reapDead.cells ↔ n.health ≤ (0.0 : α) := by
  have htile : b.tile? n.position = some (.node n.id) := h.nodes.tile_of_mem hn
  simp [mem_cells_iff h, htile, h.nodes.keyed.get?_id hn]

/-- The cell of a heart is reaped exactly if the heart is dead. -/
theorem heart_mem_cells_iff (h : b.Agreed) {v : Heart α} (hv : v ∈ b.hearts.values) :
    v.position ∈ b.reapDead.cells ↔ v.health ≤ (0.0 : α) := by
  have htile : b.tile? v.position = some (.heart v.id) := h.hearts.tile_of_mem hv
  simp [mem_cells_iff h, htile, h.hearts.keyed.get?_id hv]

/-- The cell of terrain is reaped exactly if the terrain is dead. -/
theorem terrain_mem_cells_iff (h : b.Agreed) {t : Terrain α} (ht : t ∈ b.terrain.values) :
    t.position ∈ b.reapDead.cells ↔ t.health ≤ (0.0 : α) := by
  have htile : b.tile? t.position = some (.terrain t.id) := h.terrain.tile_of_mem ht
  simp [mem_cells_iff h, htile, h.terrain.keyed.get?_id ht]

/-- What reaping has to do with a board: the dead of each table in the order of the table, and a
board that has lost them, with nothing on their cells, and all else as it was. -/
structure Reaped (b : Board α) (r : Reaping α) : Prop where
  nodes : r.nodes = b.nodes.values.filter fun n => n.health ≤ (0.0 : α)
  hearts : r.hearts = b.hearts.values.filter fun h => h.health ≤ (0.0 : α)
  terrain : r.terrain = b.terrain.values.filter fun t => t.health ≤ (0.0 : α)
  left : r.board = { b with
    tiles := { b.tiles with cells := r.board.tiles.cells }
    nodes := b.nodes.filter fun _ n => ¬ n.health ≤ (0.0 : α)
    hearts := b.hearts.filter fun _ h => ¬ h.health ≤ (0.0 : α)
    terrain := b.terrain.filter fun _ t => ¬ t.health ≤ (0.0 : α)
    topologyDirty :=
      b.topologyDirty || !(r.nodes.isEmpty && r.hearts.isEmpty && r.terrain.isEmpty) }
  domain : r.board.tiles.cells.keys = b.tiles.cells.keys
  freed : ∀ c ∈ r.cells, r.board.tile? c = some .unoccupied
  kept : ∀ c, c ∉ r.cells → r.board.tile? c = b.tile? c

/-- **Reaping takes away exactly the dead**, and nothing else changes. -/
theorem reaped (h : b.Agreed) : Reaped b b.reapDead := by
  obtain ⟨hboard, -⟩ := reapDead_eq h
  have hnodes : (b.nodes.filter fun _ n => n.position ∉ b.reapDead.cells) =
      b.nodes.filter fun _ n => ¬ n.health ≤ (0.0 : α) :=
    Table.filter_congr fun n hn => decide_eq_decide.mpr (not_congr (node_mem_cells_iff h hn))
  have hhearts : (b.hearts.filter fun _ v => v.position ∉ b.reapDead.cells) =
      b.hearts.filter fun _ v => ¬ v.health ≤ (0.0 : α) :=
    Table.filter_congr fun v hv => decide_eq_decide.mpr (not_congr (heart_mem_cells_iff h hv))
  have hterrain : (b.terrain.filter fun _ t => t.position ∉ b.reapDead.cells) =
      b.terrain.filter fun _ t => ¬ t.health ≤ (0.0 : α) :=
    Table.filter_congr fun t ht => decide_eq_decide.mpr (not_congr (terrain_mem_cells_iff h ht))
  refine ⟨rfl, rfl, rfl, ?_, ?_, fun c hc => ?_, fun c hc => ?_⟩
  · rw [hboard, ← hnodes, ← hhearts, ← hterrain, ← Reaping.isEmpty_cells]
    rfl
  · rw [hboard]
    exact Table.keys_overwrite _ _ _
  · obtain ⟨t, ht, -⟩ := occupied_of_mem_cells h c hc
    rw [hboard, tile?_cleared, if_pos hc, ht, Option.map_some]
  · rw [hboard, tile?_cleared, if_neg hc]

/-- A board that has lost its dead has nobody left to reap. -/
theorem Reaped.reapDead_eq {r : Reaping α} (h : Reaped b r) :
    r.board.reapDead = ⟨[], [], [], r.board⟩ := by
  have hnone {ν : Type} (t : Table Int ν) (p : ν → Prop) [DecidablePred p] :
      (t.filter fun _ v => ¬ p v).values.filter (fun v => p v) = [] := by
    rw [Table.values_filter, List.filter_eq_nil_iff]
    intro v hv
    simpa using (List.mem_filter.mp hv).2
  have hnodes : (r.board.nodes.values.filter fun n => n.health ≤ (0.0 : α)) = [] := by
    rw [h.left]
    exact hnone b.nodes _
  have hhearts : (r.board.hearts.values.filter fun v => v.health ≤ (0.0 : α)) = [] := by
    rw [h.left]
    exact hnone b.hearts _
  have hterrain : (r.board.terrain.values.filter fun t => t.health ≤ (0.0 : α)) = [] := by
    rw [h.left]
    exact hnone b.terrain _
  rw [reapDead, hnodes, hhearts, hterrain]
  rfl

/-- **Reaping takes exactly the dead.**  Where tiles and tables agree, whatever the health of anything
is, those are reaped whose health is used up, in the order of their tables; they are gone from the
tables, their cells are free, and nothing else has changed but the mark that the topology did, if
anybody died.  No cell is refused while they are cleared one after the other, tiles and tables agree
again, and reaping again finds nobody. -/
theorem Agreed.reaping (h : b.Agreed) : Reaped b b.reapDead ∧
    b.reapDead.cells.foldlM (fun b c => (b.clearCell c).map (·.2)) b = .ok b.reapDead.board ∧
    b.reapDead.board.Agreed ∧
    b.reapDead.board.reapDead = ⟨[], [], [], b.reapDead.board⟩ := by
  exact ⟨reaped h, (reapDead_eq h).2, h.foldl_emptied _, (reaped h).reapDead_eq⟩

/-- A heart, two nodes and two pieces of terrain, of which three are dead. -/
def ruins : Board ℚ := (History.of .builtin .standard [
  .placeTerrain ⟨0, 1⟩ none, .placeNode ⟨1, 0⟩ "Debug", .placeHeart ⟨0, 0⟩,
  .placeNode ⟨2, 0⟩ "Storage", .placeTerrain ⟨0, 2⟩ (some (-1.0)), .nodeHealth 2 0.0,
  .heartHealth 3 0.0]).board

/-- What is left of them is a node and a piece of terrain. -/
theorem Agreed.reaping_ruins : ruins.Agreed ∧ Reaped ruins ruins.reapDead ∧
    ruins.reapDead.cells = [⟨1, 0⟩, ⟨0, 0⟩, ⟨0, 2⟩] ∧
    ruins.reapDead.board.nodes.keys = [4] ∧ ruins.reapDead.board.terrain.keys = [1] ∧
    ruins.reapDead.board.tile? ⟨0, 0⟩ = some .unoccupied ∧
    ruins.reapDead.board.tile? ⟨2, 0⟩ = some (.node 4) := by
  have h : ruins.Agreed := (History.sound_of .builtin .standard _).consistent.agreed
  exact ⟨h, h.reaping.1, by decide +kernel, by decide +kernel, by decide +kernel,
    by decide +kernel, by decide +kernel⟩

end Board

end HexPulse
