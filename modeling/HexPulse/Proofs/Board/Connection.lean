import HexPulse.Proofs.Board.History
import HexPulse.Proofs.Board.Topology
import HexPulse.Scalar.Double

/-!
# HexPulse — Proofs — Board — Connection

A cell is connected if a walk leads to it from the cell of a live heart, each of whose further cells
holds a node (`Board.Connected`).  The flood finds these cells and no others, each of them once
(`Hex.mem_flood_iff`, `Hex.nodup_flood`), on any layout: islands, dead hearts, hearts side by side.

* `Board.pruning_by_connection`: pruning enables the disabled nodes on connected cells, disables the
  other nodes off them, reports both in the order of the table and changes nothing else; behind it
  no node that takes part stands beside a disabled one, and pruning again does nothing.
-/

namespace HexPulse

/-! ### Floods -/

namespace Hex

/-- A step to a neighbouring cell that is one of `cells`. -/
def StepIn (cells : List Hex) (a b : Hex) : Prop := b ∈ a.neighbors ∧ b ∈ cells

theorem StepIn.mono {cells cells' : List Hex} (h : cells ⊆ cells') {a b : Hex}
    (hab : StepIn cells a b) : StepIn cells' a b :=
  ⟨hab.1, h hab.2⟩

/-- The cells beside `c` are its neighbours among the given ones. -/
theorem mem_beside_iff {c x : Hex} {cells : List Hex} :
    x ∈ c.beside cells ↔ x ∈ cells ∧ x ∈ c.neighbors := by
  simp [beside]

theorem mem_apart_iff {c x : Hex} {cells : List Hex} :
    x ∈ c.apart cells ↔ x ∈ cells ∧ x ∉ c.neighbors := by
  simp [apart]

theorem apart_subset (c : Hex) (cells : List Hex) : c.apart cells ⊆ cells :=
  fun _ hx => (mem_apart_iff.mp hx).1

/-- Once the neighbours of `c` have joined the frontier, `c` and they are needed no more: what was
reached through them is reached from them, through the cells that are left. -/
theorem reached_of_cons {c s x : Hex} {frontier rest : List Hex} (hs : s ∈ c :: frontier)
    (h : Relation.TransGen (StepIn rest) s x) : x ∈ c.beside rest ∨
      ∃ t ∈ frontier ++ c.beside rest, Relation.TransGen (StepIn (c.apart rest)) t x := by
  have hstep {a b : Hex} (hab : StepIn rest a b) : b ∈ c.beside rest ∨
      (a ≠ c ∧ StepIn (c.apart rest) a b) := by
    by_cases hb : b ∈ c.neighbors
    · exact .inl (mem_beside_iff.mpr ⟨hab.2, hb⟩)
    · exact .inr ⟨fun e => hb (e ▸ hab.1), hab.1, mem_apart_iff.mpr ⟨hab.2, hb⟩⟩
  induction h with
  | single hsx =>
    rcases hstep hsx with hx | ⟨hne, hsx⟩
    · exact .inl hx
    · have hs : s ∈ frontier := (List.mem_cons.mp hs).resolve_left hne
      exact .inr ⟨s, List.mem_append_left _ hs, .single hsx⟩
  | tail _ hax ih =>
    rcases hstep hax with hx | ⟨-, hax⟩
    · exact .inl hx
    · rcases ih with ha | ⟨t, ht, hta⟩
      · exact .inr ⟨_, List.mem_append_right _ ha, .single hax⟩
      · exact .inr ⟨t, ht, hta.tail hax⟩

/-- **The flood finds what can be walked to.** -/
theorem mem_flood_iff {frontier rest : List Hex} {x : Hex} :
    x ∈ flood frontier rest ↔ ∃ s ∈ frontier, Relation.TransGen (StepIn rest) s x := by
  fun_induction flood frontier rest with
  | case1 rest => simp
  | case2 c frontier rest ih =>
    rw [List.mem_append, ih]
    constructor
    · rintro (hx | ⟨s, hs, h⟩)
      · obtain ⟨hx, hc⟩ := mem_beside_iff.mp hx
        exact ⟨c, List.mem_cons_self, .single ⟨hc, hx⟩⟩
      · have h : Relation.TransGen (StepIn rest) s x :=
          Relation.TransGen.mono (fun _ _ => StepIn.mono (c.apart_subset rest)) _ _ h
        rcases List.mem_append.mp hs with hs | hs
        · exact ⟨s, List.mem_cons_of_mem _ hs, h⟩
        · -- a neighbour of `c` is one step behind it
          obtain ⟨hs, hc⟩ := mem_beside_iff.mp hs
          exact ⟨c, List.mem_cons_self, .head ⟨hc, hs⟩ h⟩
    · rintro ⟨s, hs, h⟩
      exact reached_of_cons hs h

/-- A flood stays among the cells that it may enter. -/
theorem flood_subset (frontier rest : List Hex) : flood frontier rest ⊆ rest := by
  intro x hx
  obtain ⟨s, -, h⟩ := mem_flood_iff.mp hx
  obtain ⟨_, -, h⟩ := Relation.TransGen.tail'_iff.mp h
  exact h.2

/-- No cell is found twice. -/
theorem nodup_flood {frontier rest : List Hex} (h : rest.Nodup) : (flood frontier rest).Nodup := by
  fun_induction flood frontier rest with
  | case1 rest => exact List.nodup_nil
  | case2 c frontier rest ih =>
    refine List.nodup_append.mpr ⟨h.filter _, ih (h.filter _), fun x hx y hy e => ?_⟩
    have hy := (mem_apart_iff.mp (flood_subset _ _ hy)).2
    exact hy (e ▸ (mem_beside_iff.mp hx).2)

end Hex

namespace Board

variable {α : Type}

/-! ### Connected cells -/

/-- A step to a neighbouring cell that holds a node. -/
def StepOn (b : Board α) (c c' : Hex) : Prop := c' ∈ c.neighbors ∧ ∃ n, b.nodeAt? c' = some n

/-- The cells that a flood may enter are those with a node. -/
theorem mem_nodeCells_iff {b : Board α} (honce : b.tiles.cells.keys.Nodup) {c : Hex} :
    c ∈ b.nodeCells ↔ ∃ n, b.nodeAt? c = some n := by
  simp only [nodeAt?_eq_some_iff]
  constructor
  · intro hc
    obtain ⟨⟨c, t⟩, he, rfl⟩ := List.mem_map.mp hc
    obtain ⟨he, hnode⟩ := List.mem_filter.mp he
    cases t with
    | node i =>
      obtain ⟨n, hn⟩ := Option.isSome_iff_exists.mp hnode
      exact ⟨n, i, (Table.get?_eq_some_iff_mem honce).mpr he, hn⟩
    | _ => cases hnode
  · rintro ⟨n, i, htile, hn⟩
    refine List.mem_map.mpr ⟨(c, .node i), List.mem_filter.mpr ⟨?_, ?_⟩, rfl⟩
    · exact Table.mem_entries_of_get? htile
    · exact Option.isSome_iff_exists.mpr ⟨n, hn⟩

/-! ### The nodes that pruning changes -/

section

variable {reached : List Hex} {n : Node α}

/-- A silent node that is reached becomes idle. -/
theorem pruneNode_of_mem (h : n.position ∈ reached) (hd : n.state = .disabled) :
    pruneNode reached n = { n with state := .idle } := by
  rw [pruneNode, if_pos (List.contains_iff_mem.mpr h), hd]

/-- A node that is not reached falls silent. -/
theorem pruneNode_of_notMem (h : n.position ∉ reached) :
    pruneNode reached n = { n with state := .disabled } := by
  rw [pruneNode, if_neg fun hc => h (List.contains_iff_mem.mp hc)]

/-- A node stays as it is if it is reached or disabled, and not both. -/
theorem pruneNode_eq_self (h : n.position ∈ reached ↔ n.state ≠ .disabled) :
    pruneNode reached n = n := by
  by_cases hreached : n.position ∈ reached
  · rw [pruneNode, if_pos (List.contains_iff_mem.mpr hreached)]
    split
    · next hd => exact absurd hd (h.mp hreached)
    · rfl
  · have hd : n.state = .disabled := not_not.mp fun hd => hreached (h.mpr hd)
    rw [pruneNode_of_notMem hreached, ← hd]

/-- A node that was pruned is reached or disabled, and not both. -/
theorem mem_iff_of_pruneNode (reached : List Hex) (n : Node α) :
    (pruneNode reached n).position ∈ reached ↔ (pruneNode reached n).state ≠ .disabled := by
  rw [position_pruneNode, ne_eq, pruneNode_state_eq_disabled_iff, not_not]

end

variable [Scalar α]

/-- A walk leads to the cell from the cell of a live heart, over cells that hold nodes. -/
def Connected (b : Board α) (c : Hex) : Prop :=
  ∃ h ∈ b.hearts.values, h.alive = true ∧ Relation.ReflTransGen b.StepOn h.position c

/-- Where a cell is connected, so is every node beside it. -/
theorem Connected.step {b : Board α} {c c' : Hex} (h : b.Connected c) (hc : b.StepOn c c') :
    b.Connected c' := by
  obtain ⟨v, hv, halive, hwalk⟩ := h
  exact ⟨v, hv, halive, hwalk.tail hc⟩

/-- **Reached is what is connected.** -/
theorem mem_reachable_iff {b : Board α} (honce : b.tiles.cells.keys.Nodup) {c : Hex} :
    c ∈ b.reachable ↔ b.Connected c := by
  have hstep : Hex.StepIn b.nodeCells = b.StepOn :=
    funext₂ fun _ _ => propext (and_congr_right fun _ => mem_nodeCells_iff honce)
  have hhearts (c : Hex) : c ∈ b.heartCells ↔
      ∃ h ∈ b.hearts.values, h.alive = true ∧ h.position = c := by
    simp [heartCells, and_assoc]
  rw [reachable, List.mem_append, Hex.mem_flood_iff, hstep]
  constructor
  · rintro (hc | ⟨s, hs, hwalk⟩)
    · obtain ⟨h, hh, halive, rfl⟩ := (hhearts c).mp hc
      exact ⟨h, hh, halive, .refl⟩
    · obtain ⟨h, hh, halive, rfl⟩ := (hhearts s).mp hs
      exact ⟨h, hh, halive, hwalk.to_reflTransGen⟩
  · rintro ⟨h, hh, halive, hwalk⟩
    have hs := (hhearts _).mpr ⟨h, hh, halive, rfl⟩
    rcases Relation.reflTransGen_iff_eq_or_transGen.mp hwalk with rfl | hwalk
    · exact .inl hs
    · exact .inr ⟨_, hs, hwalk⟩

/-! ### Pruning -/

/-- What pruning makes of a board.  `p` is the pruning of `b` by its connected cells. -/
structure PrunedBy (b : Board α) (p : Pruning α) : Prop where
  enable : ∀ n ∈ b.nodes.values, b.Connected n.position → n.state = .disabled →
    p.board.nodes.get? n.id = some { n with state := .idle }
  disable : ∀ n ∈ b.nodes.values, ¬ b.Connected n.position → n.state ≠ .disabled →
    p.board.nodes.get? n.id = some { n with state := .disabled }
  keep : ∀ n ∈ b.nodes.values, (b.Connected n.position ↔ n.state ≠ .disabled) →
    p.board.nodes.get? n.id = some n
  /-- the nodes stay in their order, and nothing else is touched but the mark -/
  rest : p.board.nodes.keys = b.nodes.keys ∧
    p.board = { b with nodes := p.board.nodes, topologyDirty := false }
  enabled : p.enabled.Sublist b.nodes.keys ∧ ∀ n ∈ b.nodes.values,
    n.id ∈ p.enabled ↔ b.Connected n.position ∧ n.state = .disabled
  disabled : p.disabled.Sublist b.nodes.keys ∧ ∀ n ∈ b.nodes.values,
    n.id ∈ p.disabled ↔ ¬ b.Connected n.position ∧ n.state ≠ .disabled
  /-- no node that takes part stands beside a disabled one -/
  apart : ∀ n ∈ p.board.nodes.values, ∀ m ∈ p.board.nodes.values,
    m.position ∈ n.position.neighbors → n.state ≠ .disabled → m.state ≠ .disabled
  again : p.board.prune = ⟨[], [], p.board⟩

/-- Pruning changes neither tiles nor hearts, so that the same cells are reached. -/
theorem reachable_prune (b : Board α) : b.prune.board.reachable = b.reachable := by
  have hcontains : ∀ tile, b.prune.board.isNode tile = b.isNode tile := by
    intro tile
    cases tile with
    | node i => exact Table.contains_mapValues _ _ _
    | _ => rfl
  have hcells : b.prune.board.nodeCells = b.nodeCells :=
    congrArg (fun p => (b.tiles.cells.filter p).keys) (funext₂ fun _ tile => hcontains tile)
  rw [reachable, reachable, hcells]
  rfl

/-- Behind a pruning, a node is reached or disabled, and not both. -/
theorem mem_reachable_iff_of_prune {b : Board α} {m : Node α} (hm : m ∈ b.prune.board.nodes.values) :
    m.position ∈ b.reachable ↔ m.state ≠ .disabled := by
  rw [prune, Table.values_mapValues] at hm
  obtain ⟨n, -, rfl⟩ := List.mem_map.mp hm
  exact mem_iff_of_pruneNode _ n

/-- The nodes that are enabled are the silent ones that are reached. -/
theorem mem_enabled_iff {b : Board α} (hb : b.NodesAgree) {n : Node α} (hn : n ∈ b.nodes.values) :
    n.id ∈ b.prune.enabled ↔ n.position ∈ b.reachable ∧ n.state = .disabled := by
  rw [prune, hb.keyed.id_mem_map_filter_iff hn, Bool.and_eq_true, List.contains_iff_mem,
    decide_eq_true_eq]
  exact and_congr_right fun _ => NodeState.phase_eq_disabled_iff

/-- The nodes that are disabled are those that were not silent and are not reached. -/
theorem mem_disabled_iff {b : Board α} (hb : b.NodesAgree) {n : Node α} (hn : n ∈ b.nodes.values) :
    n.id ∈ b.prune.disabled ↔ n.position ∉ b.reachable ∧ n.state ≠ .disabled := by
  rw [prune, hb.keyed.id_mem_map_filter_iff hn, Bool.and_eq_true, Bool.not_eq_true',
    Bool.not_eq_true', ← Bool.not_eq_true, ← Bool.not_eq_true, List.contains_iff_mem,
    decide_eq_true_eq]
  exact and_congr_right fun _ => not_congr NodeState.phase_eq_disabled_iff

/-- Pruning leaves nodes where they stand. -/
theorem NodesAgree.prune {b : Board α} (hb : b.NodesAgree) : b.prune.board.NodesAgree :=
  Agrees.mapValues hb (id_pruneNode b.reachable) (position_pruneNode b.reachable)

/-- Pruning again does nothing. -/
theorem prune_prune {b : Board α} (hb : b.NodesAgree) :
    b.prune.board.prune = ⟨[], [], b.prune.board⟩ := by
  -- the cells that are reached stay the same, and each node is by now as they say
  have hsettled {m : Node α} (hm : m ∈ b.prune.board.nodes.values) :
      m.position ∈ b.prune.board.reachable ↔ m.state ≠ .disabled := by
    rw [reachable_prune]
    exact mem_reachable_iff_of_prune hm
  have hnone {ids : List Int} (hids : ids.Sublist b.prune.board.nodes.keys)
      (h : ∀ m ∈ b.prune.board.nodes.values, m.id ∉ ids) : ids = [] := by
    refine List.eq_nil_iff_forall_not_mem.mpr fun i hi => ?_
    obtain ⟨m, hm, rfl⟩ := hb.prune.keyed.mem_keys_iff.mp (hids.subset hi)
    exact h m hm hi
  have henabled : b.prune.board.prune.enabled = [] := by
    refine hnone (hb.prune.keyed.map_filter_sublist _) fun m hm hi => ?_
    obtain ⟨hreached, hd⟩ := (mem_enabled_iff hb.prune hm).mp hi
    exact (hsettled hm).mp hreached hd
  have hdisabled : b.prune.board.prune.disabled = [] := by
    refine hnone (hb.prune.keyed.map_filter_sublist _) fun m hm hi => ?_
    obtain ⟨hreached, hd⟩ := (mem_disabled_iff hb.prune hm).mp hi
    exact hreached ((hsettled hm).mpr hd)
  have hboard : b.prune.board.prune.board = b.prune.board := by
    have hnodes := Table.mapValues_eq_self fun m hm => pruneNode_eq_self (hsettled (m := m) hm)
    exact congrArg (fun t => { b.prune.board with nodes := t, topologyDirty := false }) hnodes
  calc b.prune.board.prune
    _ = ⟨b.prune.board.prune.enabled, b.prune.board.prune.disabled, b.prune.board.prune.board⟩ := rfl
    _ = ⟨[], [], b.prune.board⟩ := by rw [henabled, hdisabled, hboard]

/-- Where a node stands behind the pruning, one stood before it. -/
theorem exists_nodeAt?_of_prune {b : Board α} (hb : b.NodesAgree) {m : Node α}
    (hm : m ∈ b.prune.board.nodes.values) : ∃ n, b.nodeAt? m.position = some n := by
  rw [prune, Table.values_mapValues] at hm
  obtain ⟨n, hn, rfl⟩ := List.mem_map.mp hm
  rw [position_pruneNode]
  exact ⟨n, nodeAt?_eq_some_iff.mpr ⟨n.id, Agrees.tile_of_mem hb hn, hb.keyed.get?_id hn⟩⟩

/-- **Pruning goes by connection.** -/
theorem pruning_by_connection {b : Board α} (hb : b.NodesAgree)
    (honce : b.tiles.cells.keys.Nodup) :
    (∀ c, c ∈ b.reachable ↔ b.Connected c) ∧ (Hex.flood b.heartCells b.nodeCells).Nodup ∧
      b.PrunedBy b.prune := by
  have hreachable (c : Hex) : c ∈ b.reachable ↔ b.Connected c := mem_reachable_iff honce
  have hget {n : Node α} (hn : n ∈ b.nodes.values) :
      b.prune.board.nodes.get? n.id = some (pruneNode b.reachable n) := by
    rw [prune, Table.get?_mapValues, hb.keyed.get?_id hn, Option.map_some]
  refine ⟨hreachable, Hex.nodup_flood (honce.sublist (List.Sublist.map _ List.filter_sublist)), ?_⟩
  constructor
  case enable =>
    intro n hn hc hd
    rw [hget hn, pruneNode_of_mem ((hreachable _).mpr hc) hd]
  case disable =>
    intro n hn hc _
    rw [hget hn, pruneNode_of_notMem fun h => hc ((hreachable _).mp h)]
  case keep =>
    intro n hn hc
    rw [hget hn, pruneNode_eq_self ((hreachable _).trans hc)]
  case rest => exact ⟨Table.keys_mapValues _ _, rfl⟩
  case enabled =>
    refine ⟨hb.keyed.map_filter_sublist _, fun n hn => ?_⟩
    rw [mem_enabled_iff hb hn, hreachable]
  case disabled =>
    refine ⟨hb.keyed.map_filter_sublist _, fun n hn => ?_⟩
    rw [mem_disabled_iff hb hn, hreachable]
  case apart =>
    intro n hn m hm hbeside hpart
    have hn := (hreachable _).mp ((mem_reachable_iff_of_prune hn).mpr hpart)
    have hm' := hn.step ⟨hbeside, exists_nodeAt?_of_prune hb hm⟩
    exact (mem_reachable_iff_of_prune hm).mp ((hreachable _).mpr hm')
  case again => exact prune_prune hb

/-- Two hearts side by side with two nodes in a row, and a heart with a node far from them. -/
def settlement : List (Edit Float) := [
  .placeHeart ⟨0, 0⟩, .placeHeart ⟨0, 1⟩, .placeHeart ⟨-2, 0⟩, .placeNode ⟨1, 0⟩ "ConstantNumber",
  .placeNode ⟨2, -1⟩ "Debug", .placeNode ⟨-2, 1⟩ "ConstantNumber"]

/-- The board after these and a pruning, when the third heart died and one more node came. -/
@[irreducible] def islands : Board Float :=
  let grid := { GridSettings.standard with radius := 2 }
  let b := (History.of .builtin { Settings.standard with grid := grid } settlement).board
  ([Edit.heartHealth 3 0.0, .placeNode ⟨0, -1⟩ "Debug"].foldl History.next ⟨b.prune.board, []⟩).board

/-- The new node is enabled, and the one beside the dead heart is disabled. -/
theorem pruning_by_connection_islands :
    islands.NodesAgree ∧ islands.tiles.cells.keys.Nodup ∧ islands.Connected ⟨2, -1⟩ ∧
      ¬ islands.Connected ⟨-2, 1⟩ ∧ islands.PrunedBy islands.prune ∧
      islands.prune.enabled = [7] ∧ islands.prune.disabled = [6] := by
  have hagree : islands.NodesAgree := by decide +kernel
  have honce : islands.tiles.cells.keys.Nodup := by decide +kernel
  obtain ⟨hreachable, -, hpruned⟩ := pruning_by_connection hagree honce
  refine ⟨hagree, honce, (hreachable _).mp (by decide +kernel), fun h => ?_, hpruned,
    by decide +kernel, by decide +kernel⟩
  exact absurd ((hreachable _).mpr h) (by decide +kernel)

end Board

end HexPulse
