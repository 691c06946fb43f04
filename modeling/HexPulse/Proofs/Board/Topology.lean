import HexPulse.Board.Reach
import HexPulse.Proofs.Activation.Pass
import HexPulse.Proofs.Board.Reaping

/-!
# HexPulse — Proofs — Board — Topology

What pruning looks at: the tiles, where the nodes and hearts stand, and which nodes are disabled
(`Board.topology`).  It is `Settled` if the disabled nodes are those that no heart reaches.  A board
is `Synced` if it is settled whenever it is not marked as dirty.

* `Change.synced`, `synced_request`, `Pass.synced_run`: nothing that happens to a board makes it
  out of sync.
* `settled_prune` and `prune_eq_self`: where every heart lives, pruning settles a board, and leaves
  a clean settled board as it is.
* `alive_of_mem_reapDead`: after reaping, every heart lives.
-/

namespace HexPulse

variable {α : Type}

/-! ### What pruning and requests do to nodes -/

namespace Board

@[simp] theorem id_requestNode (n : Node α) : (requestNode n).id = n.id := by
  rw [requestNode]
  split <;> rfl

@[simp] theorem position_requestNode (n : Node α) : (requestNode n).position = n.position := by
  rw [requestNode]
  split <;> rfl

theorem Consistent.request {b : Board α} (h : b.Consistent) : b.request.Consistent :=
  h.mapNodes id_requestNode position_requestNode

/-- After a request, the nodes that take part wait. -/
theorem state?_request {b : Board α} {id : Int} {s : NodeState α}
    (hs : b.request.state? id = some s) :
    s = .disabled ∨ s = .requested ∧ ∃ s', b.state? id = some s' ∧ s' ≠ .disabled := by
  rw [state?_mapValues (b := b) rfl, Option.map_eq_some_iff] at hs
  obtain ⟨n, hn, rfl⟩ := hs
  rw [requestNode]
  split
  · next h => exact .inl h
  · next h => exact .inr ⟨rfl, n.state, state?_of_get? hn, h⟩

@[simp] theorem id_pruneNode (reached : List Hex) (n : Node α) :
    (pruneNode reached n).id = n.id := by
  rw [pruneNode]
  split
  · split <;> rfl
  · rfl

@[simp] theorem position_pruneNode (reached : List Hex) (n : Node α) :
    (pruneNode reached n).position = n.position := by
  rw [pruneNode]
  split
  · split <;> rfl
  · rfl

/-- Pruning silences a node exactly if its cell is not reached. -/
theorem pruneNode_state_eq_disabled_iff {reached : List Hex} {n : Node α} :
    (pruneNode reached n).state = .disabled ↔ n.position ∉ reached := by
  rw [← List.contains_iff_mem]
  rw [pruneNode]
  split
  · next hreached =>
    rw [hreached]
    split
    · exact ⟨nofun, fun h => absurd rfl h⟩
    · next hn => exact ⟨fun h => absurd h hn, fun h => absurd rfl h⟩
  · next hreached => exact ⟨fun _ => hreached, fun _ => rfl⟩

/-- Pruning makes nodes idle or disabled, and otherwise leaves their states alone. -/
theorem state?_prune [Scalar α] {b : Board α} {id : Int} {s : NodeState α}
    (hs : b.prune.board.state? id = some s) (hd : s ≠ .disabled) (hi : s ≠ .idle) :
    b.state? id = some s := by
  rw [state?_mapValues (b := b) rfl, Option.map_eq_some_iff] at hs
  obtain ⟨n, hn, hs⟩ := hs
  rw [pruneNode] at hs
  split at hs
  · split at hs
    · exact absurd hs.symm hi
    · rw [state?_of_get? hn, hs]
  · exact absurd hs.symm hd

theorem Consistent.prune [Scalar α] {b : Board α} (h : b.Consistent) : b.prune.board.Consistent :=
  ⟨h.nodes.mapValues (id_pruneNode _) (position_pruneNode _), h.hearts, h.terrain, h.issued⟩

end Board

/-- A pass without a fault keeps a board consistent. -/
theorem Pass.consistent_run [Scalar α] {b : Board α} (hb : b.Consistent) {sink : List (Effect α)}
    (hf : (run b sink).fault = none) : (run b sink).state.board.Consistent := by
  rw [run_eq hb.nodes.keyed ((run_fault_eq_none_iff hb.nodes.keyed).mp hf)]
  refine hb.mapNodes (fun n => ?_) fun n => ?_
  · split <;> rfl
  · split <;> rfl

/-! ### Topologies -/

/-- What pruning looks at: the tiles, the position of each node and whether it is disabled, and the
position of each heart. -/
structure Topology where
  tiles : Region Tile
  nodes : Table Int (Hex × Bool)
  hearts : Table Int Hex

namespace Topology

/-- The cells that hold nodes. -/
def nodeCells (t : Topology) : List Hex :=
  (t.tiles.cells.filter fun _ tile =>
    match tile with
    | .node id => t.nodes.contains id
    | _ => false).keys

/-- The cells of the hearts, and all cells that are connected to them through nodes. -/
def reachable (t : Topology) : List Hex := t.hearts.values ++ Hex.flood t.hearts.values t.nodeCells

/-- Of the nodes it only matters which ids there are. -/
theorem reachable_congr {t u : Topology} (tiles : t.tiles = u.tiles)
    (nodes : ∀ id, t.nodes.contains id = u.nodes.contains id) (hearts : t.hearts = u.hearts) :
    t.reachable = u.reachable := by
  simp only [reachable, nodeCells, tiles, nodes, hearts]

/-- The disabled nodes are those that no heart reaches. -/
def Settled (t : Topology) : Prop := ∀ n ∈ t.nodes.values, n.2 = true ↔ n.1 ∉ t.reachable

end Topology

namespace Board

/-- The topology of a board. -/
def topology (b : Board α) : Topology where
  tiles := b.tiles
  nodes := b.nodes.mapValues fun n => (n.position, decide (n.state.phase = .disabled))
  hearts := b.hearts.mapValues (·.position)

/-- A board is settled if the nodes that are silent are those out of reach. -/
theorem settled_iff {b : Board α} : b.topology.Settled ↔
    ∀ n ∈ b.nodes.values, n.state = .disabled ↔ n.position ∉ b.topology.reachable := by
  simp [Topology.Settled, topology, NodeState.phase_eq_disabled_iff]

/-- A board that is not marked as dirty is settled. -/
def Synced (b : Board α) : Prop := b.topologyDirty = false → b.topology.Settled

theorem Synced.of_eq {b c : Board α} (h : b.Synced) (hd : c.topologyDirty = b.topologyDirty)
    (ht : c.topology = b.topology) : c.Synced := fun hc => ht ▸ h (hd ▸ hc)

/-! ### Changes -/

/-- Wires are no part of the topology. -/
theorem topology_updateNode (b : Board α) (id : Int) (f : Wiring α → Wiring α) :
    (b.updateNode id fun n => { n with wiring := f n.wiring }).topology = b.topology := by
  simp only [topology, updateNode]
  rw [Table.mapValues_modify]
  exact fun _ => rfl

/-- A change that leaves the board clean leaves its topology alone. -/
theorem Change.topology_eq {b c : Board α} (hc : Change b c) (hclean : c.topologyDirty = false) :
    b.topologyDirty = false ∧ c.topology = b.topology := by
  cases hc with
  | node n claimed position state =>
    obtain ⟨-, -, rfl⟩ := claim_eq_ok claimed
    cases hclean
  | heart h claimed position =>
    obtain ⟨-, -, rfl⟩ := claim_eq_ok claimed
    cases hclean
  | terrain t claimed position =>
    obtain ⟨-, -, rfl⟩ := claim_eq_ok claimed
    cases hclean
  | clear cell =>
    rw [emptied] at hclean ⊢
    split at hclean
    · cases hclean
    · cases hclean
    · cases hclean
    · exact ⟨hclean, rfl⟩
  | wiring i f => exact ⟨hclean, topology_updateNode b i f⟩
  | targets ts => exact ⟨hclean, rfl⟩
  | hearts t sites =>
    refine ⟨hclean, congrArg (fun t => { b.topology with hearts := t }) ?_⟩
    have := congrArg (Table.mapValues Prod.snd) sites
    rwa [Table.mapValues_mapValues, Table.mapValues_mapValues] at this

/-- A change that touches the topology marks the board as dirty. -/
theorem Change.synced {b c : Board α} (hc : Change b c) (h : b.Synced) : c.Synced := by
  intro hclean
  obtain ⟨hb, ht⟩ := hc.topology_eq hclean
  exact ht ▸ h hb

/-- No number of changes leaves a clean board unsettled. -/
theorem Changes.synced {b c : Board α} (hc : Changes b c) (h : b.Synced) : c.Synced := by
  induction hc with
  | refl => exact h
  | tail _ hc ih => exact hc.synced ih

/-! ### Clearing -/

/-- After a cell was cleared, the hearts are those that stood elsewhere. -/
theorem mem_hearts_emptied {b : Board α} (hb : b.Consistent) {cell : Hex} {h : Heart α} :
    h ∈ (b.emptied cell).hearts.values ↔ h ∈ b.hearts.values ∧ h.position ≠ cell := by
  have helse (hcell : ∀ i, b.tile? cell ≠ some (.heart i)) :
      h ∈ b.hearts.values ↔ h ∈ b.hearts.values ∧ h.position ≠ cell :=
    ⟨fun hm => ⟨hm, fun e => hcell h.id (e ▸ hb.hearts.tile_of_mem hm)⟩, fun hm => hm.1⟩
  unfold emptied
  split
  · next i hc => exact helse fun j => by rw [hc]; exact nofun
  · next i hc =>
    -- the heart of the id stands on this cell and on no other
    rw [hb.hearts.keyed.mem_values_erase]
    refine and_congr_right fun hm => not_congr ?_
    exact (hb.hearts.position_eq_iff (fun _ _ => Tile.heart.inj) hc hm).symm
  · next i hc => exact helse fun j => by rw [hc]; exact nofun
  · next h₁ h₂ h₃ => exact helse fun j => h₂ j

/-! ### Requests and passes -/

/-- Nodes may change where they stand, as long as they are not enabled or disabled. -/
theorem topology_mapNodes (b : Board α) {f : Node α → Node α}
    (hp : ∀ n ∈ b.nodes.values, (f n).position = n.position)
    (hd : ∀ n ∈ b.nodes.values, (f n).state.phase = .disabled ↔ n.state.phase = .disabled) :
    ({ b with nodes := b.nodes.mapValues f } : Board α).topology = b.topology := by
  rw [topology, topology, Table.mapValues_mapValues]
  refine congrArg (fun t => Topology.mk b.tiles t (b.hearts.mapValues (·.position))) ?_
  refine Table.mapValues_congr fun n hn => ?_
  rw [hp n hn, decide_eq_decide.mpr (hd n hn)]

/-- A request neither enables nor disables a node. -/
theorem synced_request {b : Board α} (h : b.Synced) : b.request.Synced := by
  refine h.of_eq rfl (b.topology_mapNodes (fun n _ => position_requestNode n) fun n _ => ?_)
  rw [requestNode]
  split
  · rfl
  · next hn => exact ⟨nofun, fun h => absurd (NodeState.phase_eq_disabled_iff.mp h) hn⟩

end Board

/-- A pass neither enables nor disables a node. -/
theorem Pass.synced_run [Scalar α] {b : Board α} (hb : b.nodes.Keyed Node.id) (h : b.Synced)
    {sink : List (Effect α)} (hf : (run b sink).fault = none) :
    (run b sink).state.board.Synced := by
  have hf := (run_fault_eq_none_iff hb).mp hf
  rw [run_eq hb hf]
  refine h.of_eq rfl (b.topology_mapNodes (fun n _ => ?_) fun n hn => ?_)
  · split <;> rfl
  · split
    · -- a node that fired was waiting and is done, so it was not disabled and is not
      next hid =>
      have hr := (Board.id_mem_map_ready_iff hb hn).mp hid
      have hdone := (hf n (Board.mem_ready_iff.mpr ⟨hn, hr⟩)).phase_state
      rw [Node.state_after, hdone, hr.1]
      exact ⟨nofun, nofun⟩
    · rfl

namespace Board

variable [Scalar α]

/-! ### Pruning -/

/-- Where every heart lives, the flood of a board is that of its topology. -/
theorem reachable_eq {b : Board α} (hall : ∀ h ∈ b.hearts.values, h.alive = true) :
    b.reachable = b.topology.reachable := by
  have hcells : b.heartCells = b.topology.hearts.values := by
    rw [heartCells, List.filter_eq_self.mpr hall, topology, Table.values_mapValues]
  have hnodes : b.nodeCells = b.topology.nodeCells := by
    refine congrArg (fun p => (b.tiles.cells.filter p).keys) (funext₂ fun _ tile => ?_)
    cases tile with
    | node id => exact (Table.contains_mapValues _ _ _).symm
    | _ => rfl
  rw [reachable, Topology.reachable, hcells, hnodes]

/-- Pruning moves nothing, so that the same cells are reached. -/
theorem reachable_topology_prune (b : Board α) :
    b.prune.board.topology.reachable = b.topology.reachable := by
  refine Topology.reachable_congr rfl (fun id => ?_) rfl
  simp only [topology, prune, Table.contains_mapValues]

/-- Where every heart lives, pruning settles the board. -/
theorem settled_prune {b : Board α} (hall : ∀ h ∈ b.hearts.values, h.alive = true) :
    b.prune.board.topology.Settled := by
  rw [settled_iff, reachable_topology_prune, ← reachable_eq hall]
  intro m hm
  rw [prune, Table.values_mapValues, List.mem_map] at hm
  obtain ⟨n, -, rfl⟩ := hm
  rw [position_pruneNode, pruneNode_state_eq_disabled_iff]

/-- Where every heart lives, pruning leaves a clean settled board as it is. -/
theorem prune_eq_self {b : Board α} (hall : ∀ h ∈ b.hearts.values, h.alive = true)
    (hclean : b.topologyDirty = false) (h : b.topology.Settled) : b.prune.board = b := by
  have hnodes : b.nodes.mapValues (pruneNode b.reachable) = b.nodes := by
    -- enabled nodes are reached and kept, disabled nodes are not reached and stay disabled
    refine Table.mapValues_eq_self fun n hn => ?_
    have hdisabled := settled_iff.mp h n hn
    rw [← reachable_eq hall] at hdisabled
    rw [pruneNode]
    split
    · next hreached =>
      split
      · next hd => exact absurd (List.contains_iff_mem.mp hreached) (hdisabled.mp hd)
      · rfl
    · next hreached =>
      rw [← hdisabled.mpr fun hmem => hreached (List.contains_iff_mem.mpr hmem)]
  rw [prune, hnodes, ← hclean]

/-! ### Reaping -/

/-- Every heart is either alive or used up: its health is comparable with zero. -/
def HeartsComparable (b : Board α) : Prop :=
  ∀ h ∈ b.hearts.values, (0.0 : α) < h.health ∨ h.health ≤ (0.0 : α)

instance (b : Board α) : Decidable b.HeartsComparable :=
  inferInstanceAs (Decidable (∀ h ∈ b.hearts.values, (0.0 : α) < h.health ∨ h.health ≤ (0.0 : α)))

/-- The hearts that are left after reaping are those that are not used up. -/
theorem mem_hearts_reapDead {b : Board α} (hb : b.Consistent) {h : Heart α} :
    h ∈ b.reapDead.board.hearts.values ↔ h ∈ b.hearts.values ∧ ¬ h.health ≤ (0.0 : α) := by
  rw [(reaped hb.agreed).left, Table.values_filter, List.mem_filter, decide_eq_true_eq]

/-- After reaping, every heart lives. -/
theorem alive_of_mem_reapDead {b : Board α} (hb : b.Consistent) (hc : b.HeartsComparable)
    {h : Heart α} (hh : h ∈ b.reapDead.board.hearts.values) : h.alive = true := by
  obtain ⟨hmem, hlives⟩ := (mem_hearts_reapDead hb).mp hh
  exact decide_eq_true ((hc h hmem).resolve_right hlives)

/-- The hearts that are reaped are those that are gone afterwards. -/
theorem hearts_reapDead {b : Board α} (hb : b.Consistent) : b.reapDead.hearts =
    b.hearts.values.filter fun h => !b.reapDead.board.hearts.contains h.id := by
  have hafter : b.reapDead.board.Consistent := (Changes.emptied b _).consistent hb
  refine List.filter_congr fun h hh => Bool.eq_iff_iff.mpr ?_
  rw [decide_eq_true_eq, Bool.not_eq_true', ← Bool.not_eq_true, Table.contains_iff_mem_keys,
    hafter.hearts.keyed.mem_keys_iff]
  constructor
  · rintro hdead ⟨v, hv, hid⟩
    obtain ⟨hv, hlives⟩ := (mem_hearts_reapDead hb).mp hv
    obtain rfl := hb.hearts.keyed.eq_of_id_eq hv hh hid
    exact hlives hdead
  · intro hgone
    exact not_not.mp fun hlives => hgone ⟨h, (mem_hearts_reapDead hb).mpr ⟨hh, hlives⟩, rfl⟩

end Board

end HexPulse
