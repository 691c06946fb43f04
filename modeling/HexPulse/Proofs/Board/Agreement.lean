import HexPulse.Board
import HexPulse.Proofs.Hex.Disc

/-!
# HexPulse — Proofs — Board — Agreement

What stands on the board is written down twice: the tiles say which id stands on which cell, and
the tables say at which position the node, heart or terrain of an id stands.  `Agrees` says that
one table and the tiles of its sort tell the same; `Consistent` says it of all three, and that every
id on the board was issued before the next one.

Placing, clearing and changing an occupant where it stands keep a table in agreement
(`Agrees.place`, `Agrees.vacate`, `Agrees.mapValues`), and so does whatever happens to tiles of
another sort (`Agrees.elsewhere`).
-/

namespace HexPulse

/-- A table of occupants and the tiles of their sort tell the same: every occupant stands in the
table under its own id, and a tile holds an id exactly if the occupant of that id stands there. -/
structure Agrees {ν : Type} (tiles : Region Tile) (tile : Int → Tile) (t : Table Int ν)
    (id : ν → Int) (position : ν → Hex) : Prop where
  keyed : t.Keyed id
  tile_iff : ∀ c i, tiles.get? c = some (tile i) ↔ ∃ v, t.get? i = some v ∧ position v = c

namespace Agrees

variable {ν : Type} {tiles : Region Tile} {tile : Int → Tile} {t : Table Int ν} {id : ν → Int}
  {position : ν → Hex} {c : Hex}

/-- The tile on which an occupant stands. -/
theorem tile_of_mem (h : Agrees tiles tile t id position) {v : ν} (hv : v ∈ t.values) :
    tiles.get? (position v) = some (tile (id v)) :=
  (h.tile_iff _ _).mpr ⟨v, h.keyed.get?_id hv, rfl⟩

/-- A tile of another sort became a tile of another sort. -/
theorem elsewhere (h : Agrees tiles tile t id position) {u u' : Tile} (hc : tiles.get? c = some u)
    (hu : ∀ i, u ≠ tile i) (hu' : ∀ i, u' ≠ tile i) :
    Agrees (tiles.put c u') tile t id position := by
  refine ⟨h.keyed, fun c' i => ?_⟩
  rw [← h.tile_iff]
  by_cases e : c' = c
  · subst e
    rw [Region.get?_put_self hc, hc]
    exact ⟨fun e => absurd (Option.some.inj e) (hu' i), fun e => absurd (Option.some.inj e) (hu i)⟩
  · rw [Region.get?_put_of_ne _ _ e]

/-- An occupant with a new id was placed on a tile of another sort. -/
theorem place (h : Agrees tiles tile t id position) (hinj : ∀ i j, tile i = tile j → i = j) {v : ν}
    {u : Tile} {k : Int} (hc : tiles.get? c = some u) (hu : ∀ i, u ≠ tile i)
    (hnew : t.get? k = none) (hid : id v = k) (hv : position v = c) :
    Agrees (tiles.put c (tile k)) tile (t.insert (id v) v) id position := by
  subst hid
  refine ⟨h.keyed.insert, fun c' i => ?_⟩
  by_cases hi : i = id v
  · -- only the new occupant has the new id
    subst hi
    rw [Table.get?_insert_self]
    by_cases e : c' = c
    · subst e
      rw [Region.get?_put_self hc]
      exact ⟨fun _ => ⟨v, rfl, hv⟩, fun _ => rfl⟩
    · rw [Region.get?_put_of_ne _ _ e, h.tile_iff]
      refine ⟨fun ⟨w, hw, _⟩ => ?_, fun ⟨w, hw, hp⟩ => ?_⟩
      · rw [hnew] at hw
        cases hw
      · obtain rfl := Option.some.inj hw
        exact absurd (hp.symm.trans hv) e
  · rw [Table.get?_insert_of_ne _ _ hi, ← h.tile_iff]
    by_cases e : c' = c
    · subst e
      rw [Region.get?_put_self hc, hc]
      exact ⟨fun e => absurd (hinj _ _ (Option.some.inj e)).symm hi,
        fun e => absurd (Option.some.inj e) (hu i)⟩
    · rw [Region.get?_put_of_ne _ _ e]

/-- The occupant of a tile was removed. -/
theorem vacate (h : Agrees tiles tile t id position) (hinj : ∀ i j, tile i = tile j → i = j)
    {i : Int} {u : Tile} (hc : tiles.get? c = some (tile i)) (hu : ∀ j, u ≠ tile j) :
    Agrees (tiles.put c u) tile (t.erase i) id position := by
  refine ⟨h.keyed.erase i, fun c' j => ?_⟩
  obtain ⟨v, hv, hp⟩ := (h.tile_iff c i).mp hc
  by_cases hj : j = i
  · -- the id is gone from the table, and it stood on no other cell
    subst hj
    rw [Table.get?_erase_self]
    refine ⟨fun e => ?_, fun ⟨_, hw, _⟩ => nomatch hw⟩
    by_cases e' : c' = c
    · subst e'
      rw [Region.get?_put_self hc] at e
      exact absurd (Option.some.inj e) (hu j)
    · rw [Region.get?_put_of_ne _ _ e', h.tile_iff] at e
      obtain ⟨w, hw, hq⟩ := e
      obtain rfl := Option.some.inj (hv.symm.trans hw)
      exact absurd (hq.symm.trans hp) e'
  · rw [Table.get?_erase_of_ne _ hj, ← h.tile_iff]
    by_cases e : c' = c
    · subst e
      rw [Region.get?_put_self hc, hc]
      exact ⟨fun e => absurd (Option.some.inj e) (hu j),
        fun e => absurd (hinj _ _ (Option.some.inj e)).symm hj⟩
    · rw [Region.get?_put_of_ne _ _ e]

/-- An occupant stands on a tile of its sort exactly if the tile holds its id. -/
theorem position_eq_iff (h : Agrees tiles tile t id position) (hinj : ∀ i j, tile i = tile j → i = j)
    {i : Int} (hc : tiles.get? c = some (tile i)) {v : ν} (hv : v ∈ t.values) :
    position v = c ↔ id v = i := by
  constructor
  · rintro rfl
    exact hinj _ _ (Option.some.inj ((h.tile_of_mem hv).symm.trans hc))
  · rintro rfl
    obtain ⟨w, hw, hp⟩ := (h.tile_iff c (id v)).mp hc
    rwa [Option.some.inj ((h.keyed.get?_id hv).symm.trans hw)]

/-- Nobody shares a cell with an occupant: without an id, the table is without a cell. -/
theorem erase_eq_filter (h : Agrees tiles tile t id position) (hinj : ∀ i j, tile i = tile j → i = j)
    {i : Int} (hc : tiles.get? c = some (tile i)) :
    t.erase i = t.filter fun _ v => position v ≠ c := by
  refine congrArg Table.mk (List.filter_congr fun e he => ?_)
  rw [← h.keyed.id_eq e he]
  exact decide_eq_decide.mpr
    (not_congr (h.position_eq_iff hinj hc (List.mem_map_of_mem he)).symm)

/-- Nobody stands on a tile of another sort. -/
theorem filter_eq_self (h : Agrees tiles tile t id position)
    (hc : ∀ i, tiles.get? c ≠ some (tile i)) : (t.filter fun _ v => position v ≠ c) = t := by
  refine congrArg Table.mk (List.filter_eq_self.mpr fun e he => decide_eq_true ?_)
  rintro rfl
  exact hc _ (h.tile_of_mem (List.mem_map_of_mem he))

/-- No two occupants stand on one cell. -/
theorem nodup_positions (h : Agrees tiles tile t id position)
    (hinj : ∀ i j, tile i = tile j → i = j) : (t.values.map position).Nodup := by
  have hnodup : t.values.Nodup := List.Nodup.of_map id (h.keyed.keys_eq ▸ h.keyed.nodup)
  refine hnodup.map_on fun v hv w hw e => ?_
  exact h.keyed.eq_of_id_eq hv hw ((h.position_eq_iff hinj (h.tile_of_mem hw) hv).mp e)

/-- Agreement goes by ids and positions alone: occupants may change where they stand. -/
theorem of_sites (h : Agrees tiles tile t id position) {t' : Table Int ν}
    (e : t'.mapValues (fun v => (id v, position v)) = t.mapValues fun v => (id v, position v)) :
    Agrees tiles tile t' id position := by
  have hkeyed : (t.mapValues fun v => (id v, position v)).Keyed Prod.fst :=
    h.keyed.mapValues fun _ _ => rfl
  rw [← e] at hkeyed
  refine ⟨hkeyed.of_mapValues, fun c i => ?_⟩
  have hget : (t'.get? i).map (fun v => (id v, position v)) =
      (t.get? i).map fun v => (id v, position v) := by
    rw [← Table.get?_mapValues, e, Table.get?_mapValues]
  rw [h.tile_iff]
  constructor
  · rintro ⟨v, hv, rfl⟩
    rw [hv, Option.map_some, Option.map_eq_some_iff] at hget
    obtain ⟨w, hw, hs⟩ := hget
    exact ⟨w, hw, (Prod.mk.inj hs).2⟩
  · rintro ⟨w, hw, rfl⟩
    rw [hw, Option.map_some, eq_comm, Option.map_eq_some_iff] at hget
    obtain ⟨v, hv, hs⟩ := hget
    exact ⟨v, hv, (Prod.mk.inj hs).2⟩

theorem mapValues (h : Agrees tiles tile t id position) {f : ν → ν} (hid : ∀ v, id (f v) = id v)
    (hp : ∀ v, position (f v) = position v) : Agrees tiles tile (t.mapValues f) id position := by
  refine h.of_sites ?_
  rw [Table.mapValues_mapValues]
  exact Table.mapValues_congr fun v _ => by rw [hid, hp]

end Agrees

namespace Board

variable {α : Type}

/-- The tiles and the node table agree. -/
def NodesAgree (b : Board α) : Prop := Agrees b.tiles .node b.nodes Node.id Node.position

theorem NodesAgree.keyed {b : Board α} (h : b.NodesAgree) : b.nodes.Keyed Node.id :=
  Agrees.keyed h

/-- A change of a node is told by what it makes of this node. -/
theorem updateNode_congr {b : Board α} (hb : b.nodes.Keyed Node.id) {id : Int} {n : Node α}
    (hn : b.nodes.get? id = some n) {f g : Node α → Node α} (h : f n = g n) :
    b.updateNode id f = b.updateNode id g := by
  refine congrArg (fun t => { b with nodes := t }) ?_
  rw [hb.modify_eq_mapValues, hb.modify_eq_mapValues]
  refine Table.mapValues_congr fun m hm => ?_
  split
  · next hid =>
    obtain rfl := Option.some.inj ((hb.get?_eq_some_iff.mpr ⟨hm, hid⟩).symm.trans hn)
    exact h
  · rfl

/-- A change that leaves the node alone leaves the board alone. -/
theorem updateNode_eq_self {b : Board α} (hb : b.nodes.Keyed Node.id) {n : Node α}
    (hn : n ∈ b.nodes.values) {f : Node α → Node α} (h : f n = n) : b.updateNode n.id f = b := by
  refine (updateNode_congr hb (hb.get?_id hn) (g := id) h).trans ?_
  refine congrArg (fun t => { b with nodes := t }) ?_
  rw [hb.modify_eq_mapValues]
  exact Table.mapValues_eq_self fun m _ => ite_self m

/-- Two changes of a node are one change. -/
theorem updateNode_updateNode (b : Board α) (id : Int) (f g : Node α → Node α) :
    (b.updateNode id f).updateNode id g = b.updateNode id fun n => g (f n) :=
  congrArg (fun t => { b with nodes := t }) (b.nodes.modify_modify id f g)

theorem nodeAt?_eq_some_iff {b : Board α} {c : Hex} {n : Node α} :
    b.nodeAt? c = some n ↔ ∃ id, b.tile? c = some (.node id) ∧ b.nodes.get? id = some n := by
  rw [nodeAt?]
  split
  · next id h => simp [h]
  · next h =>
    constructor
    · intro hn
      cases hn
    · rintro ⟨id, e, -⟩
      exact absurd e (h id)

/-- Agreement of the tiles and the node table, node by node and cell by cell. -/
theorem nodesAgree_iff {b : Board α} : b.NodesAgree ↔
    b.nodes.keys.Nodup ∧ (∀ e ∈ b.nodes.entries, e.2.id = e.1) ∧
      (∀ n ∈ b.nodes.values, b.tile? n.position = some (.node n.id)) ∧
      ∀ c ∈ b.tiles.cells.keys, ∀ i ∈ (b.tile? c).bind Tile.occupant?,
        b.tile? c = some (.node i) → ∃ n ∈ b.nodes.values, n.id = i ∧ n.position = c := by
  constructor
  · refine fun h => ⟨h.keyed.nodup, h.keyed.id_eq, fun n hn => h.tile_of_mem hn, ?_⟩
    intro c _ i _ hc
    obtain ⟨n, hn, hp⟩ := (h.tile_iff c i).mp hc
    obtain ⟨hv, hi⟩ := h.keyed.get?_eq_some_iff.mp hn
    exact ⟨n, hv, hi, hp⟩
  · rintro ⟨hnodup, hid, htile, hcell⟩
    have hk : b.nodes.Keyed Node.id := ⟨hnodup, hid⟩
    refine ⟨hk, fun c i => ⟨fun hc => ?_, ?_⟩⟩
    · have hmem : c ∈ b.tiles.cells.keys := List.mem_map_of_mem (Table.mem_entries_of_get? hc)
      have hoccupant : i ∈ (b.tile? c).bind Tile.occupant? := by
        rw [show b.tile? c = _ from hc]
        rfl
      obtain ⟨n, hn, hi, hp⟩ := hcell c hmem i hoccupant hc
      exact ⟨n, hk.get?_eq_some_iff.mpr ⟨hn, hi⟩, hp⟩
    · rintro ⟨n, hn, rfl⟩
      obtain ⟨hv, rfl⟩ := hk.get?_eq_some_iff.mp hn
      exact htile n hv

instance (b : Board α) : Decidable b.NodesAgree := decidable_of_iff' _ nodesAgree_iff

/-- The tiles and all tables agree. -/
structure Agreed (b : Board α) : Prop where
  nodes : b.NodesAgree
  hearts : Agrees b.tiles .heart b.hearts Heart.id Heart.position
  terrain : Agrees b.tiles .terrain b.terrain Terrain.id Terrain.position

/-- The tiles and all tables agree, and the next id is new. -/
structure Consistent (b : Board α) : Prop where
  nodes : b.NodesAgree
  hearts : Agrees b.tiles .heart b.hearts Heart.id Heart.position
  terrain : Agrees b.tiles .terrain b.terrain Terrain.id Terrain.position
  issued : ∀ c t i, b.tile? c = some t → t.occupant? = some i → i < b.nextId

theorem Consistent.agreed {b : Board α} (h : b.Consistent) : b.Agreed :=
  ⟨h.nodes, h.hearts, h.terrain⟩

end Board

end HexPulse
