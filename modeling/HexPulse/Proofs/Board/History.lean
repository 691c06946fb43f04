import HexPulse.Proofs.Board.Change
import HexPulse.Proofs.Hex.Disc

/-!
# HexPulse — Proofs — Board — History

The history of a board: edits of every kind, in any order, from the empty board on.  An edit that
is refused changes nothing, and between two edits the health of anything may become anything.  A
history keeps the ids that were issued.

* `History.wellFormed`: on every board of a history the tiles cover the disc of the board, tiles
  and tables tell the same, every id stands on one cell and in one table, and no id was issued
  twice.

The invariant is `History.Sound`; `Board.Edited` says what one edit does to it.
-/

namespace HexPulse

variable {α : Type}

/-! ### Sites -/

/-- Where a table and the tiles agree, an entity is listed at a cell exactly if the tile says so. -/
theorem Agrees.mem_sites {ν : Type} {tiles : Region Tile} {tile : Int → Tile} {t : Table Int ν}
    {id : ν → Int} {position : ν → Hex} (h : Agrees tiles tile t id position) {o : Int × Hex} :
    o ∈ t.values.map (fun v => (id v, position v)) ↔ tiles.get? o.2 = some (tile o.1) := by
  rw [h.tile_iff, List.mem_map]
  constructor
  · rintro ⟨v, hv, rfl⟩
    exact ⟨v, h.keyed.get?_id hv, rfl⟩
  · rintro ⟨v, hv, hp⟩
    obtain ⟨hv, hi⟩ := h.keyed.get?_eq_some_iff.mp hv
    exact ⟨v, hv, Prod.ext hi hp⟩

theorem Agrees.nodup_sites {ν : Type} {tiles : Region Tile} {tile : Int → Tile} {t : Table Int ν}
    {id : ν → Int} {position : ν → Hex} (h : Agrees tiles tile t id position) :
    (t.values.map fun v => (id v, position v)).Nodup := by
  refine List.Nodup.of_map Prod.fst ?_
  rw [List.map_map]
  exact h.keyed.keys_eq ▸ h.keyed.nodup

/-! ### Edits -/

/-- What can be done to a board from outside. -/
inductive Edit (α : Type) where
  | placeNode (cell : Hex) (kind : String)
  | placeHeart (cell : Hex)
  | placeTerrain (cell : Hex) (health : Option α)
  | clearCell (cell : Hex)
  | removeNode (id : Int)
  | reapDead
  | bind (id : Int) (direction port : String)
  | unbind (id : Int) (direction : String)
  | setConstant (id : Int) (value : Option (Value α))
  | nodeHealth (id : Int) (health : α)
  | heartHealth (id : Int) (health : α)
  | terrainHealth (id : Int) (health : α)

namespace Board

/-- An edit, carried out: the id that it issued, if it issued one, and the board after it. -/
def edit [Scalar α] (b : Board α) : Edit α → Except Refusal (Option Int × Board α)
  | .placeNode cell kind => (b.placeNode cell kind).map fun r => (some r.1.id, r.2)
  | .placeHeart cell =>
    ((b.placeHeart cell).mapError .board).map fun r => (some r.1.id, r.2)
  | .placeTerrain cell health =>
    ((b.placeTerrain cell health).mapError .board).map fun r => (some r.1.id, r.2)
  | .clearCell cell => ((b.clearCell cell).mapError .board).map fun r => (none, r.2)
  | .removeNode id => ((b.removeNode id).mapError .board).map fun r => (none, r.2)
  | .reapDead => .ok (none, b.reapDead.board)
  | .bind id direction port => (b.bind id direction port).map (none, ·)
  | .unbind id direction => (b.unbind id direction).map (none, ·)
  | .setConstant id value => (b.setConstant id value).map (none, ·)
  | .nodeHealth id health => .ok (none, b.updateNode id fun n => { n with health := health })
  | .heartHealth id health =>
    .ok (none, { b with hearts := b.hearts.modify id fun h => { h with health := health } })
  | .terrainHealth id health =>
    .ok (none, { b with terrain := b.terrain.modify id fun t => { t with health := health } })

/-- The id and the cell of everything that stands on the board. -/
def occupants (b : Board α) : List (Int × Hex) :=
  b.nodes.values.map (fun n => (n.id, n.position))
    ++ b.hearts.values.map (fun h => (h.id, h.position))
    ++ b.terrain.values.map fun t => (t.id, t.position)

/-- What is written on a board tells one story. -/
structure WellFormed (b : Board α) : Prop where
  domain : ∀ c, (b.tile? c).isSome ↔ (c.distance .origin : Int) ≤ b.settings.grid.radius
  once : b.tiles.cells.keys.Nodup
  node : ∀ c i, b.tile? c = some (.node i) ↔
    ∃ n, b.nodes.get? i = some n ∧ n.id = i ∧ n.position = c
  heart : ∀ c i, b.tile? c = some (.heart i) ↔
    ∃ h, b.hearts.get? i = some h ∧ h.id = i ∧ h.position = c
  terrain : ∀ c i, b.tile? c = some (.terrain i) ↔
    ∃ t, b.terrain.get? i = some t ∧ t.id = i ∧ t.position = c
  unoccupied : ∀ c, b.tile? c = some .unoccupied →
    (b.tile? c).bind Tile.occupant? = none ∧ c ∉ b.occupants.map (·.2)
  ids : (b.occupants.map (·.1)).Nodup
  cells : (b.occupants.map (·.2)).Nodup

/-! ### What stands on a consistent board -/

/-- On a consistent board the tiles list the same occupants as the tables. -/
theorem Consistent.mem_occupants {b : Board α} (h : b.Consistent) {o : Int × Hex} :
    o ∈ b.occupants ↔ (b.tile? o.2).bind Tile.occupant? = some o.1 := by
  have hnodes := h.nodes.mem_sites (o := o)
  have hhearts := h.hearts.mem_sites (o := o)
  have hterrain := h.terrain.mem_sites (o := o)
  rw [occupants, List.mem_append, List.mem_append, hnodes, hhearts, hterrain, tile?]
  cases b.tiles.get? o.2 with
  | none => simp
  | some t => cases t <;> simp [Tile.occupant?]

/-- On a consistent board no occupant is listed twice. -/
theorem Consistent.nodup_occupants {b : Board α} (h : b.Consistent) : b.occupants.Nodup := by
  -- a tile is of one sort, so no entry stands in two of the lists
  refine List.nodup_append.mpr ⟨List.nodup_append.mpr ⟨h.nodes.nodup_sites, h.hearts.nodup_sites,
    fun o ho o' ho' e => ?_⟩, h.terrain.nodup_sites, fun o ho o' ho' e => ?_⟩
  · subst e
    have := (h.nodes.mem_sites.mp ho).symm.trans (h.hearts.mem_sites.mp ho')
    cases this
  · subst e
    have htile := h.terrain.mem_sites.mp ho'
    rcases List.mem_append.mp ho with hn | hh
    · have := (h.nodes.mem_sites.mp hn).symm.trans htile
      cases this
    · have := (h.hearts.mem_sites.mp hh).symm.trans htile
      cases this

/-! ### What one edit does -/

/-- An id stands on one cell. -/
def Apart (b : Board α) : Prop := ∀ c c' t t' i, b.tile? c = some t → t.occupant? = some i →
  b.tile? c' = some t' → t'.occupant? = some i → c' = c

/-- What an edit does to a board: the cells, the targets, the settings and the catalogue stay, and
an id that is issued is the next one. -/
structure Edited (b : Board α) (id : Option Int) (c : Board α) : Prop where
  consistent : b.Consistent → c.Consistent
  apart : b.Consistent → b.Apart → c.Apart
  settings : c.settings = b.settings
  catalogue : c.catalogue = b.catalogue
  cells : c.tiles.cells.keys = b.tiles.cells.keys
  extent : c.tiles.center = b.tiles.center ∧ c.tiles.radius = b.tiles.radius
  targets : c.targets = b.targets
  counter : (id = none ∧ c.nextId = b.nextId) ∨ (id = some b.nextId ∧ c.nextId = b.nextId + 1)

/-- A tile with the next id stands apart: no other tile has that id. -/
theorem Apart.put_claimed {b : Board α} (h : b.Apart) (hb : b.Consistent) {cell : Hex} {u : Tile}
    (hu : u.occupant? = some b.nextId) : ∀ c c' t t' i, (b.tiles.put cell u).get? c = some t →
      t.occupant? = some i → (b.tiles.put cell u).get? c' = some t' → t'.occupant? = some i →
        c' = c := by
  intro c c' t t' i ht hi ht' hi'
  -- the new id was never on the board, so an old tile cannot bear it
  have hnew : ∀ c t, b.tiles.get? c = some t → t.occupant? ≠ some b.nextId := by
    intro c t ht hi
    exact Int.lt_irrefl _ (hb.issued c t _ ht hi)
  rcases Region.get?_put_eq_some ht with ⟨hc, e⟩ | ⟨-, hold⟩
  · rcases Region.get?_put_eq_some ht' with ⟨hc', -⟩ | ⟨-, hold'⟩
    · exact hc'.trans hc.symm
    · rw [e] at hi
      exact absurd (hi'.trans (hi.symm.trans hu)) (hnew _ _ hold')
  · rcases Region.get?_put_eq_some ht' with ⟨-, e⟩ | ⟨-, hold'⟩
    · rw [e] at hi'
      exact absurd (hi.trans (hi'.symm.trans hu)) (hnew _ _ hold)
    · exact h c c' t t' i hold hi hold' hi'

/-- A tile that is cleared stands in nobody's way. -/
theorem Apart.put_unoccupied {b : Board α} (h : b.Apart) (cell : Hex) : ∀ c c' t t' i,
    (b.tiles.put cell .unoccupied).get? c = some t → t.occupant? = some i →
      (b.tiles.put cell .unoccupied).get? c' = some t' → t'.occupant? = some i → c' = c := by
  intro c c' t t' i ht hi ht' hi'
  rcases Region.get?_put_eq_some ht with ⟨-, rfl⟩ | ⟨-, ht⟩
  · cases hi
  · rcases Region.get?_put_eq_some ht' with ⟨-, rfl⟩ | ⟨-, ht'⟩
    · cases hi'
    · exact h c c' t t' i ht hi ht' hi'

namespace Edited

variable {b c d : Board α} {id : Option Int}

theorem refl (b : Board α) : Edited b none b :=
  ⟨fun h => h, fun _ h => h, rfl, rfl, rfl, ⟨rfl, rfl⟩, rfl, .inl ⟨rfl, rfl⟩⟩

theorem trans (h : Edited b none c) (h' : Edited c none d) : Edited b none d := by
  refine ⟨fun hb => h'.consistent (h.consistent hb),
    fun hb ha => h'.apart (h.consistent hb) (h.apart hb ha), h'.settings.trans h.settings,
    h'.catalogue.trans h.catalogue, h'.cells.trans h.cells,
    ⟨h'.extent.1.trans h.extent.1, h'.extent.2.trans h.extent.2⟩, h'.targets.trans h.targets,
    .inl ⟨rfl, ?_⟩⟩
  rcases h.counter with ⟨-, hc⟩ | ⟨hid, -⟩
  · rcases h'.counter with ⟨-, hd⟩ | ⟨hid, -⟩
    · exact hd.trans hc
    · cases hid
  · cases hid

/-- Something new was placed on a free cell. -/
theorem placed {cell : Hex} {tile : Int → Tile} {i : Int} (claimed : b.claim cell tile = .ok (i, d))
    (htile : ∀ i, (tile i).occupant? = some i) (change : Change b c) (tiles : c.tiles = d.tiles)
    (settings : c.settings = d.settings) (catalogue : c.catalogue = d.catalogue)
    (targets : c.targets = d.targets) (nextId : c.nextId = d.nextId) : Edited b (some i) c := by
  obtain ⟨-, rfl, rfl⟩ := claim_eq_ok claimed
  refine ⟨change.consistent, fun hb ha => ?_, settings, catalogue, ?_, ?_, targets,
    .inr ⟨rfl, nextId⟩⟩
  · intro cell' cell''
    rw [tile?, tile?, tiles]
    exact ha.put_claimed hb (htile _) cell' cell''
  · rw [tiles]
    exact Region.keys_put _ _ _
  · rw [tiles]
    exact ⟨rfl, rfl⟩

/-- Clearing a cell is an edit that issues no id. -/
theorem emptied (b : Board α) (cell : Hex) : Edited b none (b.emptied cell) := by
  have hc (hb : b.Consistent) := hb.emptied cell
  have ha (h : b.Apart) := h.put_unoccupied cell
  revert hc
  rw [Board.emptied]
  split
  · exact fun hc =>
      ⟨hc, fun _ => ha, rfl, rfl, Region.keys_put _ _ _, ⟨rfl, rfl⟩, rfl, .inl ⟨rfl, rfl⟩⟩
  · exact fun hc =>
      ⟨hc, fun _ => ha, rfl, rfl, Region.keys_put _ _ _, ⟨rfl, rfl⟩, rfl, .inl ⟨rfl, rfl⟩⟩
  · exact fun hc =>
      ⟨hc, fun _ => ha, rfl, rfl, Region.keys_put _ _ _, ⟨rfl, rfl⟩, rfl, .inl ⟨rfl, rfl⟩⟩
  · exact fun _ => .refl b

theorem foldl_emptied (b : Board α) (cells : List Hex) :
    Edited b none (cells.foldl Board.emptied b) :=
  List.foldlRecOn cells _ (.refl b) fun c hc cell _ => hc.trans (emptied c cell)

/-- What stands on the board changed where it stands. -/
theorem inPlace (consistent : b.Consistent → c.Consistent) (tiles : c.tiles = b.tiles)
    (settings : c.settings = b.settings) (catalogue : c.catalogue = b.catalogue)
    (targets : c.targets = b.targets) (nextId : c.nextId = b.nextId) : Edited b none c := by
  refine ⟨consistent, fun _ ha => ?_, settings, catalogue, by rw [tiles],
    ⟨by rw [tiles], by rw [tiles]⟩, targets, .inl ⟨rfl, nextId⟩⟩
  intro cell cell'
  rw [tile?, tile?, tiles]
  exact ha cell cell'

end Edited

variable {b c : Board α} {id : Option Int}

/-- Wiring a node changes it where it stands. -/
theorem Edited.wired {x : Except Refusal (Board α)} (h : x.map (none, ·) = .ok (id, c))
    (hx : ∀ c, x = .ok c → Change b c ∧ ∃ i f, c = b.updateNode i f) : Edited b id c := by
  obtain ⟨_, hx', e⟩ := exists_of_map_eq_ok h
  obtain ⟨rfl, rfl⟩ := Prod.mk.inj e
  obtain ⟨hchange, i, f, rfl⟩ := hx _ hx'
  exact .inPlace hchange.consistent rfl rfl rfl rfl rfl

/-- Binding a direction rewrites the wiring of one node. -/
theorem exists_updateNode_of_bind {i : Int} {direction port : String}
    (h : b.bind i direction port = .ok c) : ∃ i f, c = b.updateNode i f := by
  obtain ⟨_, -, h⟩ := exists_of_bind_eq_ok h
  obtain ⟨_, -, h⟩ := exists_of_bind_eq_ok h
  split at h
  · cases h
  · obtain ⟨_, -, h⟩ := exists_of_bind_eq_ok h
    obtain ⟨_, -, h⟩ := exists_of_bind_eq_ok h
    exact ⟨_, _, (Except.ok.inj h).symm⟩

theorem exists_updateNode_of_unbind {i : Int} {direction : String}
    (h : b.unbind i direction = .ok c) : ∃ i f, c = b.updateNode i f := by
  obtain ⟨_, -, h⟩ := exists_of_bind_eq_ok h
  obtain ⟨_, -, h⟩ := exists_of_bind_eq_ok h
  exact ⟨_, _, (Except.ok.inj h).symm⟩

theorem exists_updateNode_of_setConstant {i : Int} {value : Option (Value α)}
    (h : b.setConstant i value = .ok c) : ∃ i f, c = b.updateNode i f := by
  obtain ⟨_, -, h⟩ := exists_of_bind_eq_ok h
  obtain ⟨_, -, h⟩ := exists_of_bind_eq_ok h
  split at h
  · exact ⟨_, _, (Except.ok.inj h).symm⟩
  · cases h

theorem eq_emptied_of_clearCell {cell : Hex} {t : Tile} (h : b.clearCell cell = .ok (t, c)) :
    c = b.emptied cell := by
  rw [clearCell] at h
  split at h
  · cases h
  · exact (Prod.mk.inj (Except.ok.inj h)).2.symm

/-- Removing a node empties the cell on which it stands. -/
theorem eq_emptied_of_removeNode {i : Int} {n : Node α} (h : b.removeNode i = .ok (n, c)) :
    c = b.emptied n.position := by
  obtain ⟨_, -, h⟩ := exists_of_bind_eq_ok h
  obtain ⟨⟨_, _⟩, hclear, h⟩ := exists_of_bind_eq_ok h
  obtain ⟨rfl, rfl⟩ := Prod.mk.inj (Except.ok.inj h)
  exact eq_emptied_of_clearCell hclear

/-- **What an edit does.** -/
theorem edited [Scalar α] {e : Edit α} (h : b.edit e = .ok (id, c)) : Edited b id c := by
  cases e with
  | placeNode cell kind =>
    obtain ⟨⟨n, d⟩, hplace, e⟩ := exists_of_map_eq_ok h
    obtain ⟨rfl, rfl⟩ := Prod.mk.inj e
    have hchange := Change.placeNode hplace
    obtain ⟨_, -, hplace⟩ := exists_of_bind_eq_ok hplace
    obtain ⟨⟨i, _⟩, hclaim, hplace⟩ := exists_of_bind_eq_ok hplace
    obtain ⟨rfl, rfl⟩ := Prod.mk.inj (Except.ok.inj hplace)
    exact .placed (of_mapError_eq_ok hclaim) (fun _ => rfl) hchange rfl rfl rfl rfl rfl
  | placeHeart cell =>
    obtain ⟨⟨v, d⟩, hplace, e⟩ := exists_of_map_eq_ok h
    obtain ⟨rfl, rfl⟩ := Prod.mk.inj e
    have hplace := of_mapError_eq_ok hplace
    have hchange := Change.placeHeart hplace
    obtain ⟨⟨i, _⟩, hclaim, hplace⟩ := exists_of_bind_eq_ok hplace
    obtain ⟨rfl, rfl⟩ := Prod.mk.inj (Except.ok.inj hplace)
    exact .placed hclaim (fun _ => rfl) hchange rfl rfl rfl rfl rfl
  | placeTerrain cell health =>
    obtain ⟨⟨t, d⟩, hplace, e⟩ := exists_of_map_eq_ok h
    obtain ⟨rfl, rfl⟩ := Prod.mk.inj e
    have hplace := of_mapError_eq_ok hplace
    have hchange := Change.placeTerrain hplace
    obtain ⟨⟨i, _⟩, hclaim, hplace⟩ := exists_of_bind_eq_ok hplace
    obtain ⟨rfl, rfl⟩ := Prod.mk.inj (Except.ok.inj hplace)
    exact .placed hclaim (fun _ => rfl) hchange rfl rfl rfl rfl rfl
  | clearCell cell =>
    obtain ⟨⟨t, d⟩, hclear, e⟩ := exists_of_map_eq_ok h
    obtain ⟨rfl, rfl⟩ := Prod.mk.inj e
    obtain rfl := eq_emptied_of_clearCell (of_mapError_eq_ok hclear)
    exact .emptied b cell
  | removeNode i =>
    obtain ⟨⟨n, d⟩, hremove, e⟩ := exists_of_map_eq_ok h
    obtain ⟨rfl, rfl⟩ := Prod.mk.inj e
    obtain rfl := eq_emptied_of_removeNode (of_mapError_eq_ok hremove)
    exact .emptied b _
  | reapDead =>
    obtain ⟨rfl, rfl⟩ := Prod.mk.inj (Except.ok.inj h)
    exact .foldl_emptied b _
  | bind i direction port =>
    exact .wired h fun c hc => ⟨.bind hc, exists_updateNode_of_bind hc⟩
  | unbind i direction =>
    exact .wired h fun c hc => ⟨.unbind hc, exists_updateNode_of_unbind hc⟩
  | setConstant i value =>
    exact .wired h fun c hc => ⟨.setConstant hc, exists_updateNode_of_setConstant hc⟩
  | nodeHealth i health =>
    obtain ⟨rfl, rfl⟩ := Prod.mk.inj (Except.ok.inj h)
    refine .inPlace (fun hb => ⟨?_, hb.hearts, hb.terrain, hb.issued⟩) rfl rfl rfl rfl rfl
    refine hb.nodes.of_sites ?_
    simp only [updateNode]
    rw [Table.mapValues_modify]
    exact fun _ => rfl
  | heartHealth i health =>
    obtain ⟨rfl, rfl⟩ := Prod.mk.inj (Except.ok.inj h)
    refine .inPlace (fun hb => ⟨hb.nodes, ?_, hb.terrain, hb.issued⟩) rfl rfl rfl rfl rfl
    refine hb.hearts.of_sites ?_
    dsimp only
    rw [Table.mapValues_modify]
    exact fun _ => rfl
  | terrainHealth i health =>
    obtain ⟨rfl, rfl⟩ := Prod.mk.inj (Except.ok.inj h)
    refine .inPlace (fun hb => ⟨hb.nodes, hb.hearts, ?_, hb.issued⟩) rfl rfl rfl rfl rfl
    refine hb.terrain.of_sites ?_
    dsimp only
    rw [Table.mapValues_modify]
    exact fun _ => rfl

/-- Where tiles and tables agree on an ordinary disc and no id stands twice, everything written on
the board tells one story. -/
theorem Consistent.toWellFormed {b : Board α} (h : b.Consistent) (apart : b.Apart)
    (cells : b.tiles.cells.keys = Hex.origin.disc b.settings.grid.radius) : b.WellFormed := by
  have hget {ν : Type} {tile : Int → Tile} {t : Table Int ν} {id : ν → Int} {position : ν → Hex}
      (ht : Agrees b.tiles tile t id position) (c : Hex) (i : Int) :
      b.tile? c = some (tile i) ↔ ∃ v, t.get? i = some v ∧ id v = i ∧ position v = c := by
    refine (ht.tile_iff c i).trans (exists_congr fun v => and_congr_right fun hv => ?_)
    exact (and_iff_right (ht.keyed.id_of_get? hv)).symm
  constructor
  case domain =>
    intro c
    rw [← Hex.mem_disc_iff, ← cells]
    exact Table.contains_iff_mem_keys
  case once =>
    rw [cells]
    exact Hex.nodup_disc _ _
  case node => exact hget h.nodes
  case heart => exact hget h.hearts
  case terrain => exact hget h.terrain
  case unoccupied =>
    intro c hc
    have hnone : (b.tile? c).bind Tile.occupant? = none := by
      rw [hc]
      rfl
    refine ⟨hnone, fun hmem => ?_⟩
    obtain ⟨o, ho, rfl⟩ := List.mem_map.mp hmem
    cases hnone.symm.trans (h.mem_occupants.mp ho)
  case ids =>
    -- no occupant is listed twice, and an id stands on one cell
    refine h.nodup_occupants.map_on fun o ho o' ho' e => Prod.ext e ?_
    obtain ⟨t, ht, hi⟩ := Option.bind_eq_some_iff.mp (h.mem_occupants.mp ho)
    obtain ⟨t', ht', hi'⟩ := Option.bind_eq_some_iff.mp (h.mem_occupants.mp ho')
    exact apart _ _ _ _ _ ht' hi' ht (hi.trans (congrArg some e))
  case cells =>
    refine h.nodup_occupants.map_on fun o ho o' ho' e => Prod.ext ?_ e
    have ho := h.mem_occupants.mp ho
    rw [e, h.mem_occupants.mp ho'] at ho
    exact (Option.some.inj ho).symm

end Board

/-! ### Histories -/

/-- A board, and the ids that were issued while it was edited, in order. -/
structure History (α : Type) where
  board : Board α
  issued : List Int

namespace History

/-- The empty board, for which no id was issued yet. -/
def start (catalogue : Catalogue) (settings : Settings α) : History α :=
  ⟨.new catalogue settings, []⟩

/-- What holds all along a history. -/
structure Sound (catalogue : Catalogue) (settings : Settings α) (h : History α) : Prop where
  consistent : h.board.Consistent
  apart : h.board.Apart
  unchanged : h.board.settings = settings
  catalogue : h.board.catalogue = catalogue
  cells : h.board.tiles.cells.keys = Hex.origin.disc settings.grid.radius
  ordered : h.issued.Pairwise (· < ·)
  past : ∀ i ∈ h.issued, i < h.board.nextId

variable {catalogue : Catalogue} {settings : Settings α} {h : History α}

/-- A history begins with an empty board, for which no id was issued. -/
theorem Sound.start : (start catalogue settings).Sound catalogue settings := by
  have hcells := Region.keys_ofFn .origin settings.grid.radius fun _ => Tile.unoccupied
  refine ⟨.new catalogue settings, ?_, rfl, rfl, hcells, List.Pairwise.nil, fun _ hi => nomatch hi⟩
  intro c c' t t' i ht hi
  -- nothing stands on the empty board
  obtain ⟨_, -, e⟩ := List.mem_map.mp (Table.mem_entries_of_get? ht)
  obtain rfl := (Prod.mk.inj e).2
  cases hi

variable [Scalar α]

/-- A history goes on with an edit; one that is refused changes nothing. -/
def next (h : History α) (e : Edit α) : History α :=
  match h.board.edit e with
  | .ok (id, board) => ⟨board, h.issued ++ id.toList⟩
  | .error _ => h

/-- The history of some edits of an empty board. -/
def of (catalogue : Catalogue) (settings : Settings α) (edits : List (Edit α)) : History α :=
  edits.foldl next (start catalogue settings)

/-- **One edit keeps a history sound**, whether or not it is refused. -/
theorem Sound.next (hh : h.Sound catalogue settings) (e : Edit α) :
    (h.next e).Sound catalogue settings := by
  rw [History.next]
  split
  · next id b hedit =>
    have hb := Board.edited hedit
    refine ⟨hb.consistent hh.consistent, hb.apart hh.consistent hh.apart,
      hb.settings.trans hh.unchanged, hb.catalogue.trans hh.catalogue, hb.cells.trans hh.cells, ?_,
      ?_⟩
    · rcases hb.counter with ⟨rfl, -⟩ | ⟨rfl, -⟩
      · simpa using hh.ordered
      · refine List.pairwise_append.mpr ⟨hh.ordered, List.pairwise_singleton _ _, ?_⟩
        intro i hi j hj
        rw [List.mem_singleton.mp hj]
        exact hh.past i hi
    · intro i hi
      rcases hb.counter with ⟨rfl, hc⟩ | ⟨rfl, hc⟩
      · rw [hc]
        exact hh.past i (by simpa using hi)
      · rw [hc]
        rcases List.mem_append.mp hi with hi | hi
        · have := hh.past i hi
          omega
        · rw [List.mem_singleton.mp hi]
          omega
  · exact hh

/-- **Every history is sound.** -/
theorem sound_of (catalogue : Catalogue) (settings : Settings α) (edits : List (Edit α)) :
    (of catalogue settings edits).Sound catalogue settings := by
  suffices ∀ h : History α, h.Sound catalogue settings →
      (edits.foldl History.next h).Sound catalogue settings from
    this _ .start
  induction edits with
  | nil => exact fun _ hh => hh
  | cons e edits ih => exact fun h hh => ih _ (hh.next e)

/-- **After any edits the tiles and the tables tell one story**, and every id that was issued lies
before the next one and was issued once. -/
theorem wellFormed (catalogue : Catalogue) (settings : Settings α) (edits : List (Edit α)) :
    (of catalogue settings edits).board.WellFormed ∧
      (of catalogue settings edits).board.settings = settings ∧
      (∀ i ∈ (of catalogue settings edits).issued,
        i < (of catalogue settings edits).board.nextId) ∧
      (of catalogue settings edits).issued.Nodup := by
  have h := sound_of catalogue settings edits
  refine ⟨h.consistent.toWellFormed h.apart ?_, h.unchanged, h.past, ?_⟩
  · rw [h.unchanged]
    exact h.cells
  · exact h.ordered.imp fun hlt => Int.ne_of_lt hlt

end History

end HexPulse
