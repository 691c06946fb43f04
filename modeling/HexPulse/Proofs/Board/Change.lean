import HexPulse.Proofs.Board.Agreement
import HexPulse.Proofs.Outcome
import Mathlib.Logic.Relation

/-!
# HexPulse — Proofs — Board — Change

What may happen to a board outside of pruning, requests and passes: something is placed on a free
cell or cleared from one, a node is wired, and the targets and the hearts change where they stand.
`Change` has one constructor for each of these, and every edit of a board is one (`Change.placeNode`
and its companions).

* `Change.consistent`: tiles and tables stay in agreement.
* `Change.state?_eq`: a node after a change is in the state it was in, or disabled.
-/

namespace HexPulse

variable {α : Type}

namespace Board

/-! ### Changes -/

/-- A change of a board. -/
inductive Change (b : Board α) : Board α → Prop where
  | node {cell : Hex} {c : Board α} (n : Node α) (claimed : b.claim cell .node = .ok (n.id, c))
      (position : n.position = cell) (state : n.state = .disabled) :
      Change b { c with nodes := b.nodes.insert n.id n }
  | heart {cell : Hex} {c : Board α} (h : Heart α) (claimed : b.claim cell .heart = .ok (h.id, c))
      (position : h.position = cell) : Change b { c with hearts := b.hearts.insert h.id h }
  | terrain {cell : Hex} {c : Board α} (t : Terrain α)
      (claimed : b.claim cell .terrain = .ok (t.id, c)) (position : t.position = cell) :
      Change b { c with terrain := b.terrain.insert t.id t }
  | clear (cell : Hex) : Change b (b.emptied cell)
  | wiring (id : Int) (f : Wiring α → Wiring α) :
      Change b (b.updateNode id fun n => { n with wiring := f n.wiring })
  | targets (ts : Targets α) : Change b { b with targets := ts }
  | hearts (t : Table Int (Heart α))
      (sites : t.mapValues (fun h => (h.id, h.position)) =
        b.hearts.mapValues fun h => (h.id, h.position)) : Change b { b with hearts := t }

/-- Any number of changes. -/
abbrev Changes : Board α → Board α → Prop := Relation.ReflTransGen Change

/-- A cell that is claimed was free; it gets the next id, and the board is marked as dirty. -/
theorem claim_eq_ok {b c : Board α} {cell : Hex} {tile : Int → Tile} {id : Int}
    (h : b.claim cell tile = .ok (id, c)) : b.tile? cell = some .unoccupied ∧ id = b.nextId ∧
      c = { b with
        tiles := b.tiles.put cell (tile b.nextId)
        topologyDirty := true
        nextId := b.nextId + 1 } := by
  rw [claim] at h
  split at h
  · cases h
  · next hfree =>
    obtain ⟨rfl, rfl⟩ := Prod.mk.inj (Except.ok.inj h)
    exact ⟨hfree, rfl, rfl⟩
  · cases h

/-! ### Consistency -/

/-- Nothing stands on a new board, so that its tiles and tables agree. -/
theorem Consistent.new (catalogue : Catalogue) (settings : Settings α) :
    (Board.new catalogue settings).Consistent := by
  have hfree : ∀ c t, (Board.new catalogue settings).tile? c = some t → t = .unoccupied := by
    intro c t h
    obtain ⟨c', -, e⟩ := List.mem_map.mp (Table.mem_entries_of_get? h)
    exact (Prod.mk.inj e).2.symm
  have hagrees {ν : Type} (tile : Int → Tile) (id : ν → Int) (position : ν → Hex)
      (hne : ∀ i, tile i ≠ .unoccupied) :
      Agrees (Board.new catalogue settings).tiles tile .empty id position := by
    refine ⟨.empty id, fun c i => ⟨fun h => absurd (hfree c _ h) (hne i), ?_⟩⟩
    rintro ⟨v, hv, -⟩
    cases hv
  refine ⟨hagrees .node _ _ fun _ => nofun, hagrees .heart _ _ fun _ => nofun,
    hagrees .terrain _ _ fun _ => nofun, fun c t i hc hi => ?_⟩
  rw [hfree c t hc] at hi
  cases hi

/-- Nodes may change in everything but their ids and positions. -/
theorem Consistent.mapNodes {b : Board α} (h : b.Consistent) {f : Node α → Node α}
    (hid : ∀ n, (f n).id = n.id) (hp : ∀ n, (f n).position = n.position) :
    ({ b with nodes := b.nodes.mapValues f } : Board α).Consistent :=
  ⟨h.nodes.mapValues hid hp, h.hearts, h.terrain, h.issued⟩

/-- The next id stands in no table that agrees with the tiles. -/
theorem Consistent.get?_nextId {b : Board α} (h : b.Consistent) {ν : Type} {tile : Int → Tile}
    {t : Table Int ν} {id : ν → Int} {position : ν → Hex} (ht : Agrees b.tiles tile t id position)
    (htile : ∀ i, (tile i).occupant? = some i) : t.get? b.nextId = none := by
  cases hv : t.get? b.nextId with
  | none => rfl
  | some v =>
    obtain ⟨hv, hid⟩ := ht.keyed.get?_eq_some_iff.mp hv
    have := h.issued _ _ _ (ht.tile_of_mem hv) (htile _)
    omega

/-- The ids on the tiles stay below a bound if that of a tile that is put there is below it. -/
theorem Consistent.issued_put {b : Board α} (h : b.Consistent) (cell : Hex) {t : Tile} {k : Int}
    (ht : ∀ i, t.occupant? = some i → i < k) (hk : b.nextId ≤ k) :
    ∀ c u i, (b.tiles.put cell t).get? c = some u → u.occupant? = some i → i < k := by
  intro c u i hc hi
  rcases Region.get?_put_eq_some hc with ⟨-, rfl⟩ | ⟨-, hc⟩
  · exact ht i hi
  · exact Int.lt_of_lt_of_le (h.issued c u i hc hi) hk

/-- A tile may bear the next id where the counter moves on. -/
theorem Consistent.issued_claim {b : Board α} (h : b.Consistent) (cell : Hex) {t : Tile}
    (ht : t.occupant? = some b.nextId) : ∀ c u i, (b.tiles.put cell t).get? c = some u →
      u.occupant? = some i → i < b.nextId + 1 := by
  refine h.issued_put cell (fun i hi => ?_) (by omega)
  obtain rfl := Option.some.inj (ht.symm.trans hi)
  omega

/-- Tiles and tables still agree where a cell was cleared. -/
theorem Agreed.emptied {b : Board α} (h : b.Agreed) (cell : Hex) : (b.emptied cell).Agreed := by
  rw [Board.emptied]
  split
  · next i hc =>
    exact ⟨h.nodes.vacate (fun _ _ => Tile.node.inj) hc fun _ => nofun,
      h.hearts.elsewhere hc (fun _ => nofun) fun _ => nofun,
      h.terrain.elsewhere hc (fun _ => nofun) fun _ => nofun⟩
  · next i hc =>
    exact ⟨h.nodes.elsewhere hc (fun _ => nofun) fun _ => nofun,
      h.hearts.vacate (fun _ _ => Tile.heart.inj) hc fun _ => nofun,
      h.terrain.elsewhere hc (fun _ => nofun) fun _ => nofun⟩
  · next i hc =>
    exact ⟨h.nodes.elsewhere hc (fun _ => nofun) fun _ => nofun,
      h.hearts.elsewhere hc (fun _ => nofun) fun _ => nofun,
      h.terrain.vacate (fun _ _ => Tile.terrain.inj) hc fun _ => nofun⟩
  · exact h

/-- Clearing a cell keeps a board consistent. -/
theorem Consistent.emptied {b : Board α} (h : b.Consistent) (cell : Hex) :
    (b.emptied cell).Consistent := by
  have hissued := h.issued_put cell (t := .unoccupied) (fun _ e => nomatch e) (Int.le_refl _)
  obtain ⟨hnodes, hhearts, hterrain⟩ := h.agreed.emptied cell
  refine ⟨hnodes, hhearts, hterrain, ?_⟩
  rw [Board.emptied]
  split
  · exact hissued
  · exact hissued
  · exact hissued
  · exact h.issued

/-- **Tiles and tables stay in agreement.** -/
theorem Change.consistent {b c : Board α} (hc : Change b c) (h : b.Consistent) : c.Consistent := by
  -- what is placed or cleared concerns one table; for the two others the tile is of another sort
  cases hc with
  | node n claimed position state =>
    obtain ⟨hfree, hid, rfl⟩ := claim_eq_ok claimed
    exact ⟨h.nodes.place (fun _ _ => Tile.node.inj) hfree (fun _ => nofun)
        (h.get?_nextId h.nodes fun _ => rfl) hid position,
      h.hearts.elsewhere hfree (fun _ => nofun) fun _ => nofun,
      h.terrain.elsewhere hfree (fun _ => nofun) fun _ => nofun, h.issued_claim _ rfl⟩
  | heart v claimed position =>
    obtain ⟨hfree, hid, rfl⟩ := claim_eq_ok claimed
    exact ⟨h.nodes.elsewhere hfree (fun _ => nofun) fun _ => nofun,
      h.hearts.place (fun _ _ => Tile.heart.inj) hfree (fun _ => nofun)
        (h.get?_nextId h.hearts fun _ => rfl) hid position,
      h.terrain.elsewhere hfree (fun _ => nofun) fun _ => nofun, h.issued_claim _ rfl⟩
  | terrain v claimed position =>
    obtain ⟨hfree, hid, rfl⟩ := claim_eq_ok claimed
    exact ⟨h.nodes.elsewhere hfree (fun _ => nofun) fun _ => nofun,
      h.hearts.elsewhere hfree (fun _ => nofun) fun _ => nofun,
      h.terrain.place (fun _ _ => Tile.terrain.inj) hfree (fun _ => nofun)
        (h.get?_nextId h.terrain fun _ => rfl) hid position, h.issued_claim _ rfl⟩
  | clear cell => exact h.emptied cell
  | wiring id f =>
    -- in a table that is keyed by ids, one entry is changed by a map over all of them
    have hmap : (b.updateNode id fun n => { n with wiring := f n.wiring }) =
        { b with nodes := b.nodes.mapValues fun n =>
            if n.id = id then { n with wiring := f n.wiring } else n } :=
      congrArg (fun t => { b with nodes := t }) (h.nodes.keyed.modify_eq_mapValues _ _)
    rw [hmap]
    refine h.mapNodes (fun n => ?_) fun n => ?_
    · split <;> rfl
    · split <;> rfl
  | targets ts => exact ⟨h.nodes, h.hearts, h.terrain, h.issued⟩
  | hearts t sites => exact ⟨h.nodes, h.hearts.of_sites sites, h.terrain, h.issued⟩

/-- **Whatever changes a board keeps it consistent.** -/
theorem Changes.consistent {b c : Board α} (hc : Changes b c) (h : b.Consistent) :
    c.Consistent := by
  induction hc with
  | refl => exact h
  | tail _ hc ih => exact hc.consistent ih

/-! ### States -/

/-- The state of the node of an id. -/
def state? (b : Board α) (id : Int) : Option (NodeState α) := (b.nodes.get? id).map (·.state)

theorem state?_of_get? {b : Board α} {id : Int} {n : Node α} (h : b.nodes.get? id = some n) :
    b.state? id = some n.state := by
  rw [state?, h, Option.map_some]

theorem state?_mapValues {b c : Board α} {f : Node α → Node α}
    (h : c.nodes = b.nodes.mapValues f) (id : Int) :
    c.state? id = (b.nodes.get? id).map fun n => (f n).state := by
  rw [state?, h, Table.get?_mapValues, Option.map_map]
  rfl

/-- A state other than disabled was there before the change. -/
theorem Change.state?_eq {b c : Board α} (hc : Change b c) {id : Int} {s : NodeState α}
    (hs : c.state? id = some s) (hd : s ≠ .disabled) : b.state? id = some s := by
  cases hc with
  | node n claimed position state =>
    by_cases e : id = n.id
    · -- a new node is disabled
      rw [state?, e, Table.get?_insert_self] at hs
      exact absurd ((Option.some.inj hs).symm.trans state) hd
    · rwa [state?, Table.get?_insert_of_ne _ _ e] at hs
  | heart h claimed position =>
    obtain ⟨-, -, rfl⟩ := claim_eq_ok claimed
    exact hs
  | terrain t claimed position =>
    obtain ⟨-, -, rfl⟩ := claim_eq_ok claimed
    exact hs
  | clear cell =>
    rw [emptied] at hs
    split at hs
    · next i _ =>
      by_cases e : id = i
      · rw [state?, e, Table.get?_erase_self] at hs
        cases hs
      · rwa [state?, Table.get?_erase_of_ne _ e] at hs
    · exact hs
    · exact hs
    · exact hs
  | wiring i f =>
    by_cases e : id = i
    · subst e
      rwa [state?, updateNode, Table.get?_modify_self, Option.map_map] at hs
    · rwa [state?, updateNode, Table.get?_modify_of_ne _ _ e] at hs
  | targets ts => exact hs
  | hearts t sites => exact hs

/-- No number of changes brings about a state other than disabled. -/
theorem Changes.state?_eq {b c : Board α} (hc : Changes b c) {id : Int} {s : NodeState α}
    (hs : c.state? id = some s) (hd : s ≠ .disabled) : b.state? id = some s := by
  induction hc with
  | refl => exact hs
  | tail _ hc ih => exact ih (hc.state?_eq hs hd)

/-! ### Edits -/

section Edits

variable {b c : Board α} {cell : Hex} {id : Int}

theorem Change.placeNode {kind : String} {n : Node α} (h : b.placeNode cell kind = .ok (n, c)) :
    Change b c := by
  obtain ⟨_, -, h⟩ := exists_of_bind_eq_ok h
  obtain ⟨⟨i, _⟩, hclaim, h⟩ := exists_of_bind_eq_ok h
  obtain ⟨-, rfl⟩ := Prod.mk.inj (Except.ok.inj h)
  exact .node ⟨i, cell, _, _, .disabled, _, _⟩ (of_mapError_eq_ok hclaim) rfl rfl

theorem Change.placeHeart [Scalar α] {v : Heart α} (h : b.placeHeart cell = .ok (v, c)) :
    Change b c := by
  obtain ⟨⟨i, _⟩, hclaim, h⟩ := exists_of_bind_eq_ok h
  obtain ⟨-, rfl⟩ := Prod.mk.inj (Except.ok.inj h)
  exact .heart ⟨i, cell, _, _, _, _⟩ hclaim rfl

theorem Change.placeTerrain {health : Option α} {t : Terrain α}
    (h : b.placeTerrain cell health = .ok (t, c)) : Change b c := by
  obtain ⟨⟨i, _⟩, hclaim, h⟩ := exists_of_bind_eq_ok h
  obtain ⟨-, rfl⟩ := Prod.mk.inj (Except.ok.inj h)
  exact .terrain ⟨i, cell, _⟩ hclaim rfl

theorem Change.clearCell {t : Tile} (h : b.clearCell cell = .ok (t, c)) : Change b c := by
  rw [Board.clearCell] at h
  split at h
  · cases h
  · obtain ⟨-, rfl⟩ := Prod.mk.inj (Except.ok.inj h)
    exact .clear cell

/-- Removing a node is a change: its cell is cleared. -/
theorem Change.removeNode {n : Node α} (h : b.removeNode id = .ok (n, c)) : Change b c := by
  obtain ⟨_, -, h⟩ := exists_of_bind_eq_ok h
  obtain ⟨_, hclear, h⟩ := exists_of_bind_eq_ok h
  obtain ⟨-, rfl⟩ := Prod.mk.inj (Except.ok.inj h)
  exact .clearCell hclear

/-- Binding a direction is a change of a wiring. -/
theorem Change.bind {direction port : String} (h : b.bind id direction port = .ok c) :
    Change b c := by
  obtain ⟨_, -, h⟩ := exists_of_bind_eq_ok h
  obtain ⟨_, -, h⟩ := exists_of_bind_eq_ok h
  split at h
  · cases h
  · obtain ⟨_, -, h⟩ := exists_of_bind_eq_ok h
    obtain ⟨_, -, h⟩ := exists_of_bind_eq_ok h
    obtain rfl := Except.ok.inj h
    exact .wiring id fun _ => _

theorem Change.unbind {direction : String} (h : b.unbind id direction = .ok c) : Change b c := by
  obtain ⟨_, -, h⟩ := exists_of_bind_eq_ok h
  obtain ⟨_, -, h⟩ := exists_of_bind_eq_ok h
  obtain rfl := Except.ok.inj h
  exact .wiring id fun _ => _

theorem Change.setConstant {value : Option (Value α)} (h : b.setConstant id value = .ok c) :
    Change b c := by
  obtain ⟨_, -, h⟩ := exists_of_bind_eq_ok h
  obtain ⟨_, -, h⟩ := exists_of_bind_eq_ok h
  split at h
  · obtain rfl := Except.ok.inj h
    exact .wiring id fun w => { w with constant := value }
  · cases h

/-- A claim moves neither nodes nor targets. -/
theorem rest_of_claim {tile : Int → Tile} (h : b.claim cell tile = .ok (id, c)) :
    c.nodes = b.nodes ∧ c.targets = b.targets := by
  obtain ⟨-, -, rfl⟩ := claim_eq_ok h
  exact ⟨rfl, rfl⟩

/-- Targets do not stand on tiles, so a node is placed beside them. -/
theorem targets_of_placeNode {kind : String} {n : Node α}
    (h : b.placeNode cell kind = .ok (n, c)) : c.targets = b.targets := by
  obtain ⟨_, -, h⟩ := exists_of_bind_eq_ok h
  obtain ⟨⟨i, d⟩, hclaim, h⟩ := exists_of_bind_eq_ok h
  obtain ⟨-, rfl⟩ := Prod.mk.inj (Except.ok.inj h)
  exact (rest_of_claim (of_mapError_eq_ok hclaim)).2

/-- A heart is placed beside nodes and targets. -/
theorem rest_of_placeHeart [Scalar α] {v : Heart α} (h : b.placeHeart cell = .ok (v, c)) :
    c.nodes = b.nodes ∧ c.targets = b.targets := by
  obtain ⟨⟨i, d⟩, hclaim, h⟩ := exists_of_bind_eq_ok h
  obtain ⟨-, rfl⟩ := Prod.mk.inj (Except.ok.inj h)
  exact rest_of_claim (c := d) hclaim

theorem rest_of_placeTerrain {health : Option α} {t : Terrain α}
    (h : b.placeTerrain cell health = .ok (t, c)) :
    c.nodes = b.nodes ∧ c.targets = b.targets := by
  obtain ⟨⟨i, d⟩, hclaim, h⟩ := exists_of_bind_eq_ok h
  obtain ⟨-, rfl⟩ := Prod.mk.inj (Except.ok.inj h)
  exact rest_of_claim (c := d) hclaim

/-- Clearing some cells. -/
theorem Changes.emptied (b : Board α) (cells : List Hex) :
    Changes b (cells.foldl Board.emptied b) :=
  List.foldlRecOn cells _ .refl fun _ hc cell _ => .tail hc (.clear cell)

end Edits

end Board

end HexPulse
