import HexPulse.Proofs.Board.Wiring
import HexPulse.Proofs.Scenario.Legality
import HexPulse.Scenario.Build

/-!
# HexPulse — Proofs — Scenario — Build

How a board is raised from a scenario.  The check of a scenario goes by contracts and by cells as
they are written; the board goes by descriptors, ports and tiles.  Step by step the two agree.

* `NodeSpec.exists_build`: a node that keeps to its contract, on a free cell, is placed, bound and
  given its constant.
* `Scenario.Raised`: a board under construction, with what stands on it so far.
* `Scenario.Raised.exists_placeHeart`, `exists_placeTerrain`, `exists_buildNode`: one more heart,
  terrain tile or node can be added on a free cell, and goes behind the others.
-/

namespace HexPulse

variable {α : Type}

/-! ### Nodes -/

/-- A wiring follows some bindings, which are written in names. -/
structure Wiring.Follows (w : Wiring α) (d : Descriptor) (bindings : List (String × String)) :
    Prop where
  bindings : w.inputs.entries.map (fun e => (e.1.name, e.2.name)) = bindings
  ports : ∀ p ∈ w.inputs.values, d.input? p.name = some p

/-- A node of a board is the one that a scenario writes down. -/
structure NodeSpec.Realized (n : NodeSpec α) (m : Node α) : Prop where
  cell : m.position = n.cell
  kind : m.kind.name = n.kind
  wiring : ∃ d, Catalogue.builtin.find n.kind = .ok d ∧ m.wiring.Follows d n.wiring.entries
  constant : m.wiring.constant = n.constant

namespace Wiring

/-- A port that is not bound can be bound to a direction that is free. -/
theorem bind_of_free {w : Wiring α} {d : Direction} {p : Port} (hd : d ∉ w.inputs.keys)
    (hp : ∀ q ∈ w.inputs.values, q.id ≠ p.id) :
    w.bind d p = .ok { w with inputs := w.inputs.insert d p } := by
  have hdirection : w.directionOfPort? p = none := by
    rw [directionOfPort?, directionWhere?, Option.map_eq_none_iff, List.find?_eq_none]
    intro e he
    rw [decide_eq_true_eq]
    exact hp e.2 (List.mem_map_of_mem he)
  rw [bind, Table.get?_eq_none_iff.mpr hd, hdirection]

theorem Follows.empty (d : Descriptor) : (Wiring.empty : Wiring α).Follows d [] :=
  ⟨rfl, fun _ hp => absurd hp List.not_mem_nil⟩

/-- One more binding, in a direction and to a port that the others leave alone. -/
theorem Follows.bind {w : Wiring α} {d : Descriptor} {before : List (String × String)}
    (h : w.Follows d before) (hports : (d.inputs.map Port.id).Nodup) {direction port : String}
    {dir : Direction} {p : Port} (hdir : Direction.ofName? direction = some dir)
    (hp : d.input? port = some p) (hdirection : direction ∉ before.map (·.1))
    (hport : port ∉ before.map (·.2)) :
    w.bind dir p = .ok { w with inputs := w.inputs.insert dir p } ∧
      Follows { w with inputs := w.inputs.insert dir p } d (before ++ [(direction, port)]) := by
  have hname : dir.name = direction := by
    have := List.find?_some hdir
    exact of_decide_eq_true this
  obtain ⟨hmem, rfl⟩ := Descriptor.input?_eq_some hp
  have hfree : dir ∉ w.inputs.keys := by
    intro hdir
    obtain ⟨e, he, rfl⟩ := List.mem_map.mp hdir
    rw [← h.bindings, List.map_map] at hdirection
    exact hdirection (List.mem_map.mpr ⟨e, he, hname⟩)
  refine ⟨bind_of_free hfree fun q hq hid => ?_, ?_, fun q hq => ?_⟩
  · -- ports of one kind are known by their ids, so the port would be bound already
    have hq' := (Descriptor.input?_eq_some (h.ports q hq)).1
    obtain rfl := List.inj_on_of_nodup_map hports hq' hmem hid
    obtain ⟨e, he, rfl⟩ := List.mem_map.mp hq
    rw [← h.bindings, List.map_map] at hport
    exact hport (List.mem_map_of_mem he)
  · rw [Table.entries_insert_of_notMem hfree, List.map_append, h.bindings, ← hname]
    rfl
  · rcases Table.mem_values_insert hq with rfl | hq
    · exact hp
    · exact h.ports q hq

end Wiring

namespace Board

/-- The board with a node written to its table. -/
def withNode (b : Board α) (n : Node α) : Board α := { b with nodes := b.nodes.insert n.id n }

theorem node_withNode (b : Board α) (n : Node α) : (b.withNode n).node n.id = .ok n := by
  rw [node, withNode, Table.get?_insert_self]

theorem updateNode_withNode (b : Board α) (n : Node α) (f : Wiring α → Wiring α) :
    (b.withNode n).updateNode n.id (fun n => { n with wiring := f n.wiring }) =
      b.withNode { n with wiring := f n.wiring } := by
  rw [updateNode, withNode, Table.modify_insert_self]
  rfl

theorem claim_of_free {b : Board α} {cell : Hex} (h : b.tile? cell = some .unoccupied)
    (tile : Int → Tile) : b.claim cell tile = .ok (b.nextId, { b with
      tiles := b.tiles.put cell (tile b.nextId)
      topologyDirty := true
      nextId := b.nextId + 1 }) := by
  rw [claim, h]

variable {b : Board α} {n : Node α} {d : Descriptor}

/-- Binding a node goes by its wiring. -/
theorem bind_withNode (hd : b.descriptor n = .ok d) {direction port : String} {dir : Direction}
    {p : Port} {w : Wiring α} (hp : d.input? port = some p)
    (hdir : Direction.ofName? direction = some dir) (hw : n.wiring.bind dir p = .ok w) :
    (b.withNode n).bind n.id direction port = .ok (b.withNode { n with wiring := w }) := by
  have hd : (b.withNode n).descriptor n = .ok d := hd
  simp only [Board.bind, node_withNode, hd, hp, Board.direction, hdir, hw, Except.mapError,
    Bind.bind, Except.bind, pure, Except.pure]
  exact congrArg Except.ok (updateNode_withNode b n fun _ => w)

/-- A constant is given to a node whose output is one. -/
theorem setConstant_withNode (hd : b.descriptor n = .ok d) (hconstant : d.output.isConstant = true)
    (v : Option (Value α)) : (b.withNode n).setConstant n.id v =
      .ok (b.withNode { n with wiring := { n.wiring with constant := v } }) := by
  have hd : (b.withNode n).descriptor n = .ok d := hd
  simp only [Board.setConstant, node_withNode, hd, hconstant, Except.mapError, Bind.bind,
    Except.bind, pure, Except.pure, if_true]
  exact congrArg Except.ok (updateNode_withNode b n fun w => { w with constant := v })

end Board

/-- A board on which a node is bound as far as some bindings go, and else as it was placed. -/
def Board.BoundTo (b : Board α) (m : Node α) (d : Descriptor) (bindings : List (String × String))
    (c : Board α) : Prop :=
  ∃ w : Wiring α, w.Follows d bindings ∧ w.constant = none ∧ c = b.withNode { m with wiring := w }

/-- All bindings of a node that keeps to its contract can be made. -/
theorem NodeSpec.exists_bound {b : Board α} {d : Descriptor} (hports : (d.inputs.map Port.id).Nodup)
    {n : NodeSpec α} (hn : n.Obeys d.contract) (hkeys : n.wiring.keys.Nodup) {m : Node α}
    (hd : b.descriptor m = .ok d) (hm : m.wiring = .empty) :
    ∃ c, n.wiring.entries.foldlM (fun c e => c.bind m.id e.1 e.2) (b.withNode m) = .ok c ∧
      b.BoundTo m d n.wiring.entries c := by
  have step : ∀ before e after c, n.wiring.entries = before ++ e :: after →
      b.BoundTo m d before c →
      ∃ c', c.bind m.id e.1 e.2 = .ok c' ∧ b.BoundTo m d (before ++ [e]) c' := by
    rintro before e after _ hentries ⟨w, hw, hnone, rfl⟩
    have he : e ∈ n.wiring.entries := List.mem_iff_append.mpr ⟨_, _, hentries⟩
    obtain ⟨dir, hdir⟩ := Option.isSome_iff_exists.mp (hn.directions e he)
    obtain ⟨p, hp⟩ := Descriptor.exists_input_of_mem_contract (hn.ports e he)
    obtain ⟨hbind, hfollows⟩ := hw.bind hports hdir hp (notMem_map_of_split hkeys hentries)
      (notMem_map_of_split hn.once hentries)
    exact ⟨_, Board.bind_withNode (n := { m with wiring := w }) hd hp hdir hbind, _, hfollows,
      hnone, rfl⟩
  have hstart : b.withNode m = b.withNode { m with wiring := .empty } := by rw [← hm]
  exact exists_foldlM_eq_ok step ⟨.empty, .empty d, rfl, hstart⟩

/-- **A node that keeps to its contract can be built on a free cell**, and it is the node that was
written down. -/
theorem NodeSpec.exists_build {b : Board α} (hb : b.catalogue = .builtin) {n : NodeSpec α}
    (hfree : b.tile? n.cell = some .unoccupied) {c : Contract}
    (hc : Catalogue.builtin.contracts.get? n.kind = some c) (hn : n.Obeys c)
    (hkeys : n.wiring.keys.Nodup) : ∃ m claimed, b.claim n.cell .node = .ok (m.id, claimed) ∧
      m.state = .disabled ∧ n.Realized m ∧ claimed.nodes = b.nodes ∧
      Scenario.buildNode b n = .ok (m.id, claimed.withNode m) := by
  obtain ⟨d, hd, rfl⟩ := Catalogue.get?_contracts_eq_some_iff.mp hc
  have hname := Catalogue.name_of_find hd
  have hclaim := Board.claim_of_free hfree .node
  generalize hclaimed : ({ b with
    tiles := b.tiles.put n.cell (.node b.nextId)
    topologyDirty := true
    nextId := b.nextId + 1 } : Board α) = claimed at hclaim
  have hnodes : claimed.nodes = b.nodes := by rw [← hclaimed]
  have hcatalogue : claimed.catalogue = .builtin := by rw [← hclaimed, ← hb]
  -- the node as it is placed; its wiring and its constant come later
  obtain ⟨m, hm⟩ : ∃ m : Node α,
      m = ⟨b.nextId, n.cell, d.kind, .empty, .disabled, b.settings.grid.nodeHealth, 0⟩ := ⟨_, rfl⟩
  have hplace : b.placeNode n.cell n.kind = .ok (m, claimed.withNode m) := by
    simp only [Board.placeNode, hb, hd, hclaim, Except.mapError, Bind.bind, Except.bind, pure,
      Except.pure, Board.withNode, hnodes, hm]
  have hdescriptor : claimed.descriptor m = .ok d := by
    rw [Board.descriptor, hcatalogue, hm, hname, hd]
  obtain ⟨_, hfold, w, hw, hnone, rfl⟩ := exists_bound (Catalogue.nodup_ports_of_find hd) hn hkeys
    hdescriptor (by rw [hm])
  have hrealized {v : Option (Value α)} (hv : v = n.constant) :
      n.Realized { m with wiring := { w with constant := v } } :=
    ⟨by rw [hm], by rw [hm, hname], ⟨d, hd, hw.bindings, hw.ports⟩, hv⟩
  have hid : m.id = b.nextId := by rw [hm]
  have hstate : m.state = .disabled := by rw [hm]
  rw [← hid] at hclaim
  cases hconstant : n.constant with
  | none =>
    refine ⟨{ m with wiring := w }, claimed, hclaim, hstate, ?_, hnodes, ?_⟩
    · exact hrealized (hnone.trans hconstant.symm)
    · simp only [Scenario.buildNode, hplace, hfold, hconstant, Bind.bind, Except.bind, pure,
        Except.pure]
  | some v =>
    have hisConstant : d.output.isConstant = true := hn.constant (by rw [hconstant]; rfl)
    have hset := Board.setConstant_withNode (n := { m with wiring := w }) hdescriptor hisConstant
      (some v)
    refine ⟨{ m with wiring := { w with constant := some v } }, claimed, hclaim, hstate, ?_, hnodes,
      ?_⟩
    · exact hrealized hconstant.symm
    · simp only [Scenario.buildNode, hplace, hfold, hconstant, hset, Bind.bind, Except.bind, pure,
        Except.pure]

/-! ### Boards under construction -/

namespace Scenario

/-- A board of some settings that was reached by edits of the empty one. -/
structure Grounded (settings : Settings α) (b : Board α) : Prop where
  consistent : b.Consistent
  apart : b.Apart
  catalogue : b.catalogue = .builtin
  disc : b.tiles.cells.keys = Hex.origin.disc settings.grid.radius
  unchanged : b.settings = settings

/-- A board under construction, with the hearts, the terrain and the nodes that stand on it. -/
structure Raised (settings : Settings α) (hearts terrain : List Hex)
    (nodes : List (NodeSpec α × Node α)) (b : Board α) : Prop where
  grounded : Grounded settings b
  untargeted : b.targets = .empty
  heartCells : b.hearts.values.map (·.position) = hearts
  terrainCells : b.terrain.values.map (·.position) = terrain
  nodeValues : b.nodes.values = nodes.map (·.2)
  realized : ∀ p ∈ nodes, p.1.Realized p.2

variable {settings : Settings α} {hearts terrain : List Hex}
  {nodes : List (NodeSpec α × Node α)} {b c : Board α}

namespace Grounded

theorem new : Grounded settings (.new .builtin settings) :=
  have h : (History.start .builtin settings).Sound .builtin settings := .start
  ⟨h.consistent, h.apart, h.catalogue, h.cells, h.unchanged⟩

theorem edited (h : Grounded settings b) {id : Option Int} (he : Board.Edited b id c) :
    Grounded settings c :=
  ⟨he.consistent h.consistent, he.apart h.consistent h.apart, he.catalogue.trans h.catalogue,
    he.cells.trans h.disc, he.settings.trans h.unchanged⟩

/-- What gets the next id goes to the end of its table. -/
theorem values_insert (h : Grounded settings b) {ν : Type} {tile : Int → Tile} {t : Table Int ν}
    {id : ν → Int} {position : ν → Hex} (ht : Agrees b.tiles tile t id position)
    (htile : ∀ i, (tile i).occupant? = some i) (v : ν) :
    (t.insert b.nextId v).values = t.values ++ [v] :=
  Table.values_insert_of_notMem
    (Table.get?_eq_none_iff.mp (h.consistent.get?_nextId ht htile)) v

end Grounded

namespace Raised

theorem new : Raised settings [] [] [] (.new .builtin settings) :=
  ⟨.new, rfl, rfl, rfl, rfl, fun _ hp => absurd hp List.not_mem_nil⟩

/-- The cells that are taken. -/
theorem occupants (h : Raised settings hearts terrain nodes b) :
    b.occupants.map (·.2) = nodes.map (·.1.cell) ++ hearts ++ terrain := by
  have hnodes : nodes.map (fun p => p.2.position) = nodes.map (·.1.cell) :=
    List.map_congr_left fun p hp => (h.realized p hp).cell
  simp only [Board.occupants, List.map_append, List.map_map, Function.comp_def, h.nodeValues,
    hnodes, h.heartCells, h.terrainCells]

/-- **The other cells of the board are free.** -/
theorem free (h : Raised settings hearts terrain nodes b) {cell : Hex}
    (hin : (cell.distance .origin : Int) ≤ settings.grid.radius)
    (hcell : cell ∉ nodes.map (·.1.cell) ++ hearts ++ terrain) :
    b.tile? cell = some .unoccupied := by
  rw [← Hex.mem_disc_iff, ← h.grounded.disc, ← Table.contains_iff_mem_keys] at hin
  obtain ⟨t, ht⟩ := Option.isSome_iff_exists.mp hin
  rw [← h.occupants] at hcell
  have hnone (i : Int) : t.occupant? ≠ some i := by
    intro hi
    refine hcell (List.mem_map.mpr ⟨(i, cell), h.grounded.consistent.mem_occupants.mpr ?_, rfl⟩)
    rw [Board.tile?, Region.get?, ht]
    exact hi
  cases t with
  | unoccupied => exact ht
  | terrain i => exact absurd rfl (hnone i)
  | heart i => exact absurd rfl (hnone i)
  | node i => exact absurd rfl (hnone i)

section Placing

variable {cell : Hex} (h : Raised settings hearts terrain nodes b)
include h

/-- A heart can be placed on a free cell, and is raised there. -/
theorem exists_placeHeart [Scalar α] (hfree : b.tile? cell = some .unoccupied) :
    ∃ v c, b.placeHeart cell = .ok (v, c) ∧ Raised settings (hearts ++ [cell]) terrain nodes c := by
  have hclaim := Board.claim_of_free hfree .heart
  let v : Heart α :=
    ⟨b.nextId, cell, b.settings.heart.initialHealth, b.settings.heart.initialPeriod, 0.0, 0⟩
  refine ⟨v, _, by rw [Board.placeHeart, hclaim]; rfl,
    h.grounded.edited (.placed hclaim (fun _ => rfl) (.heart v hclaim rfl) rfl rfl rfl rfl rfl),
    h.untargeted, ?_, h.terrainCells, h.nodeValues, h.realized⟩
  rw [h.grounded.values_insert h.grounded.consistent.hearts fun _ => rfl, List.map_append,
    h.heartCells]
  rfl

/-- Terrain can be placed on a free cell, and is raised there. -/
theorem exists_placeTerrain (hfree : b.tile? cell = some .unoccupied) :
    ∃ t c, b.placeTerrain cell none = .ok (t, c) ∧
      Raised settings hearts (terrain ++ [cell]) nodes c := by
  have hclaim := Board.claim_of_free hfree .terrain
  let t : Terrain α := ⟨b.nextId, cell, b.settings.grid.terrainHealth⟩
  refine ⟨t, _, by rw [Board.placeTerrain, hclaim]; rfl,
    h.grounded.edited (.placed hclaim (fun _ => rfl) (.terrain t hclaim rfl) rfl rfl rfl rfl rfl),
    h.untargeted, h.heartCells, ?_, h.nodeValues, h.realized⟩
  rw [h.grounded.values_insert h.grounded.consistent.terrain fun _ => rfl, List.map_append,
    h.terrainCells]
  rfl

/-- A node that obeys its contract can be built on a free cell, and is realized there. -/
theorem exists_buildNode {n : NodeSpec α} (hfree : b.tile? n.cell = some .unoccupied)
    {k : Contract} (hk : Catalogue.builtin.contracts.get? n.kind = some k) (hn : n.Obeys k)
    (hkeys : n.wiring.keys.Nodup) : ∃ m c, buildNode b n = .ok (m.id, c) ∧
      Raised settings hearts terrain (nodes ++ [(n, m)]) c := by
  obtain ⟨m, claimed, hclaim, hstate, hrealized, hnodes, hbuild⟩ :=
    NodeSpec.exists_build h.grounded.catalogue hfree hk hn hkeys
  obtain ⟨-, hid, hclaimed⟩ := Board.claim_eq_ok hclaim
  have hboard : claimed.withNode m = { claimed with nodes := b.nodes.insert m.id m } := by
    rw [Board.withNode, hnodes]
  rw [hboard] at hbuild
  refine ⟨m, _, hbuild, h.grounded.edited (.placed hclaim (fun _ => rfl)
    (.node m hclaim hrealized.cell hstate) rfl rfl rfl rfl rfl), ?_, ?_, ?_, ?_, ?_⟩
  · rw [hclaimed]
    exact h.untargeted
  · rw [hclaimed]
    exact h.heartCells
  · rw [hclaimed]
    exact h.terrainCells
  · rw [hid, h.grounded.values_insert h.grounded.consistent.nodes fun _ => rfl, h.nodeValues,
      List.map_append]
    rfl
  · intro p hp
    rcases List.mem_append.mp hp with hp | hp
    · exact h.realized p hp
    · rw [List.mem_singleton.mp hp]
      exact hrealized

end Placing

end Raised

end Scenario

end HexPulse
