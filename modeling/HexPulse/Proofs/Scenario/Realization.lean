import HexPulse.Proofs.Scenario.Build
import HexPulse.Scalar.Double
import HexPulse.Scenario.Starter

/-!
# HexPulse — Proofs — Scenario — Realization

A scenario that was read is built without a refusal and without a fault, and the world is what was
written (`Scenario.Realized`).

* `Scenario.realized_of_read`: this holds for every scenario, unless the seed is below zero.
* `Scenario.unbuilt_negative`: with a seed below zero nothing is built.
-/

namespace HexPulse

variable {α : Type}

/-- A target of a board is the one that a scenario writes down. -/
structure TargetSpec.Realized [Scalar α] (settings : Settings α) (t : TargetSpec α)
    (m : Target α) : Prop where
  position : (Layout.mk settings.grid.hexSize).centre t.cell = .ok m.position
  health : m.health = t.health.getD settings.spawn.targetHealth
  path : m.path = t.path

/-- A world is what a scenario writes down, and the ids lead from the one to the other. -/
structure Scenario.Realized [Scalar α] (settings : Settings α) (s : Scenario α) (built : Built α) :
    Prop where
  wellFormed : built.world.board.WellFormed
  unchanged : built.world.board.settings = settings
  names : built.ids.keys = s.nodes.map (·.id)
  distinct : built.ids.keys.Nodup
  ids : built.ids.values = built.world.board.nodes.keys
  single : built.world.board.nodes.keys.Nodup
  nodes : ∀ n ∈ s.nodes, ∃ i m, built.ids.get? n.id = some i ∧
    built.world.board.nodes.get? i = some m ∧ n.Realized m
  hearts : built.world.board.hearts.values.map (·.position) = s.hearts
  terrain : built.world.board.terrain.values.map (·.position) = s.terrain
  targets : List.Forall₂ (TargetSpec.Realized settings) s.targets
    built.world.board.targets.table.values
  free : ∀ c, (c.distance .origin : Int) ≤ settings.grid.radius → c ∉ s.cells →
    built.world.board.tile? c = some .unoccupied

/-- A world to which some targets were added, in order. -/
def Scenario.Targeted [Scalar α] (settings : Settings α) (w : World α)
    (targets : List (TargetSpec α)) (w' : World α) : Prop :=
  ∃ ts : Targets α, w' = w.withTargets ts ∧
    List.Forall₂ (TargetSpec.Realized settings) targets ts.table.values ∧
    ∀ k ∈ ts.table.keys, k < ts.nextId

/-- A cell near enough has a centre. -/
theorem Layout.exists_centre [Scalar α] (l : Layout α) {radius : Int} (hconvert : ∀ n : Int,
      -radius ≤ n → n ≤ radius → (Scalar.convert n : Except Fault α).isOk = true) {c : Hex}
    (hc : (c.distance .origin : Int) ≤ radius) : ∃ point, l.centre c = .ok point := by
  have hin := Hex.distance_le_iff.mp hc
  simp only [Hex.origin, Int.sub_zero] at hin
  obtain ⟨q, hq⟩ := exists_of_isOk (hconvert c.q hin.1.1 hin.1.2)
  obtain ⟨r, hr⟩ := exists_of_isOk (hconvert c.r hin.2.1.1 hin.2.1.2)
  rw [centre, hq, hr]
  exact ⟨_, rfl⟩

/-- A target that is added goes to the end, and its id is past. -/
theorem Targets.values_add {ts : Targets α} (hpast : ∀ k ∈ ts.table.keys, k < ts.nextId)
    (point : Point α) (health : α) (path : List Hex) (speed : α) :
    (ts.add point health path speed).2.table.values =
        ts.table.values ++ [⟨ts.nextId, point, health, path, 0, speed⟩] ∧
      ∀ k ∈ (ts.add point health path speed).2.table.keys,
        k < (ts.add point health path speed).2.nextId := by
  have hnew : ts.nextId ∉ ts.table.keys := fun hk => Int.lt_irrefl _ (hpast _ hk)
  refine ⟨Table.values_insert_of_notMem hnew _, fun k hk => ?_⟩
  rcases Table.mem_keys_insert.mp hk with hk | rfl
  · exact Int.lt_trans (hpast k hk) (Int.lt_succ _)
  · exact Int.lt_succ _

/-- A target can be added to a cell that has a centre. -/
theorem World.addTarget_eq_ok [Scalar α] {w : World α} {cell : Hex} {point : Point α}
    (h : w.board.layout.centre cell = .ok point) (health : Option α) (path : List Hex) :
    (w.addTarget cell health path).map (·.2) = .ok (w.withTargets (w.board.targets.add point
      (health.getD w.settings.spawn.targetHealth) path w.settings.spawn.targetSpeed).2) := by
  simp only [addTarget, Targets.addAt, h, Bind.bind, Except.bind, pure, Except.pure, Except.map]

namespace Scenario

variable {settings : Settings α} {s : Scenario α}

theorem Targeted.exists_addTarget [Scalar α] {w w' : World α} {targets : List (TargetSpec α)}
    (h : Targeted settings w targets w') (hsettings : w.board.settings = settings)
    {t : TargetSpec α} {point : Point α}
    (hpoint : (Layout.mk settings.grid.hexSize).centre t.cell = .ok point) :
    ∃ w'', (w'.addTarget t.cell t.health t.path).map (·.2) = .ok w'' ∧
      Targeted settings w (targets ++ [t]) w'' := by
  obtain ⟨ts, rfl, hall, hpast⟩ := h
  have hlayout : (w.withTargets ts).board.layout = ⟨settings.grid.hexSize⟩ := by
    rw [← hsettings]
    rfl
  have hadd := World.addTarget_eq_ok (hlayout ▸ hpoint) t.health t.path
  rw [show (w.withTargets ts).settings = settings from hsettings] at hadd
  obtain ⟨hvalues, hpast⟩ := Targets.values_add hpast point
    (t.health.getD settings.spawn.targetHealth) t.path settings.spawn.targetSpeed
  refine ⟨_, hadd, _, rfl, ?_, hpast⟩
  change List.Forall₂ _ _ (ts.add point (t.health.getD settings.spawn.targetHealth) t.path
    settings.spawn.targetSpeed).2.table.values
  rw [hvalues]
  exact List.rel_append hall (.cons ⟨hpoint, rfl, rfl⟩ .nil)

/-! ### The stages of building -/

section Stages

variable (h : s.Legal ⟨Catalogue.builtin.contracts, settings.grid.radius⟩)
include h

/-- The hearts of a legal scenario can be built. -/
theorem exists_buildHearts [Scalar α] : ∃ b, buildHearts (.new .builtin settings) s.hearts = .ok b ∧
    Raised settings s.hearts [] [] b := by
  refine exists_foldlM_eq_ok (P := fun hearts b => Raised settings hearts [] [] b)
    (fun before cell after b hhearts hb => ?_) .new
  have hmem : cell ∈ s.hearts := List.mem_iff_append.mpr ⟨_, _, hhearts⟩
  have hnew := notMem_of_split h.cells.of_append_left.of_append_right hhearts
  have hfree := hb.free (h.inside cell (by simp [cells, hmem])) (by simpa using hnew)
  obtain ⟨v, c, hplace, hc⟩ := hb.exists_placeHeart hfree
  exact ⟨c, by rw [hplace]; rfl, hc⟩

theorem exists_buildTerrain {b : Board α} (hb : Raised settings s.hearts [] [] b) :
    ∃ c, buildTerrain b s.terrain = .ok c ∧ Raised settings s.hearts s.terrain [] c := by
  refine exists_foldlM_eq_ok (P := fun terrain b => Raised settings s.hearts terrain [] b)
    (fun before cell after b hterrain hb => ?_) hb
  have hmem : cell ∈ s.terrain := List.mem_iff_append.mpr ⟨_, _, hterrain⟩
  obtain ⟨-, hnodup, hapart⟩ := List.nodup_append.mp h.cells
  have hnew := notMem_of_split hnodup hterrain
  have hheart : cell ∉ s.hearts := fun hc => hapart _ (List.mem_append_right _ hc) _ hmem rfl
  have hfree := hb.free (h.inside cell (by simp [cells, hmem])) (by simp [hnew, hheart])
  obtain ⟨t, c, hplace, hc⟩ := hb.exists_placeTerrain hfree
  exact ⟨c, by rw [hplace]; rfl, hc⟩

/-- The nodes are built one after the other, and each id is noted with its node. -/
theorem exists_buildNodes (hkeys : ∀ n ∈ s.nodes, n.wiring.keys.Nodup) {b : Board α}
    (hb : Raised settings s.hearts s.terrain [] b) :
    ∃ nodes c ids, buildNodes s.nodes b .empty = .ok (c, ids) ∧
      Raised settings s.hearts s.terrain nodes c ∧ nodes.map (·.1) = s.nodes ∧
      ids.entries = nodes.map fun p => (p.1.id, p.2.id) := by
  -- what is built already is known with its nodes, and in the order in which it was written
  suffices ∀ (after : List (NodeSpec α)) (nodes : List (NodeSpec α × Node α)) (b : Board α)
      (ids : Table String Int), s.nodes = nodes.map (·.1) ++ after →
      Raised settings s.hearts s.terrain nodes b →
      ids.entries = nodes.map (fun p => (p.1.id, p.2.id)) →
      ∃ nodes c ids', buildNodes after b ids = .ok (c, ids') ∧
        Raised settings s.hearts s.terrain nodes c ∧ nodes.map (·.1) = s.nodes ∧
        ids'.entries = nodes.map fun p => (p.1.id, p.2.id) from this _ [] b .empty rfl hb rfl
  intro after
  induction after with
  | nil =>
    intro nodes b ids hnodes hb hids
    rw [List.append_nil] at hnodes
    exact ⟨nodes, b, ids, rfl, hb, hnodes.symm, hids⟩
  | cons n after ih =>
    intro nodes b ids hnodes hb hids
    have hmem : n ∈ s.nodes := List.mem_iff_append.mpr ⟨_, _, hnodes⟩
    have hcell : n.cell ∈ s.nodes.map (·.cell) := List.mem_map_of_mem hmem
    obtain ⟨hcells, -, hterrain⟩ := List.nodup_append.mp h.cells
    obtain ⟨hcells, -, hhearts⟩ := List.nodup_append.mp hcells
    have hnew : n.cell ∉ nodes.map (·.1.cell) := by
      have hnew := notMem_map_of_split hcells hnodes
      rwa [List.map_map] at hnew
    have hheart : n.cell ∉ s.hearts := fun hc => hhearts _ hcell _ hc rfl
    have hground : n.cell ∉ s.terrain := fun hc =>
      hterrain _ (List.mem_append_left _ hcell) _ hc rfl
    have hfree := hb.free (h.inside n.cell (by simp [cells, hcell]))
      (by simp only [List.mem_append, hnew, hheart, hground, or_self, not_false_eq_true])
    obtain ⟨k, hk, hobeys⟩ := h.nodes n hmem
    obtain ⟨m, c, hbuild, hc⟩ := hb.exists_buildNode hfree hk hobeys (hkeys n hmem)
    have hid : n.id ∉ ids.keys := by
      have hid := notMem_map_of_split h.ids hnodes
      rw [List.map_map] at hid
      rwa [Table.keys, hids, List.map_map]
    rw [buildNodes, hbuild]
    refine ih (nodes ++ [(n, m)]) c (ids.insert n.id m.id) ?_ hc ?_
    · rw [hnodes, List.map_append, List.append_assoc]
      rfl
    · rw [Table.entries_insert_of_notMem hid, hids, List.map_append]
      rfl

/-- The targets are added one after the other, at cells whose coordinates are numbers. -/
theorem exists_buildTargets [Scalar α] (hconvert : ∀ n : Int, -settings.grid.radius ≤ n →
      n ≤ settings.grid.radius → (Scalar.convert n : Except Fault α).isOk = true) {w : World α}
    (hsettings : w.board.settings = settings) (htargets : w.board.targets = .empty) :
    ∃ ts, buildTargets w s.targets = .ok (w.withTargets ts) ∧
      List.Forall₂ (TargetSpec.Realized settings) s.targets ts.table.values := by
  have step : ∀ before t after w', s.targets = before ++ t :: after →
      Targeted settings w before w' → ∃ w'', (w'.addTarget t.cell t.health t.path).map (·.2) =
        .ok w'' ∧ Targeted settings w (before ++ [t]) w'' := by
    intro before t after w' hsplit hw'
    have hmem : t ∈ s.targets := List.mem_iff_append.mpr ⟨_, _, hsplit⟩
    obtain ⟨point, hpoint⟩ :=
      Layout.exists_centre ⟨settings.grid.hexSize⟩ hconvert (h.targets t hmem)
    exact hw'.exists_addTarget hsettings hpoint
  have hstart : Targeted settings w [] w := by
    refine ⟨w.board.targets, rfl, ?_, ?_⟩
    · rw [htargets]
      exact .nil
    · rw [htargets]
      exact fun _ hk => absurd hk List.not_mem_nil
  obtain ⟨_, hfold, ts, rfl, hall, -⟩ := exists_foldlM_eq_ok step hstart
  exact ⟨ts, hfold, hall⟩

end Stages

/-- A board that carries a whole scenario is the scenario. -/
theorem Raised.toRealized [Scalar α] {nodes : List (NodeSpec α × Node α)} {b : Board α}
    (h : Raised settings s.hearts s.terrain nodes b) (hspecs : nodes.map (·.1) = s.nodes)
    {ids : Table String Int} (hids : ids.entries = nodes.map fun p => (p.1.id, p.2.id))
    (hdistinct : (s.nodes.map (·.id)).Nodup) {ts : Targets α}
    (hall : List.Forall₂ (TargetSpec.Realized settings) s.targets ts.table.values) {w : World α}
    (hw : w.board = { b with targets := ts }) : s.Realized settings ⟨w, ids⟩ := by
  have hkeyed := h.grounded.consistent.nodes.keyed
  have hnames : ids.keys = s.nodes.map (·.id) := by
    rw [Table.keys, hids, ← hspecs, List.map_map, List.map_map]
    rfl
  have hnodup : ids.keys.Nodup := hnames ▸ hdistinct
  constructor
  all_goals simp only [hw]
  case wellFormed =>
    -- targets do not stand on tiles, so the board agrees with its tables as it did without them
    refine ((Board.Change.targets ts).consistent h.grounded.consistent).toWellFormed
      h.grounded.apart ?_
    have hradius : b.settings.grid.radius = settings.grid.radius := by rw [h.grounded.unchanged]
    exact h.grounded.disc.trans (congrArg _ hradius.symm)
  case unchanged => exact h.grounded.unchanged
  case names => exact hnames
  case distinct => exact hnodup
  case ids =>
    rw [hkeyed.keys_eq, h.nodeValues, Table.values, hids, List.map_map, List.map_map]
    rfl
  case single => exact hkeyed.nodup
  case nodes =>
    intro n hn
    rw [← hspecs] at hn
    obtain ⟨p, hp, rfl⟩ := List.mem_map.mp hn
    refine ⟨p.2.id, p.2, ?_, ?_, h.realized p hp⟩
    · rw [Table.get?_eq_some_iff_mem hnodup, hids]
      exact List.mem_map_of_mem hp
    · exact hkeyed.get?_id (h.nodeValues ▸ List.mem_map_of_mem hp)
  case hearts => exact h.heartCells
  case terrain => exact h.terrainCells
  case targets => exact hall
  case free =>
    intro c hin hc
    have hcells : nodes.map (·.1.cell) = s.nodes.map (·.cell) := by
      rw [← hspecs, List.map_map]
      rfl
    exact h.free hin (by rwa [hcells])

/-- **A scenario that was read can be built, and the world is the scenario**, unless the seed is
below zero. -/
theorem realized_of_read [Scalar α] (draws : Draws α) {alphabet : Text.Alphabet} {d : Data α}
    (hread : read ⟨Catalogue.builtin.contracts, settings.grid.radius⟩ alphabet d = .ok s)
    (hradius : 1 ≤ settings.grid.radius) (hseed : 0 ≤ settings.seed)
    (hconvert : ∀ n : Int, -settings.grid.radius ≤ n → n ≤ settings.grid.radius →
      (Scalar.convert n : Except Fault α).isOk = true) :
    ∃ built, build .builtin settings draws s = .ok built ∧ s.Realized settings built := by
  have hcontracts : Catalogue.builtin.contracts.size ≠ 0 := by decide +kernel
  obtain ⟨hlegal, hkeys⟩ := legal_of_read hcontracts hradius hread
  obtain ⟨b₁, hhearts, h₁⟩ := exists_buildHearts hlegal
  obtain ⟨b₂, hterrain, h₂⟩ := exists_buildTerrain hlegal h₁
  obtain ⟨nodes, b, ids, hnodes, h, hspecs, hids⟩ := exists_buildNodes hlegal hkeys h₂
  obtain ⟨ts, htargets, hall⟩ := exists_buildTargets hlegal hconvert
    (w := { World.new .builtin settings draws with board := b }) h.grounded.unchanged h.untargeted
  refine ⟨⟨World.withTargets { World.new .builtin settings draws with board := b } ts, ids⟩, ?_,
    h.toRealized hspecs hids hlegal.ids hall rfl⟩
  have hboard : (World.new .builtin settings draws).board = .new .builtin settings := rfl
  simp only [build, if_neg (Int.not_lt.mpr hseed), hboard, hhearts, hterrain, hnodes, htargets,
    Except.mapError, Bind.bind, Except.bind, pure, Except.pure]

/-- The starter scenario is read with the rules of the standard settings. -/
theorem exists_read_starter : ∃ s : Scenario Float, read ⟨Catalogue.builtin.contracts,
    (Settings.standard : Settings Float).grid.radius⟩ .characters starter = .ok s := by
  refine exists_of_isOk ?_
  decide +kernel

/-- The starter scenario with the standard settings. -/
theorem realized_of_read_starter : ∃ s : Scenario Float,
    read ⟨Catalogue.builtin.contracts, (Settings.standard : Settings Float).grid.radius⟩ .characters
      starter = .ok s ∧ 1 ≤ (Settings.standard : Settings Float).grid.radius ∧
    0 ≤ (Settings.standard : Settings Float).seed ∧
    (∀ n : Int, -(Settings.standard : Settings Float).grid.radius ≤ n →
      n ≤ (Settings.standard : Settings Float).grid.radius →
      (Scalar.convert n : Except Fault Float).isOk = true) ∧
    ∃ built, build .builtin .standard .none s = .ok built ∧ s.Realized .standard built := by
  obtain ⟨s, hs⟩ := exists_read_starter
  have hradius : 1 ≤ (Settings.standard : Settings Float).grid.radius := by decide
  have hrange : ∀ n ∈ intRange (-(Settings.standard : Settings Float).grid.radius)
      (Settings.standard : Settings Float).grid.radius,
      (Scalar.convert n : Except Fault Float).isOk = true := by
    decide +kernel
  have hconvert (n : Int) (hl : -(Settings.standard : Settings Float).grid.radius ≤ n)
      (hu : n ≤ (Settings.standard : Settings Float).grid.radius) :=
    hrange n (mem_intRange.mpr ⟨hl, hu⟩)
  exact ⟨s, hs, hradius, by decide, hconvert,
    realized_of_read .none hs hradius (by decide) hconvert⟩

/-- With a seed below zero the starter scenario is read all the same, and not built. -/
theorem unbuilt_negative : ∃ s : Scenario Float, read ⟨Catalogue.builtin.contracts,
      (Settings.standard : Settings Float).grid.radius⟩ .characters starter = .ok s ∧
    ∀ draws, build .builtin { (Settings.standard : Settings Float) with seed := -1 } draws s =
      .error .negativeSeed := by
  obtain ⟨s, hs⟩ := exists_read_starter
  exact ⟨s, hs, fun _ => rfl⟩

end Scenario

end HexPulse
