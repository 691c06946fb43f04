import HexPulse.Proofs.Board.Reachable
import HexPulse.Proofs.World.Charging

/-!
# HexPulse — Proofs — World — Projection

Terrain that nodes project.  Whether a cell is free is looked at twice: when the node fires, and
when its effect is carried out.  In between, any number of effects may have named the same cell.

* `World.carryChecked_eq`: the second look is enough, so the board never refuses a placement.
* `World.Projected`: what a list of effects makes of the board, with the terrain that it created.
* `World.first_projection_wins`: each free cell gets one piece, from the first effect that names it.
-/

namespace HexPulse

variable {α : Type}

/-- The terrain that is reported to be placed: its id, the node that it comes from, and its cell. -/
def Event.placed? : Event α → Option (Int × Int × Hex)
  | .terrainPlaced terrain source cell => some (terrain, source, cell)
  | _ => none

namespace Board

variable {b : Board α} {cell : Hex}

/-- On a free cell terrain is placed. -/
theorem placeTerrain_of_free (h : b.tile? cell = some .unoccupied) (health : Option α) :
    b.placeTerrain cell health =
      let t : Terrain α := ⟨b.nextId, cell, health.getD b.settings.grid.terrainHealth⟩
      .ok (t, { b with
        tiles := b.tiles.put cell (.terrain b.nextId)
        terrain := b.terrain.insert b.nextId t
        topologyDirty := true
        nextId := b.nextId + 1 }) := by
  rw [placeTerrain, claim, h]
  rfl

/-- On any other cell the placement is refused. -/
theorem placeTerrain_of_taken (h : b.tile? cell ≠ some .unoccupied) (health : Option α) :
    ∃ e, b.placeTerrain cell health = .error e := by
  rw [placeTerrain, claim]
  split
  · exact ⟨_, rfl⟩
  · next hfree => exact absurd hfree h
  · exact ⟨_, rfl⟩

end Board

namespace World

variable {w : World α} {cell : Hex}

/-- On a free cell terrain is projected. -/
theorem project_of_free (h : w.board.tile? cell = some .unoccupied) (source : Int) :
    w.project cell source =
      let t : Terrain α := ⟨w.board.nextId, cell, w.settings.grid.terrainHealth⟩
      { w with board := { w.board with
          tiles := w.board.tiles.put cell (.terrain w.board.nextId)
          terrain := w.board.terrain.insert w.board.nextId t
          topologyDirty := true
          nextId := w.board.nextId + 1 } }.emit (.terrainPlaced w.board.nextId source cell) := by
  rw [project, Board.placeTerrain_of_free h]
  rfl

/-- On any other cell nothing changes. -/
theorem project_of_taken (h : w.board.tile? cell ≠ some .unoccupied) (source : Int) :
    w.project cell source = w := by
  obtain ⟨e, he⟩ := Board.placeTerrain_of_taken h none
  rw [project, he]

/-! ### The second look -/

/-- Projects terrain onto a cell that is free when it is looked at; the board may still refuse. -/
def projectChecked (w : World α) (cell : Hex) (source : Int) : Except BoardError (World α) :=
  match w.board.tile? cell with
  | some .unoccupied => do
    let (terrain, board) ← w.board.placeTerrain cell none
    return { w with board := board }.emit (.terrainPlaced terrain.id source cell)
  | _ => return w

/-- A projection that looks at the cell once more is never refused there. -/
theorem projectChecked_eq (w : World α) (cell : Hex) (source : Int) :
    w.projectChecked cell source = .ok (w.project cell source) := by
  rw [projectChecked]
  split
  · next h =>
    rw [project, Board.placeTerrain_of_free h]
    rfl
  · next h =>
    rw [project_of_taken h]
    rfl

/-! ### What effects create -/

/-- What effects make of the board, with the terrain that they created and the nodes that it comes
from. -/
structure Projected (w : World α) (es : List (Effect α)) (created : List (Terrain α × Int))
    (w' : World α) : Prop where
  /-- the new pieces stand behind the old ones -/
  terrain : w'.board.terrain.entries =
    w.board.terrain.entries ++ created.map fun p => (p.1.id, p.1)
  ids : created.map (·.1.id) =
    (List.range created.length).map fun k : Nat => w.board.nextId + (k : Int)
  nextId : w'.board.nextId = w.board.nextId + created.length
  health : ∀ p ∈ created, p.1.health = w.settings.grid.terrainHealth
  /-- no cell gets two pieces -/
  apart : (created.map (·.1.position)).Nodup
  /-- the cells that get one are those that were free and are named -/
  cells : ∀ cell, cell ∈ created.map (·.1.position) ↔
    w.board.tile? cell = some .unoccupied ∧ ∃ source, .terrain cell source ∈ es
  /-- the piece comes from the first effect that names its cell -/
  first : ∀ p ∈ created, ∃ before after, es = before ++ .terrain p.1.position p.2 :: after ∧
    ∀ source, .terrain p.1.position source ∉ before
  standing : ∀ p ∈ created, w'.board.tile? p.1.position = some (.terrain p.1.id)
  elsewhere : ∀ cell, cell ∉ created.map (·.1.position) →
    w'.board.tile? cell = w.board.tile? cell
  nodes : w'.board.nodes = w.board.nodes
  hearts : w'.board.hearts = w.board.hearts
  settings : w'.board.settings = w.board.settings
  /-- every piece is reported once, and nothing else is reported as one -/
  reported : ∃ events, Reports w events w' ∧
    events.filterMap Event.placed? = created.map fun p => (p.1.id, p.2, p.1.position)

namespace Projected

variable {w w₁ w₂ : World α} {es es' : List (Effect α)} {created created' : List (Terrain α × Int)}

/-- Effects that create nothing: none of them names a free cell. -/
theorem none (hboard : ∃ ts, w₁.board = { w.board with targets := ts })
    (hes : ∀ cell source, .terrain cell source ∈ es → w.board.tile? cell ≠ some .unoccupied)
    {events : List (Event α)} (hr : Reports w events w₁)
    (hplaced : events.filterMap Event.placed? = []) : Projected w es [] w₁ := by
  obtain ⟨ts, hboard⟩ := hboard
  constructor
  case terrain => rw [hboard, List.map_nil, List.append_nil]
  case ids => rfl
  case nextId => rw [hboard, List.length_nil, Int.natCast_zero, Int.add_zero]
  case health => exact fun p hp => absurd hp List.not_mem_nil
  case apart => exact List.nodup_nil
  case cells =>
    refine fun cell => ⟨fun h => absurd h List.not_mem_nil, ?_⟩
    rintro ⟨hfree, source, hsource⟩
    exact absurd hfree (hes cell source hsource)
  case first => exact fun p hp => absurd hp List.not_mem_nil
  case standing => exact fun p hp => absurd hp List.not_mem_nil
  case elsewhere =>
    intro cell _
    rw [hboard]
    rfl
  case nodes => rw [hboard]
  case hearts => rw [hboard]
  case settings => rw [hboard]
  case reported => exact ⟨events, hr, hplaced⟩

/-- Effects behind others create nothing where these created something. -/
theorem trans (h : Projected w es created w₁) (h' : Projected w₁ es' created' w₂) :
    Projected w (es ++ es') (created ++ created') w₂ := by
  -- where something was created, the cell is no longer free; elsewhere it is as free as before
  have hbusy : ∀ p ∈ created, p.1.position ∉ created'.map (·.1.position) := by
    intro p hp hmem
    have hfree := ((h'.cells _).mp hmem).1
    rw [h.standing p hp] at hfree
    cases hfree
  have hfresh : ∀ cell, w₁.board.tile? cell = some .unoccupied →
      cell ∉ created.map (·.1.position) ∧ w.board.tile? cell = some .unoccupied := by
    intro cell hfree
    have hnot : cell ∉ created.map (·.1.position) := by
      intro hmem
      obtain ⟨p, hp, rfl⟩ := List.mem_map.mp hmem
      rw [h.standing p hp] at hfree
      cases hfree
    exact ⟨hnot, h.elsewhere cell hnot ▸ hfree⟩
  constructor
  case terrain => rw [h'.terrain, h.terrain, List.map_append, List.append_assoc]
  case ids =>
    rw [List.map_append, h.ids, h'.ids, h.nextId, List.length_append, List.range_add,
      List.map_append, List.map_map]
    refine congrArg _ (List.map_congr_left fun k _ => ?_)
    rw [Function.comp_apply, Int.natCast_add, Int.add_assoc]
  case nextId =>
    rw [h'.nextId, h.nextId, List.length_append, Int.natCast_add, Int.add_assoc]
  case health =>
    intro p hp
    rcases List.mem_append.mp hp with hp | hp
    · exact h.health p hp
    · rw [h'.health p hp, World.settings, h.settings]
      rfl
  case apart =>
    rw [List.map_append, List.nodup_append]
    refine ⟨h.apart, h'.apart, ?_⟩
    rintro cell hcell _ hcell' rfl
    obtain ⟨p, hp, rfl⟩ := List.mem_map.mp hcell
    exact hbusy p hp hcell'
  case cells =>
    intro cell
    rw [List.map_append, List.mem_append]
    constructor
    · rintro (hmem | hmem)
      · obtain ⟨hfree, source, hs⟩ := (h.cells cell).mp hmem
        exact ⟨hfree, source, List.mem_append_left _ hs⟩
      · obtain ⟨hfree, source, hs⟩ := (h'.cells cell).mp hmem
        exact ⟨(hfresh cell hfree).2, source, List.mem_append_right _ hs⟩
    · rintro ⟨hfree, source, hs⟩
      by_cases hmem : cell ∈ created.map (·.1.position)
      · exact .inl hmem
      · rcases List.mem_append.mp hs with hs | hs
        · exact .inl ((h.cells cell).mpr ⟨hfree, source, hs⟩)
        · exact .inr ((h'.cells cell).mpr ⟨(h.elsewhere cell hmem).trans hfree, source, hs⟩)
  case first =>
    intro p hp
    rcases List.mem_append.mp hp with hp | hp
    · obtain ⟨before, after, hes, hbefore⟩ := h.first p hp
      exact ⟨before, after ++ es', by rw [hes, List.append_assoc, List.cons_append], hbefore⟩
    · obtain ⟨before, after, hes, hbefore⟩ := h'.first p hp
      refine ⟨es ++ before, after, by rw [hes, List.append_assoc], fun source hs => ?_⟩
      rcases List.mem_append.mp hs with hs | hs
      · -- an effect of the first list would have created a piece on this cell
        have hfree := ((h'.cells p.1.position).mp (List.mem_map_of_mem hp)).1
        obtain ⟨hnot, hfree⟩ := hfresh _ hfree
        exact hnot ((h.cells _).mpr ⟨hfree, source, hs⟩)
      · exact hbefore source hs
  case standing =>
    intro p hp
    rcases List.mem_append.mp hp with hp | hp
    · rw [h'.elsewhere _ (hbusy p hp), h.standing p hp]
    · exact h'.standing p hp
  case elsewhere =>
    intro cell hcell
    rw [List.map_append, List.mem_append, not_or] at hcell
    rw [h'.elsewhere cell hcell.2, h.elsewhere cell hcell.1]
  case nodes => rw [h'.nodes, h.nodes]
  case hearts => rw [h'.hearts, h.hearts]
  case settings => rw [h'.settings, h.settings]
  case reported =>
    obtain ⟨events, hr, hplaced⟩ := h.reported
    obtain ⟨events', hr', hplaced'⟩ := h'.reported
    refine ⟨events ++ events', hr.trans hr', ?_⟩
    rw [List.filterMap_append, hplaced, hplaced', List.map_append]

end Projected

variable [Scalar α]

/-- Carries out one effect; the board may refuse terrain. -/
def applyChecked (w : World α) : Effect α → Except BoardError (Progress (World α))
  | .terrain cell source =>
    ((w.emit (.effect (.terrain cell source))).projectChecked cell source).map .done
  | e => .ok (w.apply e)

/-- Carries out effects one after the other, up to the first fault or refusal. -/
def carryChecked : List (Effect α) → World α → Except BoardError (Progress (World α))
  | [], w => .ok (.done w)
  | e :: es, w => do
    let p ← w.applyChecked e
    match p.fault with
    | none => carryChecked es p.state
    | some _ => return p

/-- **No placement is refused.**  The board accepts every terrain that it is asked for. -/
theorem carryChecked_eq (es : List (Effect α)) (w : World α) :
    carryChecked es w = .ok (Progress.fold apply es w) := by
  have happly (w : World α) (e : Effect α) : w.applyChecked e = .ok (w.apply e) := by
    cases e with
    | terrain cell source =>
      rw [applyChecked, projectChecked_eq]
      rfl
    | _ => rfl
  induction es generalizing w with
  | nil => rfl
  | cons e es ih =>
    rw [carryChecked, happly, Progress.fold, Progress.andThen]
    change (match (w.apply e).fault with
      | none => carryChecked es (w.apply e).state
      | some _ => .ok (w.apply e)) = _
    cases (w.apply e).fault with
    | none => exact ih _
    | some f => rfl

/-! ### Effects in order -/

/-- An effect on a free cell creates a piece. -/
theorem projected_terrain (hw : w.board.Consistent) {cell : Hex}
    (hfree : w.board.tile? cell = some .unoccupied)
    (source : Int) : Projected w [.terrain cell source]
      [(⟨w.board.nextId, cell, w.settings.grid.terrainHealth⟩, source)]
      (w.apply (.terrain cell source)).state := by
  have happly : (w.apply (.terrain cell source)).state =
      (w.emit (.effect (.terrain cell source))).project cell source := rfl
  rw [project_of_free (w := w.emit _) hfree] at happly
  -- the id is new, so that the terrain goes to the end of the table
  have hnew : w.board.nextId ∉ w.board.terrain.keys :=
    Table.get?_eq_none_iff.mp (hw.get?_nextId hw.terrain fun _ => rfl)
  rw [happly]
  constructor
  case terrain => exact Table.entries_insert_of_notMem hnew _
  case ids => simp
  case nextId => rfl
  case health =>
    intro p hp
    rw [List.mem_singleton.mp hp]
  case apart => exact List.nodup_singleton _
  case cells =>
    intro c
    rw [List.map_singleton, List.mem_singleton]
    constructor
    · rintro rfl
      exact ⟨hfree, source, List.mem_singleton.mpr rfl⟩
    · rintro ⟨-, s, hs⟩
      exact (Effect.terrain.inj (List.mem_singleton.mp hs)).1
  case first =>
    intro p hp
    rw [List.mem_singleton.mp hp]
    exact ⟨[], [], rfl, fun s => List.not_mem_nil⟩
  case standing =>
    intro p hp
    rw [List.mem_singleton.mp hp]
    exact Region.get?_put_self hfree _
  case elsewhere =>
    intro c hc
    rw [List.map_singleton, List.mem_singleton] at hc
    exact Region.get?_put_of_ne _ _ hc
  case nodes => rfl
  case hearts => rfl
  case settings => rfl
  case reported =>
    refine ⟨[.effect (.terrain cell source), .terrainPlaced w.board.nextId source cell], ?_, rfl⟩
    exact ⟨rfl, List.append_assoc w.journal [_] [_], rfl, rfl⟩

/-- An effect on a cell that is not free is reported and dropped. -/
theorem apply_of_taken {w : World α} {cell : Hex} (h : w.board.tile? cell ≠ some .unoccupied)
    (source : Int) : w.apply (.terrain cell source) =
      .done (w.emit (.effect (.terrain cell source))) := by
  have htaken : (w.emit (.effect (.terrain cell source))).board.tile? cell ≠ some .unoccupied := h
  exact congrArg Progress.done (project_of_taken htaken source)

/-- **One effect creates one piece of terrain or none.** -/
theorem projected_apply {w : World α} (hw : w.board.Consistent) (e : Effect α) :
    ∃ created, Projected w [e] created (w.apply e).state := by
  by_cases he : ∃ cell source, e = .terrain cell source
  · obtain ⟨cell, source, rfl⟩ := he
    by_cases hfree : w.board.tile? cell = some .unoccupied
    · exact ⟨_, projected_terrain hw hfree source⟩
    · rw [apply_of_taken hfree]
      refine ⟨[], .none ⟨w.board.targets, rfl⟩ (fun c s hs => ?_) (w.reports_emit ⟨rfl, rfl⟩) rfl⟩
      rwa [(Effect.terrain.inj (List.mem_singleton.mp hs)).1]
  · have hne := fun cell source h => he ⟨cell, source, h⟩
    obtain ⟨ts, inFlight, dealt, happly⟩ := apply_state (w := w) hne
    have hr : Reports w [.effect e] (w.apply e).state := by
      rw [happly]
      exact ⟨rfl, rfl, rfl, rfl⟩
    refine ⟨[], .none ⟨ts, by rw [happly]⟩ (fun c s hs => ?_) hr rfl⟩
    exact absurd (List.mem_singleton.mp hs).symm (hne c s)

/-- **So it is with any number of effects.** -/
theorem projected_fold {es : List (Effect α)} {w : World α} (hw : w.board.Consistent)
    (h : (Progress.fold apply es w).fault = none) :
    ∃ created, Projected w es created (Progress.fold apply es w).state := by
  induction es generalizing w with
  | nil =>
    refine ⟨[], .none ⟨w.board.targets, rfl⟩ (fun _ _ hs => ?_) (.refl w) rfl⟩
    exact absurd hs List.not_mem_nil
  | cons e es ih =>
    obtain ⟨-, heq⟩ := Progress.andThen_fault_eq_none h
    rw [show Progress.fold apply (e :: es) w = _ from heq] at h ⊢
    obtain ⟨created, hfirst⟩ := projected_apply hw e
    obtain ⟨created', hrest⟩ := ih ((w.aside_apply e).board.consistent hw) h
    exact ⟨created ++ created', hfirst.trans hrest⟩

/-- **The effects of a pass project as they should.** -/
theorem projected_applyAll {w : World α} (hw : w.board.Consistent)
    (h : w.applyAll.fault = none) : ∃ created, Projected w w.sink created w.applyAll.state := by
  obtain ⟨created, hp⟩ := projected_fold (w := { w with sink := [] }) hw h
  obtain ⟨events, hr, hplaced⟩ := hp.reported
  have hr : Reports w events w.applyAll.state := ⟨hr.frame, hr.journal, hr.fired, hr.kills⟩
  exact ⟨created, { hp with reported := ⟨events, hr, hplaced⟩ }⟩

/-- **An effect comes too late** if its cell was not free, or an effect before it names the cell. -/
theorem apply_of_late {w : World α} (hw : w.board.Consistent) {before : List (Effect α)}
    (h : (Progress.fold apply before w).fault = none) {cell : Hex}
    (hlate : w.board.tile? cell = some .unoccupied → ∃ s, .terrain cell s ∈ before)
    (source : Int) : (Progress.fold apply before w).state.apply (.terrain cell source) =
      .done ((Progress.fold apply before w).state.emit (.effect (.terrain cell source))) := by
  obtain ⟨created, hp⟩ := projected_fold hw h
  refine apply_of_taken (fun hfree => ?_) source
  by_cases hmem : cell ∈ created.map (·.1.position)
  · obtain ⟨p, hp', rfl⟩ := List.mem_map.mp hmem
    rw [hp.standing p hp'] at hfree
    cases hfree
  · rw [hp.elsewhere cell hmem] at hfree
    exact hmem ((hp.cells cell).mpr ⟨hfree, hlate hfree⟩)

/-! ### Behind the effects -/

/-- From `w` to `w'` nothing was placed or cleared, and no terrain changed. -/
structure Grounded (w w' : World α) : Prop where
  tiles : w'.board.tiles = w.board.tiles
  terrain : w'.board.terrain = w.board.terrain

namespace Grounded

omit [Scalar α] in
theorem trans {w w₁ w₂ : World α} (h : Grounded w w₁) (h' : Grounded w₁ w₂) : Grounded w w₂ :=
  ⟨h'.tiles.trans h.tiles, h'.terrain.trans h.terrain⟩

/-- What is in flight leaves the ground alone. -/
theorem fly (w : World α) (dt : α) : Grounded w (w.fly dt).state := by
  obtain ⟨ts, inFlight, dealt, hfly⟩ := w.fly_state dt
  rw [hfly]
  exact ⟨rfl, rfl⟩

theorem regenerate (w : World α) (dt : α) : Grounded w (w.regenerate dt) := by
  rw [World.regenerate]
  split
  split
  · exact ⟨rfl, rfl⟩
  · exact ⟨rfl, rfl⟩

/-- Targets that walk leave the ground alone. -/
theorem walked (w : World α) (dt : α) : Grounded w (w.walked dt) := by
  have h := regenerate
    ((w.withTargets (w.board.targets.follow w.board.layout dt).state).contact dt).state dt
  exact ⟨h.tiles, h.terrain⟩

theorem bury (w : World α) : Grounded w w.bury := by
  rw [World.bury, emitAll_eq]
  exact ⟨rfl, rfl⟩

end Grounded

end World

theorem Frame.Course.grounded_ended [Scalar α] {f : Frame α} (h : f.Course) :
    World.Grounded f.carried f.ended := by
  have hflown : World.Grounded f.carried f.flown := .fly f.carried f.dt
  have hwalked : World.Grounded f.flown f.walked := .walked f.flown f.dt
  have hended : World.Grounded f.walked f.ended := by
    rw [h.ended]
    exact (World.Grounded.bury _).trans ⟨rfl, rfl⟩
  exact hflown.trans (hwalked.trans hended)

/-! ### Nodes that project -/

section Nodes

variable [Scalar α] {b : Board α} {n : Node α}

/-- The node aims at the cell: the vector behind its port lies nearest to it. -/
def Board.AimsAt (b : Board α) (n : Node α) (cell : Hex) : Prop :=
  ∃ q r, b.readFiniteVector n "target" = .ok (q, r) ∧ Hex.nearest q r = .ok cell

/-- A node that projects without an error aims at a free cell, and asks for terrain there. -/
theorem Board.exists_of_projectTile {x : Value α × List (Effect α)} (h : b.projectTile n = .ok x) :
    ∃ cell, b.AimsAt n cell ∧ b.tile? cell = some .unoccupied ∧ x.2 = [.terrain cell n.id] := by
  rw [projectTile] at h
  cases hread : b.readFiniteVector n "target" with
  | error e =>
    rw [hread] at h
    cases h
  | ok v =>
    rw [hread] at h
    change (Halt.ofArithmetic (Hex.nearest v.1 v.2) >>= _) = _ at h
    cases hcell : Hex.nearest v.1 v.2 with
    | error e =>
      rw [hcell] at h
      cases h
    | ok cell =>
      have hpure : Halt.ofArithmetic (Except.ok cell) = pure cell := rfl
      rw [hcell, hpure, pure_bind] at h
      split at h
      · cases h
      · next hfree =>
        obtain rfl := Except.ok.inj h
        exact ⟨cell, ⟨v.1, v.2, hread, hcell⟩, hfree, rfl⟩
      · cases h

/-- A projector has a value only if it asks for terrain on the free cell that it aims at. -/
theorem Board.exists_of_evaluate (hk : n.kind = .projectTile) {v : Value α}
    (hv : (b.evaluate n).state = .ok v) :
    ∃ cell, b.AimsAt n cell ∧ b.tile? cell = some .unoccupied ∧
      .terrain cell n.id ∈ (b.evaluate n).effects := by
  have hresult := Evaluation.result_of_state_eq_ok hv
  simp only [evaluate, hk] at hresult ⊢
  cases hx : b.projectTile n with
  | error halt =>
    rw [hx] at hresult
    cases hresult
  | ok x =>
    obtain ⟨cell, haim, hfree, hx'⟩ := exists_of_projectTile hx
    refine ⟨cell, haim, hfree, ?_⟩
    change _ ∈ x.2
    rw [hx']
    exact List.mem_singleton.mpr rfl

end Nodes

/-! ### Frames -/

namespace Frame

variable [Scalar α] {f : Frame α}

/-- The effects of a frame. -/
theorem projected_carried (h : f.Course) (hs : f.Stages) (hw : f.world.board.Consistent) :
    ∃ created, World.Projected f.activated f.activated.sink created f.carried := by
  have hconsistent : f.activated.board.Consistent := by
    rw [h.board_activated]
    exact hs.passed_consistent hw
  exact World.projected_applyAll hconsistent h.carry

/-- Where a node projects without an error, a piece was created, by the node or by one before it. -/
theorem exists_created (h : f.Course) (hs : f.Stages) (hw : f.world.board.Consistent)
    {created : List (Terrain α × Int)}
    (hp : World.Projected f.activated f.activated.sink created f.carried) {id : Int}
    (hid : id ∈ f.fired) {n : Node α} {v : Value α} (hn : f.ended.board.nodes.get? id = some n)
    (hk : n.kind = .projectTile) (hv : n.state = .ok v) :
    ∃ m, f.asked.board.nodes.get? id = some m ∧ ∃ p ∈ created,
      f.asked.board.AimsAt m p.1.position ∧
        f.ended.board.tile? p.1.position = some (.terrain p.1.id) ∧
        f.ended.board.terrain.get? p.1.id = some p.1 := by
  have halone := hs.alone hw
  obtain ⟨m, hm, hr⟩ := hs.ready_of_mem hw hid
  obtain ⟨hmem, rfl⟩ := (hs.asked_keyed hw).get?_eq_some_iff.mp hm
  rw [h.nodes_ended, halone.ready m hmem hr] at hn
  obtain rfl := Option.some.inj hn
  obtain ⟨cell, haim, hfree, heffect⟩ := Board.exists_of_evaluate (n := m) hk hv
  -- the cell is free behind the pass as it was before it, and the effect is among those of the pass
  have htiles : f.activated.board.tiles = f.asked.board.tiles := by
    rw [h.board_activated, halone.rest]
  have hfree : f.activated.board.tile? cell = some .unoccupied := by
    rw [Board.tile?, htiles]
    exact hfree
  have hnamed : .terrain cell m.id ∈ f.activated.sink := by
    have hsink : f.activated.sink = f.passed.sink := by
      rw [activated, World.activate_state h.activate, passed]
    rw [hsink, halone.sink, ← hs.fired]
    refine List.mem_append_right _ (List.mem_flatMap.mpr ⟨m.id, hid, ?_⟩)
    rw [Board.effectsOf, hm]
    exact heffect
  obtain ⟨p, hp', hposition⟩ := List.mem_map.mp ((hp.cells cell).mpr ⟨hfree, m.id, hnamed⟩)
  have hground := h.grounded_ended
  refine ⟨m, hm, p, hp', hposition ▸ haim, ?_, ?_⟩
  · rw [Board.tile?, hground.tiles]
    exact hp.standing p hp'
  · have hkeyed := (hs.ended_consistent hw).terrain.keyed
    rw [Table.get?_eq_some_iff_mem hkeyed.nodup, hground.terrain, hp.terrain]
    exact List.mem_append_right _ (List.mem_map_of_mem hp')

end Frame

/-- **The first projection on a cell wins.**  Whatever the board is and whatever effects are to be
carried out on it, if no fault stops them: the board refuses no placement; each free cell that an
effect names gets one piece of terrain, which is reported once, with the node of the first such
effect, and no other tile, node or heart changes; an effect that comes too late is only reported
itself.  So behind a frame there is new terrain on the cell of every node that projected without an
error, however many of them aimed at one cell. -/
theorem World.first_projection_wins [Scalar α] {catalogue : Catalogue} {settings : Settings α} :
    (∀ w : World α, w.board.Reachable catalogue settings → w.applyAll.fault = none →
      carryChecked w.sink { w with sink := [] } = .ok w.applyAll ∧
      (∃ created, Projected w w.sink created w.applyAll.state) ∧
      ∀ before cell source after, w.sink = before ++ .terrain cell source :: after →
        (w.board.tile? cell = some .unoccupied → ∃ s, .terrain cell s ∈ before) →
        let v := (Progress.fold apply before { w with sink := [] }).state
        v.apply (.terrain cell source) = .done (v.emit (.effect (.terrain cell source)))) ∧
    ∀ f : Frame α, f.world.board.Reachable catalogue settings →
      (f.world.step f.dt).fault = none →
      ∃ created, Projected f.activated f.activated.sink created f.carried ∧
        ∀ id ∈ f.fired, ∀ n v, f.ended.board.nodes.get? id = some n → n.kind = .projectTile →
          n.state = .ok v → ∃ m, f.asked.board.nodes.get? id = some m ∧ ∃ p ∈ created,
            f.asked.board.AimsAt m p.1.position ∧
              f.ended.board.tile? p.1.position = some (.terrain p.1.id) ∧
              f.ended.board.terrain.get? p.1.id = some p.1 := by
  refine ⟨fun w hw h => ⟨carryChecked_eq _ _, projected_applyAll hw.consistent h, ?_⟩,
    fun f hw h => ?_⟩
  · intro before cell source after hsink hlate
    -- the effects before this one met no fault, since all of them met none
    have hbefore : (Progress.fold apply before { w with sink := [] }).fault = none := by
      rw [applyAll, hsink, Progress.fold_append] at h
      exact (Progress.andThen_fault_eq_none h).1
    exact apply_of_late (w := { w with sink := [] }) hw.consistent hbefore hlate source
  · have hs := Frame.stages h
    have hc := Frame.course h
    obtain ⟨created, hp⟩ := Frame.projected_carried hc hs hw.consistent
    exact ⟨created, hp, fun id hid n v hn hk hv =>
      Frame.exists_created hc hs hw.consistent hp hid hn hk hv⟩

/-! ### Two nodes and one cell -/

namespace Rivals

/-- A heart, two constants, the vector that is made of them, and two nodes that project there. -/
def requests : List (Request Float) := [
  .placeHeart ⟨0, 0⟩, .placeNode ⟨1, -1⟩ "ConstantNumber", .placeNode ⟨0, 1⟩ "ConstantNumber",
  .placeNode ⟨1, 0⟩ "VectorCreate", .placeNode ⟨2, 0⟩ "ProjectTile",
  .placeNode ⟨1, 1⟩ "ProjectTile",
  .setConstant 2 (some (.number (-2.0))), .setConstant 3 (some (.number 0.0)),
  .bind 4 "north" "x", .bind 4 "south_west" "y", .bind 5 "north_west" "target",
  .bind 6 "north" "target"]

/-- The world after these requests. -/
@[irreducible] def world : World Float :=
  requests.foldl World.perform (.new .builtin Beacon.settings .none)

/-- The frame in which the heart beats and the constants fire. -/
def first : Frame Float := ⟨world, 10.0⟩

/-- The frame in which the vector is made. -/
def second : Frame Float := ⟨first.ended, 0.5⟩

/-- The frame in which both nodes project. -/
def third : Frame Float := ⟨second.ended, 0.5⟩

theorem reachable : third.world.board.Reachable .builtin Beacon.settings := by
  have hworld : Run World.step (.new .builtin Beacon.settings .none)
      (requests.reverse.map .request ++ []) [] world := by
    unfold world
    exact Run.requests .start requests
  exact World.onward_step second.world second.dt (World.onward_step world 10.0 hworld.reachable)

end Rivals

open Rivals in
/-- Both nodes project onto one cell, and one piece of terrain stands there. -/
theorem World.first_projection_wins_rivals :
    third.world.board.Reachable .builtin Beacon.settings ∧ third.fired = [5, 6] ∧
      carryChecked third.activated.sink third.unloaded = .ok third.activated.applyAll ∧
      (third.ended.board.terrain.entries.map fun e => (e.1, e.2.position)) = [(7, ⟨-2, 0⟩)] ∧
      ∃ created, Projected third.activated third.activated.sink created third.carried ∧
        ∀ id ∈ third.fired, ∃ m, third.asked.board.nodes.get? id = some m ∧ ∃ p ∈ created,
          third.asked.board.AimsAt m p.1.position ∧
            third.ended.board.terrain.get? p.1.id = some p.1 := by
  have hactivated : third.activated.board.Reachable .builtin Beacon.settings :=
    World.onward_activate third.asked (Frame.reachable_asked reachable)
  have hcarry : third.activated.applyAll.fault = none := by decide +kernel
  obtain ⟨hchecked, -, -⟩ := first_projection_wins.1 third.activated hactivated hcarry
  obtain ⟨created, hp, hnodes⟩ := first_projection_wins.2 third reachable (by decide +kernel)
  refine ⟨reachable, by decide +kernel, hchecked, by decide +kernel, created, hp,
    fun id hid => ?_⟩
  have hdone : ∀ id ∈ third.fired, (third.ended.board.nodes.get? id).any
      (fun n => n.kind = .projectTile && n.state.isOk) = true := by
    decide +kernel
  have hdone := hdone id hid
  cases hn : third.ended.board.nodes.get? id with
  | none =>
    rw [hn] at hdone
    cases hdone
  | some n =>
    rw [hn, Option.any_some, Bool.and_eq_true, decide_eq_true_eq, NodeState.isOk_iff] at hdone
    obtain ⟨hk, v, hv⟩ := hdone
    obtain ⟨m, hm, p, hp', haim, -, hterrain⟩ := hnodes id hid n v hn hk hv
    exact ⟨m, hm, p, hp', haim, hterrain⟩

end HexPulse
