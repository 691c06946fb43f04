import HexPulse.Proofs.Activation.Typing
import HexPulse.Proofs.World.Run

/-!
# HexPulse — Proofs — Board — Reachable

The boards that an empty one comes to, whatever is done to it: by edits in any order, the health of
anything set to anything between them, and by the stages of frames, also where a fault stops them.

* `Reachable.consistent`, `Reachable.wired`: on such a board tiles and tables agree, and nodes are
  bound to ports of their kinds.
* `World.onward_perform`, `World.onward_step`: requests and frames lead from such boards to
  such boards.
-/

namespace HexPulse

variable {α : Type}

namespace Board

/-- The boards that come from an empty one. -/
inductive Reachable [Scalar α] (catalogue : Catalogue) (settings : Settings α) :
    Board α → Prop where
  | new : Reachable catalogue settings (.new catalogue settings)
  | edit {b c : Board α} {e : Edit α} {id : Option Int} (h : Reachable catalogue settings b)
      (edited : b.edit e = .ok (id, c)) : Reachable catalogue settings c
  | prune {b : Board α} (h : Reachable catalogue settings b) :
      Reachable catalogue settings b.prune.board
  | request {b : Board α} (h : Reachable catalogue settings b) :
      Reachable catalogue settings b.request
  | pass {b : Board α} (h : Reachable catalogue settings b) (sink : List (Effect α)) :
      Reachable catalogue settings (Pass.run b sink).state.board
  | targets {b : Board α} (h : Reachable catalogue settings b) (ts : Targets α) :
      Reachable catalogue settings { b with targets := ts }
  | hearts {b : Board α} (h : Reachable catalogue settings b) (t : Table Int (Heart α))
      (sites : t.mapValues (fun h => (h.id, h.position)) =
        b.hearts.mapValues fun h => (h.id, h.position)) :
      Reachable catalogue settings { b with hearts := t }

/-! ### What firing does to nodes -/

/-- A pass, wherever it stops, changes states and charges and nothing else. -/
structure Fired (b c : Board α) : Prop where
  rest : c = { b with nodes := c.nodes }
  sites : c.nodes.mapValues (fun n => (n.id, n.position)) =
    b.nodes.mapValues fun n => (n.id, n.position)
  wiring : c.nodes.mapValues (fun n => (n.kind, n.wiring)) =
    b.nodes.mapValues fun n => (n.kind, n.wiring)

namespace Fired

theorem refl (b : Board α) : Fired b b := ⟨rfl, rfl, rfl⟩

theorem trans {b c d : Board α} (h : Fired b c) (h' : Fired c d) : Fired b d := by
  refine ⟨?_, h'.sites.trans h.sites, h'.wiring.trans h.wiring⟩
  rw [h'.rest, h.rest]

/-- A node that is asked to fire changes its state and its charge at most. -/
theorem fire [Scalar α] (p : Pass α) (id : Int) : Fired p.board (Pass.fire p id).state.board := by
  cases hn : p.board.nodes.get? id with
  | none =>
    rw [Pass.fire, hn]
    exact .refl _
  | some n =>
    rw [Pass.board_fire hn]
    refine ⟨rfl, ?_, ?_⟩
    · rw [Board.updateNode, Table.mapValues_modify]
      exact fun _ => rfl
    · rw [Board.updateNode, Table.mapValues_modify]
      exact fun _ => rfl

/-- A pass changes states and charges at most, also where a fault stops it. -/
theorem run [Scalar α] (b : Board α) (sink : List (Effect α)) :
    Fired b (Pass.run b sink).state.board :=
  Progress.fold_rel (R := fun p q : Pass α => Fired p.board q.board) (fun p => .refl p.board)
    (fun h h' => h.trans h') fire _ ⟨b, sink, []⟩

/-- Firing keeps a board consistent. -/
theorem consistent {b c : Board α} (h : Fired b c) (hb : b.Consistent) : c.Consistent := by
  rw [h.rest]
  exact ⟨hb.nodes.of_sites h.sites, hb.hearts, hb.terrain, hb.issued⟩

/-- Every node was there before, of the same kind and with the same wiring. -/
theorem exists_of_mem {b c : Board α} (h : Fired b c) {m : Node α} (hm : m ∈ c.nodes.values) :
    ∃ n ∈ b.nodes.values, m.kind = n.kind ∧ m.wiring = n.wiring := by
  have hvalues := congrArg Table.values h.wiring
  rw [Table.values_mapValues, Table.values_mapValues] at hvalues
  have hmem : (m.kind, m.wiring) ∈ c.nodes.values.map fun n => (n.kind, n.wiring) :=
    List.mem_map_of_mem hm
  rw [hvalues] at hmem
  obtain ⟨n, hn, e⟩ := List.mem_map.mp hmem
  obtain ⟨hkind, hwiring⟩ := Prod.mk.inj e
  exact ⟨n, hn, hkind.symm, hwiring.symm⟩

end Fired

/-! ### What pruning and requests leave alone -/

section Kept

variable {b : Board α} {m : Node α}

/-- Pruning keeps the kinds of nodes and their wiring. -/
theorem exists_of_mem_prune [Scalar α] (hm : m ∈ b.prune.board.nodes.values) :
    ∃ n ∈ b.nodes.values, m.kind = n.kind ∧ m.wiring = n.wiring := by
  rw [prune, Table.values_mapValues, List.mem_map] at hm
  obtain ⟨n, hn, rfl⟩ := hm
  refine ⟨n, hn, ?_⟩
  rw [pruneNode]
  split
  · split <;> exact ⟨rfl, rfl⟩
  · exact ⟨rfl, rfl⟩

theorem exists_of_mem_request (hm : m ∈ b.request.nodes.values) :
    ∃ n ∈ b.nodes.values, m.kind = n.kind ∧ m.wiring = n.wiring := by
  rw [request, Table.values_mapValues, List.mem_map] at hm
  obtain ⟨n, hn, rfl⟩ := hm
  obtain ⟨-, hkind, hwiring⟩ := Node.of_fixture_eq (Node.fixture_requestNode n)
  exact ⟨n, hn, hkind, hwiring⟩

end Kept

/-! ### Invariants -/

namespace Reachable

variable [Scalar α] {catalogue : Catalogue} {settings : Settings α} {b : Board α}

/-- **Every board that comes from an empty one is consistent.** -/
theorem consistent (h : b.Reachable catalogue settings) : b.Consistent := by
  induction h with
  | new => exact .new catalogue settings
  | edit _ edited ih => exact (Board.edited edited).consistent ih
  | prune _ ih => exact ih.prune
  | request _ ih => exact ih.request
  | pass _ sink ih => exact (Fired.run _ sink).consistent ih
  | targets _ ts ih => exact (Change.targets ts).consistent ih
  | hearts _ t sites ih => exact (Change.hearts t sites).consistent ih

/-- The settings and the catalogue stay as they were. -/
theorem fixed (h : b.Reachable catalogue settings) :
    b.settings = settings ∧ b.catalogue = catalogue := by
  induction h with
  | new => exact ⟨rfl, rfl⟩
  | edit _ edited ih =>
    have hedited := Board.edited edited
    exact ⟨hedited.settings.trans ih.1, hedited.catalogue.trans ih.2⟩
  | prune _ ih => exact ih
  | request _ ih => exact ih
  | pass _ sink ih =>
    rw [(Fired.run _ sink).rest]
    exact ih
  | targets _ ts ih => exact ih
  | hearts _ t sites ih => exact ih

/-- The tiles cover the disc of the board, and no id stands on two of them. -/
theorem covered (h : b.Reachable catalogue settings) :
    b.Apart ∧ b.tiles.cells.keys = Hex.origin.disc settings.grid.radius := by
  induction h with
  | new =>
    have hstart : (History.start catalogue settings).Sound catalogue settings := .start
    exact ⟨hstart.apart, hstart.cells⟩
  | edit h edited ih =>
    have hedited := Board.edited edited
    exact ⟨hedited.apart h.consistent ih.1, hedited.cells.trans ih.2⟩
  | prune _ ih => exact ih
  | request _ ih => exact ih
  | pass _ sink ih =>
    rw [(Fired.run _ sink).rest]
    exact ih
  | targets _ ts ih => exact ih
  | hearts _ t sites ih => exact ih

/-- The board stays where it is, and keeps its radius. -/
theorem extent (h : b.Reachable catalogue settings) :
    b.tiles.center = .origin ∧ b.tiles.radius = settings.grid.radius := by
  induction h with
  | new => exact ⟨rfl, rfl⟩
  | edit _ edited ih =>
    obtain ⟨hcenter, hradius⟩ := (Board.edited edited).extent
    exact ⟨hcenter.trans ih.1, hradius.trans ih.2⟩
  | prune _ ih => exact ih
  | request _ ih => exact ih
  | pass _ sink ih =>
    rw [(Fired.run _ sink).rest]
    exact ih
  | targets _ ts ih => exact ih
  | hearts _ t sites ih => exact ih

/-- A cell in bounds is within the radius of the settings. -/
theorem distance_le_of_inBounds (h : b.Reachable catalogue settings) {cell : Hex}
    (hin : b.inBounds cell = true) : (cell.distance .origin : Int) ≤ settings.grid.radius := by
  have hdistance := of_decide_eq_true hin
  rwa [h.extent.1, h.extent.2] at hdistance

/-- Every heart stands within the radius. -/
theorem distance_heart_le (h : b.Reachable catalogue settings) {v : Heart α}
    (hv : v ∈ b.hearts.values) : (v.position.distance .origin : Int) ≤ settings.grid.radius := by
  have htile := h.consistent.hearts.tile_of_mem hv
  rw [← Hex.mem_disc_iff, ← h.covered.2]
  exact List.mem_map_of_mem (Table.mem_entries_of_get? htile)

/-- **Whatever is done to a board, its tiles and its tables tell one story.** -/
theorem story (h : b.Reachable catalogue settings) : b.WellFormed := by
  refine h.consistent.toWellFormed h.covered.1 ?_
  rw [h.fixed.1]
  exact h.covered.2

/-- Every binding of a board with the built-in kinds is to a port of its node. -/
theorem wired (h : b.Reachable .builtin settings) : b.Wired := by
  induction h with
  | new => exact fun n hn => nomatch hn
  | edit h edited ih => exact ih.edit h.consistent h.fixed.2 edited
  | prune _ ih => exact ih.of_nodes rfl fun _ => exists_of_mem_prune
  | request _ ih => exact ih.of_nodes rfl fun _ => exists_of_mem_request
  | @pass b _ sink ih =>
    have hfired := Fired.run b sink
    exact ih.of_nodes (by rw [hfired.rest]) fun m hm => hfired.exists_of_mem hm
  | targets _ ts ih => exact ih.of_eq rfl rfl
  | hearts _ t sites ih => exact ih.of_eq rfl rfl

end Reachable

end Board

/-! ### Worlds -/

namespace World

open Board

variable [Scalar α] {catalogue : Catalogue} {settings : Settings α}

/-- A board that comes from an empty one leads to another that does. -/
def Onward (catalogue : Catalogue) (settings : Settings α) (w w' : World α) : Prop :=
  w.board.Reachable catalogue settings → w'.board.Reachable catalogue settings

namespace Onward

theorem refl (w : World α) : Onward catalogue settings w w := fun h => h

theorem trans {w w₁ w₂ : World α} (h : Onward catalogue settings w w₁)
    (h' : Onward catalogue settings w₁ w₂) : Onward catalogue settings w w₂ :=
  fun hw => h' (h hw)

theorem of_eq {w w' : World α} (h : w'.board = w.board) : Onward catalogue settings w w' :=
  fun hw => h ▸ hw

/-- The board was edited, or the edit was refused. -/
theorem edited {ε : Type} {w : World α} {x : Except ε (Board α)}
    (h : ∀ b, x = .ok b → ∃ e id, w.board.edit e = .ok (id, b)) :
    Onward catalogue settings w (w.edited x) := by
  intro hw
  cases x with
  | error _ => exact hw
  | ok b =>
    obtain ⟨e, id, he⟩ := h b rfl
    exact hw.edit he

theorem edited_map {ε β : Type} {w : World α} {x : Except ε (β × Board α)}
    (h : ∀ r, x = .ok r → ∃ e id, w.board.edit e = .ok (id, r.2)) :
    Onward catalogue settings w (w.edited (x.map (·.2))) := by
  refine edited fun b hb => ?_
  obtain ⟨r, hr, rfl⟩ := exists_of_map_eq_ok hb
  exact h r hr

end Onward

/-- **A request leads from a reachable board to a reachable one.** -/
theorem onward_perform (w : World α) (r : Request α) :
    Onward catalogue settings w (w.perform r) := by
  cases r with
  | placeNode cell kind =>
    exact .edited_map fun r h => ⟨.placeNode cell kind, some r.1.id, by rw [edit, h]; rfl⟩
  | removeNode id =>
    exact .edited_map fun r h => ⟨.removeNode id, none, by rw [edit, h]; rfl⟩
  | clearCell cell =>
    exact .edited_map fun r h => ⟨.clearCell cell, none, by rw [edit, h]; rfl⟩
  | placeHeart cell =>
    exact .edited_map fun r h => ⟨.placeHeart cell, some r.1.id, by rw [edit, h]; rfl⟩
  | placeTerrain cell health =>
    exact .edited_map fun r h => ⟨.placeTerrain cell health, some r.1.id, by rw [edit, h]; rfl⟩
  | bind id direction port =>
    exact .edited fun b h => ⟨.bind id direction port, none, by rw [edit, h]; rfl⟩
  | unbind id direction =>
    exact .edited fun b h => ⟨.unbind id direction, none, by rw [edit, h]; rfl⟩
  | setConstant id value =>
    exact .edited fun b h => ⟨.setConstant id value, none, by rw [edit, h]; rfl⟩
  | addTarget cell health path =>
    rw [perform]
    split
    · next h =>
      obtain ⟨_, -, h⟩ := exists_of_bind_eq_ok h
      obtain ⟨-, rfl⟩ := Prod.mk.inj (Except.ok.inj h)
      exact fun hw => hw.targets _
    · exact .refl w

/-! ### Frames -/

/-- Reaping leads from a board that comes from an empty one to another. -/
theorem onward_reap (w : World α) : Onward catalogue settings w w.reap := by
  intro hw
  rw [reap]
  dsimp only
  rw [board_emitAll]
  exact hw.edit (e := .reapDead) rfl

/-- Pruning leads onward, also where it is left out. -/
theorem onward_prune (w : World α) : Onward catalogue settings w w.prune := by
  intro hw
  rw [prune]
  split
  · exact hw.prune
  · exact hw

/-- The hearts that beat write the hearts and the targets, and ask the nodes. -/
theorem onward_beat (w : World α) (dt : α) : Onward catalogue settings w (w.beat dt).state := by
  intro hw
  have hhearts := hw.hearts
    ((w.board.hearts.mapValues (Heart.advance w.settings.heart dt)).mapValues (·.1)) (by
      rw [Table.mapValues_mapValues, Table.mapValues_mapValues]
      exact Table.mapValues_congr fun h _ => site_advance _ dt h)
  have hpulses (requested : Nat) (beating : List (Heart α)) {v : World α}
      (hv : v.board.Reachable catalogue settings) :
      (Progress.fold (pulse requested) beating v).state.board.Reachable catalogue settings :=
    Progress.fold_rel (R := Onward catalogue settings) .refl .trans
      (fun v h hv => hv.targets _) beating v hv
  rw [beat]
  dsimp only
  split
  · exact hhearts
  · refine hpulses _ _ (Reachable.request ?_)
    split
    · exact hhearts
    · exact hhearts

/-- A pass leads onward, wherever it stops. -/
theorem onward_activate (w : World α) : Onward catalogue settings w w.activate.state := by
  intro hw
  have hpass := hw.pass w.sink
  rw [activate]
  dsimp only
  split
  · exact hpass
  · exact (board_emitAll _ _).symm ▸ hpass

/-- Projecting is an edit, or it is refused. -/
theorem onward_project (w : World α) (cell : Hex) (source : Int) :
    Onward catalogue settings w (w.project cell source) := by
  intro hw
  rw [project]
  split
  · exact hw
  · next t b h =>
    have hedit : w.board.edit (.placeTerrain cell none) = .ok (some t.id, b) := by
      rw [edit, h]
      rfl
    exact hw.edit hedit

/-- An effect writes the targets or places terrain. -/
theorem onward_apply (w : World α) (e : Effect α) :
    Onward catalogue settings w (w.apply e).state := by
  intro hw
  unfold apply
  dsimp only
  split
  · split
    · exact hw
    · exact hw.targets _
  · exact onward_project _ _ _ hw
  · exact hw
  · cases InFlight.accept _ _ _ e with
    | error f => exact hw
    | ok inFlight => exact hw

/-- The effects of a pass lead onward one by one. -/
theorem onward_applyAll (w : World α) : Onward catalogue settings w w.applyAll.state :=
  Progress.fold_rel (R := Onward catalogue settings) .refl .trans onward_apply w.sink
    { w with sink := [] }

theorem onward_fly (w : World α) (dt : α) : Onward catalogue settings w (w.fly dt).state := by
  intro hw
  rw [fly]
  dsimp only
  split
  · exact hw.targets _
  · exact hw.targets _

/-- Biting writes the hearts, and none of them moves. -/
theorem onward_contact (w : World α) (dt : α) :
    Onward catalogue settings w (w.contact dt).state := by
  refine fun hw => hw.hearts _ (congrArg Table.mk (Progress.map_each (fun e => ?_) _))
  cases h : touch w.board (w.settings.heart.contactDamage * dt) e.2 with
  | error f => rfl
  | ok v => exact congrArg (e.1, ·) (touch_site h)

theorem onward_regenerate (w : World α) (dt : α) :
    Onward catalogue settings w (w.regenerate dt) := by
  intro hw
  rw [regenerate]
  split
  next regeneration heals _ =>
  split
  · refine hw.hearts _ ?_
    rw [Table.mapValues_mapValues]
    refine Table.mapValues_congr fun h _ => ?_
    rw [Heart.heal]
    split <;> rfl
  · exact hw

theorem onward_bury (w : World α) : Onward catalogue settings w w.bury := by
  intro hw
  rw [bury]
  dsimp only
  rw [board_emitAll]
  exact hw.targets _

/-- The stage of the targets leads onward, also where a fault stops it. -/
theorem onward_moveTargets (w : World α) (dt : α) :
    Onward catalogue settings w (w.moveTargets dt).state := by
  refine Progress.andThen_rel (R := Onward catalogue settings) .trans
    (fun hw => hw.targets _) fun w => ?_
  refine Progress.andThen_rel (R := Onward catalogue settings) .trans (w.onward_contact dt)
    fun w => ?_
  exact (w.onward_regenerate dt).trans (onward_bury _)

/-- **A frame leads from a reachable board to a reachable one, also where a fault stops it.** -/
theorem onward_step (w : World α) (dt : α) : Onward catalogue settings w (w.step dt).state := by
  have htick : Onward catalogue settings w (w.tick dt) := .of_eq rfl
  refine Progress.andThen_rel (R := Onward catalogue settings) .trans
    (htick.trans ((onward_reap _).trans ((onward_prune _).trans (onward_beat _ dt)))) fun w => ?_
  refine Progress.andThen_rel (R := Onward catalogue settings) .trans w.onward_activate fun w => ?_
  refine Progress.andThen_rel (R := Onward catalogue settings) .trans w.onward_applyAll fun w => ?_
  refine Progress.andThen_rel (R := Onward catalogue settings) .trans (w.onward_fly dt) fun w => ?_
  exact Progress.andThen_rel (R := Onward catalogue settings) .trans (w.onward_moveTargets dt)
    fun w => .of_eq rfl

end World

end HexPulse
