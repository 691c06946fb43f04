import HexPulse.Proofs.Board.Topology
import HexPulse.World

/-!
# HexPulse — Proofs — World — Stages

What the stages of a frame do to the board.  The stages behind the pass change the board without
pruning it or asking anything of its nodes, and leave the list of fired nodes alone (`Aside`); so a
frame is a reaping, a pruning, a request if a heart beats, one pass, and changes between them.

* `Frame.stages`: the boards that a frame without a fault goes through.
-/

namespace HexPulse

variable {α : Type}

namespace World

open Board

/-- From `w` to `w'` the board was changed, and nothing was pruned, requested or fired. -/
structure Aside (w w' : World α) : Prop where
  board : Changes w.board w'.board
  fired : w'.fired = w.fired

namespace Aside

theorem refl (w : World α) : Aside w w := ⟨.refl, rfl⟩

theorem trans {w w₁ w₂ : World α} (h : Aside w w₁) (h' : Aside w₁ w₂) : Aside w w₂ :=
  ⟨h.board.trans h'.board, h'.fired.trans h.fired⟩

theorem one {w w' : World α} (h : Change w.board w'.board) (hf : w'.fired = w.fired) : Aside w w' :=
  ⟨.single h, hf⟩

theorem of_eq {w w' : World α} (h : w'.board = w.board) (hf : w'.fired = w.fired) : Aside w w' :=
  ⟨h ▸ .refl, hf⟩

end Aside

theorem aside_emit (w : World α) (e : Event α) : Aside w (w.emit e) := .of_eq rfl rfl

@[simp] theorem board_emitAll (w : World α) (es : List (Event α)) :
    (w.emitAll es).board = w.board := by
  induction es generalizing w with
  | nil => rfl
  | cons e es ih => exact ih (w.emit e)

@[simp] theorem fired_emitAll (w : World α) (es : List (Event α)) :
    (w.emitAll es).fired = w.fired := by
  induction es generalizing w with
  | nil => rfl
  | cons e es ih => exact ih (w.emit e)

theorem aside_emitAll (w : World α) (es : List (Event α)) : Aside w (w.emitAll es) :=
  .of_eq (w.board_emitAll es) (w.fired_emitAll es)

theorem aside_withTargets (w : World α) (ts : Targets α) : Aside w (w.withTargets ts) :=
  .one (.targets ts) rfl

/-- Projecting places terrain, or leaves the world as it is. -/
theorem aside_project (w : World α) (cell : Hex) (source : Int) :
    Aside w (w.project cell source) := by
  rw [project]
  split
  · exact .refl w
  · next h => exact .one (.placeTerrain h) rfl

variable [Scalar α]

/-! ### The stages behind the pass -/

/-- A heart that beats may add a target, and does nothing else to the board. -/
theorem aside_pulse (requested : Nat) (w : World α) (h : Heart α) :
    Aside w (pulse requested w h).state := .one (.targets _) rfl

/-- An effect hits a target, places terrain or takes off; no node is touched. -/
theorem aside_apply (w : World α) (e : Effect α) : Aside w (w.apply e).state := by
  refine (w.aside_emit (.effect e)).trans ?_
  unfold apply
  dsimp only
  split
  · split
    · exact .refl _
    · exact .one (.targets _) rfl
  · exact aside_project _ _ _
  · exact .refl _
  · -- an effect that takes time does not touch the board
    cases InFlight.accept _ _ _ e with
    | error f => exact .refl _
    | ok inFlight => exact .of_eq rfl rfl

/-- The sink is emptied one effect after the other. -/
theorem aside_applyAll (w : World α) : Aside w w.applyAll.state := by
  have h : Aside { w with sink := [] } w.applyAll.state :=
    Progress.fold_rel .refl .trans aside_apply _ _
  exact ⟨h.board, h.fired⟩

/-- What is in flight changes the board through its targets only, whether or not it meets a fault.
-/
theorem aside_fly (w : World α) (dt : α) : Aside w (w.fly dt).state := by
  rw [fly]
  dsimp only
  split
  · exact .one (.targets _) rfl
  · exact .one (.targets _) rfl

/-- A heart that is touched keeps its id and its cell. -/
theorem touch_site {b : Board α} {amount : α} {h h' : Heart α} (e : touch b amount h = .ok h') :
    (h'.id, h'.position) = (h.id, h.position) := by
  obtain ⟨_, -, e⟩ := exists_of_bind_eq_ok e
  dsimp only at e
  split at e
  · rw [Except.ok.inj e]
  · obtain rfl := Except.ok.inj e
    rfl

/-- Targets that bite change the health of hearts, and not where they stand. -/
theorem aside_contact (w : World α) (dt : α) : Aside w (w.contact dt).state := by
  refine .one (.hearts _ (congrArg Table.mk (Progress.map_each (fun e => ?_) _))) rfl
  cases h : touch w.board (w.settings.heart.contactDamage * dt) e.2 with
  | error f => rfl
  | ok v => exact congrArg (e.1, ·) (touch_site h)

/-- Healing changes the health of hearts, and not where they stand. -/
theorem aside_regenerate (w : World α) (dt : α) : Aside w (w.regenerate dt) := by
  rw [regenerate]
  split
  next regeneration heals _ =>
  split
  · refine .one (.hearts _ ?_) rfl
    rw [Table.mapValues_mapValues]
    refine Table.mapValues_congr fun h _ => ?_
    rw [Heart.heal]
    split <;> rfl
  · exact .of_eq rfl rfl

theorem aside_bury (w : World α) : Aside w w.bury :=
  (w.aside_withTargets _).trans ((aside_emitAll _ _).trans (.of_eq rfl rfl))

/-- Targets walk, bite, let the hearts heal and are buried; none of it prunes or asks. -/
theorem aside_moveTargets (w : World α) (dt : α) : Aside w (w.moveTargets dt).state := by
  refine Progress.andThen_rel .trans (w.aside_withTargets _) fun w => ?_
  refine Progress.andThen_rel .trans (w.aside_contact dt) fun w => ?_
  exact (w.aside_regenerate dt).trans (aside_bury _)

/-! ### The stages before the pass -/

/-- Reaping clears the cells of the hearts that died. -/
theorem aside_reap (w : World α) : Aside w w.reap := by
  have h : Aside { w with board := w.board.reapDead.board } w.reap :=
    (aside_emitAll _ _).trans (.of_eq rfl rfl)
  exact ⟨(Changes.emptied w.board _).trans h.board, h.fired⟩

/-- Some heart beats in this frame. -/
def beats (w : World α) (dt : α) : Bool :=
  w.board.hearts.values.any fun h => (h.advance w.settings.heart dt).2

/-- The timer of a heart goes on where the heart stands. -/
theorem site_advance (s : HeartSettings α) (dt : α) (h : Heart α) :
    ((h.advance s dt).1.id, (h.advance s dt).1.position) = (h.id, h.position) := by
  rw [Heart.advance]
  dsimp only
  split
  · split <;> rfl
  · rfl

/-- The hearts that beat change a board one behind the other. -/
theorem changes_pulses (requested : Nat) (beating : List (Heart α)) (w : World α) {b : Board α}
    (hb : w.board = b) : Changes b (Progress.fold (pulse requested) beating w).state.board := by
  subst hb
  exact (Progress.fold_rel .refl .trans (aside_pulse requested) beating w).board

/-- Only the hearts change before the request of a beat, and only the targets behind it. -/
theorem beat_board (w : World α) (dt : α) : ∃ c, Change w.board c ∧ c.nodes = w.board.nodes ∧
    Changes (if w.beats dt then c.request else c) (w.beat dt).state.board := by
  let advanced := w.board.hearts.mapValues (Heart.advance w.settings.heart dt)
  -- `beat` looks at the list of the beating hearts, `beats` only asks whether there is one
  have hbeats : ((advanced.values.filter (·.2)).map (·.1)).isEmpty = !w.beats dt := by
    rw [Table.values_mapValues, beats, List.not_any_eq_all_not, Bool.eq_iff_iff]
    simp
  refine ⟨{ w.board with hearts := advanced.mapValues (·.1) }, .hearts _ ?_, rfl, ?_⟩
  · rw [Table.mapValues_mapValues, Table.mapValues_mapValues]
    exact Table.mapValues_congr fun h _ => site_advance _ dt h
  · rw [beat]
    dsimp only
    rw [hbeats]
    cases w.beats dt with
    | false => exact .refl
    | true =>
      rw [Bool.not_true, if_neg Bool.false_ne_true, if_pos rfl]
      split
      · exact changes_pulses _ _ _ rfl
      · exact changes_pulses _ _ _ rfl

/-- A pass without a fault is carried over to the world. -/
theorem activate_eq {w : World α} (h : w.activate.fault = none) :
    (Pass.run w.board w.sink).fault = none ∧
      w.activate.state.board = (Pass.run w.board w.sink).state.board ∧
      w.activate.state.fired = (Pass.run w.board w.sink).state.fired := by
  rw [activate] at h ⊢
  generalize Pass.run w.board w.sink = p at h ⊢
  obtain ⟨p, fault⟩ := p
  cases fault with
  | none => exact ⟨rfl, board_emitAll _ _, fired_emitAll _ _⟩
  | some f => cases h

end World

/-! ### Frames -/

/-- A frame: the world before it, and the time that it takes. -/
structure Frame (α : Type) where
  world : World α
  dt : α

namespace Frame

open Board

variable [Scalar α]

/-- The world after reaping and pruning, at the moment when the hearts beat. -/
def pruned (f : Frame α) : World α := (f.world.tick f.dt).reap.prune

/-- Some heart beats. -/
def beats (f : Frame α) : Bool := f.pruned.beats f.dt

/-- The world in which the ready nodes are told. -/
def asked (f : Frame α) : World α := (f.pruned.beat f.dt).state

/-- What became of the board in the pass. -/
def passed (f : Frame α) : Pass α := (Pass.run f.asked.board f.asked.sink).state

/-- The world after the frame. -/
def ended (f : Frame α) : World α := (f.world.step f.dt).state

/-- The nodes that fired. -/
def fired (f : Frame α) : List Int := f.ended.fired

/-- The boards that a frame goes through. -/
structure Stages (f : Frame α) : Prop where
  reap : Changes f.world.board (f.world.tick f.dt).reap.board
  beat : ∃ c, Change f.pruned.board c ∧ c.nodes = f.pruned.board.nodes ∧
    Changes (if f.beats then c.request else c) f.asked.board
  pass : (Pass.run f.asked.board f.asked.sink).fault = none
  rest : Changes f.passed.board f.ended.board
  fired : f.fired = f.passed.fired

/-- A frame without a fault, from its pass on. -/
theorem activate_aside {f : Frame α} (h : (f.world.step f.dt).fault = none) :
    f.asked.activate.fault = none ∧ World.Aside f.asked.activate.state f.ended := by
  -- the frame is a chain of stages, and none of them met a fault
  obtain ⟨-, hbeat⟩ := Progress.andThen_fault_eq_none h
  rw [ended, show f.world.step f.dt = _ from hbeat]
  rw [show f.world.step f.dt = _ from hbeat] at h
  obtain ⟨hpass, hrest⟩ := Progress.andThen_fault_eq_none h
  rw [hrest]
  refine ⟨hpass, ?_⟩
  refine Progress.andThen_rel (R := World.Aside) .trans (World.aside_applyAll _) fun w => ?_
  refine Progress.andThen_rel (R := World.Aside) .trans (w.aside_fly _) fun w => ?_
  exact Progress.andThen_rel (R := World.Aside) .trans (w.aside_moveTargets _) fun w =>
    w.aside_emit _

/-- **A frame without a fault goes through its stages.** -/
theorem stages {f : Frame α} (h : (f.world.step f.dt).fault = none) : f.Stages := by
  obtain ⟨hactivate, hrest⟩ := activate_aside h
  obtain ⟨hpass, hboard, hfired⟩ := World.activate_eq hactivate
  refine ⟨(f.world.tick f.dt).aside_reap.board, f.pruned.beat_board f.dt, hpass, ?_, ?_⟩
  · rw [passed, ← hboard]
    exact hrest.board
  · rw [fired, passed, hrest.fired, hfired]

namespace Stages

variable {f : Frame α}

/-- Reaping and pruning keep a board consistent. -/
theorem pruned_consistent (h : f.Stages) (hw : f.world.board.Consistent) :
    f.pruned.board.Consistent := by
  have hreap := h.reap.consistent hw
  rw [pruned, World.prune]
  split
  · exact hreap.prune
  · exact hreap

/-- The board on which the ready nodes are told is consistent. -/
theorem asked_consistent (h : f.Stages) (hw : f.world.board.Consistent) :
    f.asked.board.Consistent := by
  obtain ⟨c, hc, -, hrest⟩ := h.beat
  have hc := hc.consistent (h.pruned_consistent hw)
  refine hrest.consistent ?_
  split
  · exact hc.request
  · exact hc

theorem asked_keyed (h : f.Stages) (hw : f.world.board.Consistent) :
    f.asked.board.nodes.Keyed Node.id :=
  (h.asked_consistent hw).nodes.keyed

theorem passed_consistent (h : f.Stages) (hw : f.world.board.Consistent) :
    f.passed.board.Consistent := by
  rw [passed]
  exact Pass.consistent_run (h.asked_consistent hw) h.pass

/-- A frame keeps a board consistent. -/
theorem ended_consistent (h : f.Stages) (hw : f.world.board.Consistent) :
    f.ended.board.Consistent :=
  h.rest.consistent (h.passed_consistent hw)

end Stages

end Frame

end HexPulse
