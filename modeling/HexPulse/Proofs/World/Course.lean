import HexPulse.Proofs.World.Stages

/-!
# HexPulse — Proofs — World — Course

The course of a frame without a fault.  Behind `pruned` and `asked` it goes through five more
worlds: the pass (`activated`), the effects (`unloaded`, `carried`), what is in flight (`flown`), and
the targets (`walked`).  `Frame.course` says that each stage met no fault, and how the frame ends.

Nothing behind the pass touches a node or asks for an effect (`Leaves`): what fired ends the frame
in the state that the pass left it in (`Frame.Course.nodes_ended`).
-/

namespace HexPulse

variable {α : Type}

namespace World

/-- Events are appended to the journal under the number of the frame. -/
theorem emitAll_eq (w : World α) (es : List (Event α)) :
    w.emitAll es = { w with journal := w.journal ++ es.map (Entry.mk w.frame) } := by
  induction es generalizing w with
  | nil => simp [emitAll]
  | cons e es ih => exact (ih (w.emit e)).trans (by simp [emit])

/-- From `w` to `w'` no node changed, and nothing was asked for. -/
structure Leaves (w w' : World α) : Prop where
  nodes : w'.board.nodes = w.board.nodes
  sink : w'.sink = w.sink

namespace Leaves

theorem refl (w : World α) : Leaves w w := ⟨rfl, rfl⟩

theorem trans {w w₁ w₂ : World α} (h : Leaves w w₁) (h' : Leaves w₁ w₂) : Leaves w w₂ :=
  ⟨h'.nodes.trans h.nodes, h'.sink.trans h.sink⟩

end Leaves

theorem leaves_emitAll (w : World α) (es : List (Event α)) : Leaves w (w.emitAll es) := by
  rw [emitAll_eq]
  exact ⟨rfl, rfl⟩

theorem leaves_project (w : World α) (cell : Hex) (source : Int) :
    Leaves w (w.project cell source) := by
  rw [project]
  split
  · exact .refl w
  · next h => exact ⟨(Board.rest_of_placeTerrain h).1, rfl⟩

variable [Scalar α]

/-! ### The beat -/

/-- The world after the hearts moved on by some time. -/
def advanced (w : World α) (dt : α) : World α :=
  let hearts := (w.board.hearts.mapValues (Heart.advance w.settings.heart dt)).mapValues (·.1)
  { w with board := { w.board with hearts := hearts } }

/-- The hearts that beat within some time, as they are after it. -/
def beating (w : World α) (dt : α) : List (Heart α) :=
  ((w.board.hearts.values.map (Heart.advance w.settings.heart dt)).filter (·.2)).map (·.1)

/-- The world in which the first heart is reported to beat: all nodes are asked to fire, and those
that still waited are reported. -/
def calling (w : World α) (dt : α) : World α :=
  let w := if w.board.stalled.isEmpty then w.advanced dt
    else (w.advanced dt).emit (.nodesStalled w.board.stalled)
  { w with board := w.board.request }

/-- The beat in two cases: only the timers go on, or the nodes are asked and the hearts beat. -/
theorem beat_eq (w : World α) (dt : α) :
    w.beat dt = if (w.beating dt).isEmpty then .done (w.advanced dt)
      else Progress.fold (pulse w.board.requestCount) (w.beating dt) (w.calling dt) := by
  have hbeating : (((w.board.hearts.mapValues (Heart.advance w.settings.heart dt)).values.filter
      (·.2)).map (·.1)) = w.beating dt := by
    rw [Table.values_mapValues, beating]
  rw [beat]
  dsimp only
  rw [hbeating]
  by_cases hb : (w.beating dt).isEmpty = true
  · rw [if_pos hb, if_pos hb]
    rfl
  · rw [if_neg hb, if_neg hb]
    split
    · next hs =>
      rw [calling, if_pos (show w.board.stalled.isEmpty = true from hs)]
      rfl
    · next hs =>
      rw [calling, if_neg (show ¬ w.board.stalled.isEmpty = true from hs)]
      rfl

/-! ### Behind the pass -/

/-- An effect that is carried out touches no node, and asks for no other. -/
theorem leaves_apply (w : World α) (e : Effect α) : Leaves w (w.apply e).state := by
  have hemit : Leaves w (w.emit (.effect e)) := ⟨rfl, rfl⟩
  refine hemit.trans ?_
  unfold apply
  dsimp only
  split
  · split
    · exact .refl _
    · exact ⟨rfl, rfl⟩
  · exact leaves_project _ _ _
  · exact .refl _
  · cases InFlight.accept _ _ _ e with
    | error f => exact .refl _
    | ok inFlight => exact ⟨rfl, rfl⟩

/-- What is in flight changes at most targets, itself, and the damage. -/
theorem fly_state (w : World α) (dt : α) :
    ∃ ts inFlight dealt, (w.fly dt).state =
      { w with
        board := { w.board with targets := ts }
        inFlight := inFlight
        damageDealt := dealt } := by
  rw [fly]
  dsimp only
  split
  · exact ⟨_, _, _, rfl⟩
  · exact ⟨_, _, _, rfl⟩

theorem leaves_fly (w : World α) (dt : α) : Leaves w (w.fly dt).state := by
  obtain ⟨ts, inFlight, dealt, hfly⟩ := w.fly_state dt
  rw [hfly]
  exact ⟨rfl, rfl⟩

theorem leaves_regenerate (w : World α) (dt : α) : Leaves w (w.regenerate dt) := by
  rw [regenerate]
  split
  split
  · exact ⟨rfl, rfl⟩
  · exact ⟨rfl, rfl⟩

/-- The world after the targets walked and hurt hearts, and the hearts regenerated. -/
def walked (w : World α) (dt : α) : World α :=
  ((w.withTargets (w.board.targets.follow w.board.layout dt).state).contact dt).state.regenerate dt

/-- Where targets move without a fault, they walk and are then buried. -/
theorem moveTargets_eq {w : World α} {dt : α} (h : (w.moveTargets dt).fault = none) :
    (w.moveTargets dt).state = (w.walked dt).bury := by
  obtain ⟨-, e⟩ := Progress.andThen_fault_eq_none h
  rw [show w.moveTargets dt = _ from e] at h ⊢
  obtain ⟨-, e⟩ := Progress.andThen_fault_eq_none h
  rw [e]
  rfl

theorem leaves_walked (w : World α) (dt : α) : Leaves w (w.walked dt) := by
  have h := leaves_regenerate
    ((w.withTargets (w.board.targets.follow w.board.layout dt).state).contact dt).state dt
  exact ⟨h.nodes, h.sink⟩

theorem leaves_bury (w : World α) : Leaves w w.bury := by
  have h := leaves_emitAll (w.withTargets w.board.targets.reap)
    (w.board.targets.dead.map fun t => Event.targetKilled t.id)
  exact ⟨h.nodes, h.sink⟩

end World

namespace Frame

variable [Scalar α]

/-! ### The worlds of a frame -/

/-- The world after the pass. -/
def activated (f : Frame α) : World α := f.asked.activate.state

/-- The world in which the effects of the pass are carried out. -/
def unloaded (f : Frame α) : World α := { f.activated with sink := [] }

/-- The world after these effects. -/
def carried (f : Frame α) : World α := f.activated.applyAll.state

/-- The world after what is in flight moved. -/
def flown (f : Frame α) : World α := (f.carried.fly f.dt).state

/-- The world after the targets walked and hurt hearts, and the hearts regenerated. -/
def walked (f : Frame α) : World α := f.flown.walked f.dt

/-- The targets that are dropped at the end of the frame. -/
def dropped (f : Frame α) : List (Target α) := f.walked.board.targets.dead

/-- No stage of the frame meets a fault. -/
structure Course (f : Frame α) : Prop where
  beat : (f.pruned.beat f.dt).fault = none
  activate : f.asked.activate.fault = none
  carry : f.activated.applyAll.fault = none
  fly : (f.carried.fly f.dt).fault = none
  ended : f.ended = f.walked.bury.emit (.frame f.walked.bury.status)

/-- **A frame without a fault runs its course.** -/
theorem course {f : Frame α} (h : (f.world.step f.dt).fault = none) : f.Course := by
  have hstep : f.ended = (f.world.step f.dt).state := rfl
  obtain ⟨hbeat, e⟩ := Progress.andThen_fault_eq_none h
  rw [show f.world.step f.dt = _ from e] at h hstep
  obtain ⟨hactivate, e⟩ := Progress.andThen_fault_eq_none h
  rw [e] at h hstep
  obtain ⟨hcarry, e⟩ := Progress.andThen_fault_eq_none h
  rw [e] at h hstep
  obtain ⟨hfly, e⟩ := Progress.andThen_fault_eq_none h
  rw [e] at h hstep
  obtain ⟨hmove, e⟩ := Progress.andThen_fault_eq_none h
  rw [e, World.moveTargets_eq hmove] at hstep
  exact ⟨hbeat, hactivate, hcarry, hfly, hstep⟩

namespace Course

variable {f : Frame α}

/-- Behind the pass no node changes, and nothing is asked for. -/
theorem leaves_ended (h : f.Course) : World.Leaves f.unloaded f.ended := by
  have hcarried : World.Leaves f.unloaded f.carried :=
    Progress.fold_rel .refl .trans World.leaves_apply f.activated.sink f.unloaded
  have hflown : World.Leaves f.carried f.flown := World.leaves_fly f.carried f.dt
  have hwalked : World.Leaves f.flown f.walked := World.leaves_walked f.flown f.dt
  have hended : World.Leaves f.walked f.ended := by
    rw [h.ended]
    exact (World.leaves_bury _).trans ⟨rfl, rfl⟩
  exact hcarried.trans (hflown.trans (hwalked.trans hended))

/-- Behind the pass no node is touched: each ends the frame as the pass left it. -/
theorem nodes_ended (h : f.Course) : f.ended.board.nodes = f.passed.board.nodes := by
  calc f.ended.board.nodes
    _ = f.unloaded.board.nodes := h.leaves_ended.nodes
    _ = f.activated.board.nodes := by rw [unloaded]
    _ = f.passed.board.nodes := by rw [activated, passed, (World.activate_eq h.activate).2.1]

/-- A frame leaves no effect behind that was not carried out. -/
theorem sink_ended (h : f.Course) : f.ended.sink = [] := h.leaves_ended.sink

end Course

end Frame

end HexPulse
