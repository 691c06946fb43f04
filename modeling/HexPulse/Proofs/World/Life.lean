import HexPulse.Proofs.Board.History
import HexPulse.Proofs.Target.Harm
import HexPulse.Proofs.World.Journal

/-!
# HexPulse — Proofs — World — Life

The targets of a world as they come and go.  A life of a world takes requests, blows against
targets, and frames without a fault, in any order, and keeps the targets that were added and those
that were dropped (`Life`).  Targets are added by requests and where hearts beat, they are struck by
effects and by what is in flight, and every frame drops the dead ones at its end.

* `Frame.turns`: a frame is a turnover of the targets, and counts all damage that it deals.
* `Life.turnover`: so is a life, where blows from outside are not counted.
-/

namespace HexPulse

open Scalar

variable {α : Type}

namespace Board

/-- No target stands in the way of clearing a cell. -/
theorem targets_emptied (b : Board α) (cell : Hex) : (b.emptied cell).targets = b.targets := by
  rw [emptied]
  dsimp only
  split <;> rfl

theorem targets_foldl_emptied (b : Board α) (cells : List Hex) :
    (cells.foldl emptied b).targets = b.targets :=
  List.foldlRecOn (motive := fun c : Board α => c.targets = b.targets) cells _ rfl
    fun c hc cell _ => (c.targets_emptied cell).trans hc

end Board

namespace World

/-- What holds of a board, and of whatever an edit makes of it, holds behind the edit. -/
theorem edited_rec {ε : Type} {P : Board α → Prop} {w : World α} {e : Except ε (Board α)}
    (hw : P w.board) (h : ∀ b, e = .ok b → P b) : P (w.edited e).board := by
  cases e with
  | error _ => exact hw
  | ok b => exact h b rfl

/-- What holds of a board and of every board that an edit may return holds behind the edit. -/
theorem edited_map_rec {ε β : Type} {P : Board α → Prop} {w : World α}
    {e : Except ε (β × Board α)} (hw : P w.board) (h : ∀ x b, e = .ok (x, b) → P b) :
    P (w.edited (e.map (·.2))).board := by
  cases e with
  | error _ => exact hw
  | ok p => exact h p.1 p.2 rfl

end World

variable [Scalar α]

namespace World

/-- On the way from `w` to `w'` targets come and go, and all that live ones are struck by is counted
as damage. -/
def Turns (added dropped : List (Target α)) (w w' : World α) : Prop :=
  w.board.targets.Sound →
    ∃ struck, w.board.targets.Turnover added struck dropped w'.board.targets ∧
      ∀ {pre}, SumsTo pre w.damageDealt → SumsTo (pre ++ struck) w'.damageDealt

namespace Turns

variable {w w₁ w₂ : World α} {added added' dropped dropped' : List (Target α)}

theorem of_eq (targets : w₁.board.targets = w.board.targets)
    (dealt : w₁.damageDealt = w.damageDealt) : Turns [] [] w w₁ := by
  intro _
  refine ⟨[], targets ▸ .refl, fun h => ?_⟩
  rwa [dealt, List.append_nil]

theorem refl (w : World α) : Turns [] [] w w := of_eq rfl rfl

/-- Those who come and go in two stages, one behind the other. -/
theorem trans (h : Turns added dropped w w₁) (h' : Turns added' dropped' w₁ w₂) :
    Turns (added ++ added') (dropped ++ dropped') w w₂ := by
  intro hs
  obtain ⟨struck, ht, hsum⟩ := h hs
  obtain ⟨struck', ht', hsum'⟩ := h' (ht.sound hs)
  refine ⟨struck ++ struck', ht.trans ht', fun hpre => ?_⟩
  rw [← List.append_assoc]
  exact hsum' (hsum hpre)

/-- Targets that come and go, and are not struck. -/
theorem of_turnover (h : w.board.targets.Turnover added [] dropped w₁.board.targets)
    (dealt : w₁.damageDealt = w.damageDealt) : Turns added dropped w w₁ := by
  intro _
  refine ⟨[], h, fun hpre => ?_⟩
  rwa [dealt, List.append_nil]

end Turns

/-! ### The stages of a frame -/

/-- The target that appears when a heart beats. -/
def spawnedBy (w : World α) (h : Heart α) : Option (Target α) :=
  (w.settings.spawn.roll w.board.layout w.board.inBounds h.position w.board.targets
    w.draws).state.spawned

/-- A heart that beats adds the target that it calls, if it calls one. -/
theorem turns_pulse (requested : Nat) (w : World α) (h : Heart α) :
    Turns (w.spawnedBy h).toList [] w (pulse requested w h).state :=
  .of_turnover (Targets.turnover_roll w.settings.spawn w.board.layout w.board.inBounds h.position
    w.board.targets w.draws) rfl

theorem turns_calling (w : World α) (dt : α) : Turns [] [] w (w.calling dt) := by
  rw [calling]
  split
  · exact .of_eq rfl rfl
  · exact .of_eq rfl rfl

/-- The targets that appear around the hearts that beat. -/
def spawned (w : World α) (dt : α) : List (Target α) :=
  Progress.along (pulse w.board.requestCount) (fun w h => (w.spawnedBy h).toList) (w.beating dt)
    (w.calling dt)

/-- The beat adds the targets that its hearts call, and nobody goes. -/
theorem turns_beat {w : World α} {dt : α} (hf : (w.beat dt).fault = none) :
    Turns (w.spawned dt) [] w (w.beat dt).state := by
  rw [beat_eq] at hf ⊢
  rw [spawned]
  split
  · next hbeating =>
    rw [List.isEmpty_iff.mp hbeating]
    exact .of_eq rfl rfl
  · next hbeating =>
    rw [if_neg hbeating] at hf
    have h := Progress.fold_along (R := fun added w w' => Turns added [] w w')
      (P := fun _ => True) Turns.refl Turns.trans
      (fun _ _ _ => trivial) (fun w' h _ => turns_pulse w.board.requestCount w' h) trivial hf
    exact (w.turns_calling dt).trans h

/-- Nobody comes or goes by an effect; what it strikes is counted. -/
theorem turns_apply (w : World α) (e : Effect α) : Turns [] [] w (w.apply e).state := by
  unfold apply
  dsimp only
  split
  · next id amount =>
    split
    · exact .of_eq rfl rfl
    · next t live =>
      intro _
      exact ⟨[amount], Targets.Turnover.refl.strike live amount, fun h => h.add (.one amount)⟩
  · next cell source =>
    refine .of_eq ?_ ?_
    · rw [Progress.done_state, project]
      split
      · rfl
      · next h => exact (Board.rest_of_placeTerrain h).2
    · rw [Progress.done_state, project]
      split <;> rfl
  · exact .of_eq rfl rfl
  · cases InFlight.accept _ _ _ e with
    | error f => exact .of_eq rfl rfl
    | ok inFlight => exact .of_eq rfl rfl

theorem turns_applyAll (w : World α) : Turns [] [] w w.applyAll.state := by
  have h := Progress.fold_rel (R := Turns [] []) Turns.refl Turns.trans turns_apply w.sink
    { w with sink := [] }
  exact h

/-- What is in flight is counted, unless there is a fault, which loses the count. -/
theorem turns_fly {w : World α} {dt : α} (hf : (w.fly dt).fault = none) :
    Turns [] [] w (w.fly dt).state := by
  intro hs
  obtain ⟨struck, hturn, hsum⟩ := w.inFlight.harm_advance w.settings.weapons dt hs
  rw [fly] at hf ⊢
  dsimp only at hf ⊢
  split at hf
  · cases hf
  · exact ⟨struck, hturn, fun hpre => hpre.add hsum⟩

theorem turns_regenerate (w : World α) (dt : α) : Turns [] [] w (w.regenerate dt) := by
  rw [regenerate]
  split
  split
  · exact .of_eq rfl rfl
  · exact .of_eq rfl rfl

theorem turns_walked (w : World α) (dt : α) : Turns [] [] w (w.walked dt) := by
  have hfollow : Turns [] [] w (w.withTargets (w.board.targets.follow w.board.layout dt).state) :=
    .of_turnover (w.board.targets.turnover_follow w.board.layout dt) rfl
  have hcontact : Turns [] [] (w.withTargets (w.board.targets.follow w.board.layout dt).state)
      ((w.withTargets (w.board.targets.follow w.board.layout dt).state).contact dt).state :=
    .of_eq rfl rfl
  exact hfollow.trans (hcontact.trans (turns_regenerate _ dt))

/-- Exactly the dead are dropped. -/
theorem turns_bury (w : World α) : Turns [] w.board.targets.dead w w.bury := by
  refine .of_turnover ?_ ?_
  · rw [bury, emitAll_eq]
    exact Targets.Turnover.refl.reap
  · rw [bury, emitAll_eq]
    rfl

end World

/-! ### Frames -/

namespace Frame

/-- The targets that appear in the frame. -/
def spawned (f : Frame α) : List (Target α) := f.pruned.spawned f.dt

theorem turns_pruned (f : Frame α) : World.Turns [] [] f.world f.pruned := by
  have hreap : World.Turns [] [] f.world (f.world.tick f.dt).reap := by
    rw [World.reap, World.emitAll_eq]
    exact .of_eq (f.world.board.targets_foldl_emptied _) rfl
  have hprune : World.Turns [] [] (f.world.tick f.dt).reap f.pruned := by
    rw [pruned, World.prune]
    split
    · exact .of_eq rfl rfl
    · exact .refl _
  exact hreap.trans hprune

/-- Targets come where hearts beat. -/
theorem turns_asked {f : Frame α} (h : f.Course) : World.Turns f.spawned [] f.world f.asked := by
  have hbeat : World.Turns f.spawned [] f.pruned f.asked := World.turns_beat h.beat
  simpa only [List.nil_append] using f.turns_pruned.trans hbeat

/-- **The targets of a frame.**  They come where hearts beat, the dead ones go at the end, and all
that the live ones are struck by is counted. -/
theorem turns {f : Frame α} (h : (f.world.step f.dt).fault = none)
    (hw : f.world.board.Consistent) : World.Turns f.spawned f.dropped f.world f.ended := by
  have hs := stages h
  have hc := course h
  have hactivated : World.Turns [] [] f.asked f.activated := by
    refine .of_eq ?_ ?_
    · rw [hc.board_activated, (hs.alone hw).rest]
    · rw [activated, World.activate_state hc.activate]
  have hcarried : World.Turns [] [] f.activated f.carried := World.turns_applyAll f.activated
  have hflown : World.Turns [] [] f.carried f.flown := World.turns_fly hc.fly
  have hwalked : World.Turns [] [] f.flown f.walked := World.turns_walked f.flown f.dt
  have hended : World.Turns [] f.dropped f.walked f.ended := by
    have hemit : World.Turns [] [] f.walked.bury
        (f.walked.bury.emit (.frame f.walked.bury.status)) := .of_eq rfl rfl
    rw [hc.ended, dropped]
    simpa only [List.append_nil] using (World.turns_bury f.walked).trans hemit
  have hrest : World.Turns [] f.dropped f.asked f.ended :=
    hactivated.trans (hcarried.trans (hflown.trans (hwalked.trans hended)))
  simpa only [List.nil_append, List.append_nil] using (turns_asked hc).trans hrest

end Frame

/-! ### Requests -/

namespace World

/-- The target that a request adds. -/
def addedBy (w : World α) : Request α → List (Target α)
  | .addTarget cell health path =>
    match w.addTarget cell health path with
    | .ok (t, _) => [t]
    | .error _ => []
  | _ => []

theorem turnover_of_eq {ts us : Targets α} (h : us = ts) : ts.Turnover [] [] [] us := h ▸ .refl

/-- Only a request for a target adds one. -/
theorem turnover_perform (w : World α) (r : Request α) :
    w.board.targets.Turnover (w.addedBy r) [] [] (w.perform r).board.targets := by
  cases r with
  | placeNode cell kind =>
    exact turnover_of_eq (edited_map_rec (P := (·.targets = _)) rfl fun _ _ h =>
      Board.targets_of_placeNode h)
  | removeNode id =>
    refine turnover_of_eq (edited_map_rec (P := (·.targets = _)) rfl fun n c h => ?_)
    rw [Board.eq_emptied_of_removeNode h, Board.targets_emptied]
  | clearCell cell =>
    refine turnover_of_eq (edited_map_rec (P := (·.targets = _)) rfl fun t c h => ?_)
    rw [Board.eq_emptied_of_clearCell h, Board.targets_emptied]
  | placeHeart cell =>
    exact turnover_of_eq (edited_map_rec (P := (·.targets = _)) rfl fun _ _ h =>
      (Board.rest_of_placeHeart h).2)
  | placeTerrain cell health =>
    exact turnover_of_eq (edited_map_rec (P := (·.targets = _)) rfl fun _ _ h =>
      (Board.rest_of_placeTerrain h).2)
  | bind id direction port =>
    refine turnover_of_eq (edited_rec (P := (·.targets = _)) rfl fun c h => ?_)
    obtain ⟨i, f, rfl⟩ := Board.exists_updateNode_of_bind h
    rfl
  | unbind id direction =>
    refine turnover_of_eq (edited_rec (P := (·.targets = _)) rfl fun c h => ?_)
    obtain ⟨i, f, rfl⟩ := Board.exists_updateNode_of_unbind h
    rfl
  | setConstant id value =>
    refine turnover_of_eq (edited_rec (P := (·.targets = _)) rfl fun c h => ?_)
    obtain ⟨i, f, rfl⟩ := Board.exists_updateNode_of_setConstant h
    rfl
  | addTarget cell health path =>
    rw [perform, addedBy]
    cases h : w.addTarget cell health path with
    | error f => exact .refl
    | ok p =>
      obtain ⟨⟨t, ts⟩, hadd, h⟩ := exists_of_bind_eq_ok h
      obtain rfl := Except.ok.inj h
      exact Targets.turnover_addAt hadd

end World

/-! ### Lives -/

/-- What is done to a world: a request, a blow against a target, or a frame. -/
inductive Deed (α : Type) where
  | request (r : Request α)
  | blow (target : Int) (amount : α)
  | frame (dt : α)

/-- A life of a world: what was done to it, the last deed first, the targets that were added and
those that were dropped, the first ones first, and the world that came of it.  No frame meets a
fault. -/
inductive Life (w₀ : World α) :
    List (Deed α) → List (Target α) → List (Target α) → World α → Prop where
  | start : Life w₀ [] [] [] w₀
  | request {deeds : List (Deed α)} {added dropped : List (Target α)} {w : World α}
      (h : Life w₀ deeds added dropped w) (r : Request α) :
      Life w₀ (.request r :: deeds) (added ++ w.addedBy r) dropped (w.perform r)
  | blow {deeds : List (Deed α)} {added dropped : List (Target α)} {w : World α}
      (h : Life w₀ deeds added dropped w) (target : Int) (amount : α) :
      Life w₀ (.blow target amount :: deeds) added dropped
        (w.withTargets (w.board.targets.damage target amount))
  | frame {deeds : List (Deed α)} {added dropped : List (Target α)} {f : Frame α}
      (h : Life w₀ deeds added dropped f.world) (faultless : (f.world.step f.dt).fault = none) :
      Life w₀ (.frame f.dt :: deeds) (added ++ f.spawned) (dropped ++ f.dropped) f.ended

namespace Life

variable {w₀ w : World α} {deeds : List (Deed α)} {added dropped : List (Target α)}

/-- Tiles and tables agree all the time. -/
theorem consistent (h : Life w₀ deeds added dropped w) (h₀ : w₀.board.Consistent) :
    w.board.Consistent := by
  induction h with
  | start => exact h₀
  | request _ r ih => exact (World.aside_perform _ r).board.consistent ih
  | blow _ target amount ih => exact (World.aside_withTargets _ _).board.consistent ih
  | frame _ faultless ih => exact (Frame.stages faultless).ended_consistent ih

/-- **The targets of a life.**  Its targets turn over, and without blows from outside all that live
targets are struck by is counted as damage. -/
theorem turnover (h : Life w₀ deeds added dropped w) (h₀ : w₀.board.Consistent)
    (hs : w₀.board.targets.Sound) :
    ∃ struck, w₀.board.targets.Turnover added struck dropped w.board.targets ∧
      ((∀ target amount, .blow target amount ∉ deeds) →
        ∀ {pre}, SumsTo pre w₀.damageDealt → SumsTo (pre ++ struck) w.damageDealt) := by
  induction h with
  | start => exact ⟨[], .refl, fun _ _ h => (List.append_nil _).symm ▸ h⟩
  | @request deeds added dropped w h r ih =>
    obtain ⟨struck, ht, hsum⟩ := ih
    refine ⟨struck, ?_, fun hno => ?_⟩
    · simpa only [List.append_nil] using ht.trans (w.turnover_perform r)
    · rw [World.perform_eq]
      exact hsum fun id a ha => hno id a (List.mem_cons_of_mem _ ha)
  | @blow deeds added dropped w h id amount ih =>
    obtain ⟨struck, ht, -⟩ := ih
    -- a blow for an id under which nobody lives strikes nobody
    cases live : w.board.targets.get? id with
    | none =>
      refine ⟨struck, ?_, fun hno => absurd List.mem_cons_self (hno id amount)⟩
      rwa [(ht.sound hs).damage_eq_self live]
    | some t =>
      exact ⟨struck ++ [amount], ht.strike live amount,
        fun hno => absurd List.mem_cons_self (hno id amount)⟩
  | @frame deeds added dropped f h faultless ih =>
    obtain ⟨struck, ht, hsum⟩ := ih
    obtain ⟨struck', ht', hsum'⟩ := Frame.turns faultless (h.consistent h₀) (ht.sound hs)
    refine ⟨struck ++ struck', ht.trans ht', fun hno _ hpre => ?_⟩
    rw [← List.append_assoc]
    exact hsum' (hsum (fun id a ha => hno id a (List.mem_cons_of_mem _ ha)) hpre)

section New

variable {catalogue : Catalogue} {settings : Settings α} {draws : Draws α}

/-- The targets that were added are those that are there and those that were dropped. -/
theorem perm_added (h : Life (.new catalogue settings draws) deeds added dropped w) :
    (added.map Target.individual).Perm
      ((w.board.targets.table.values ++ dropped).map Target.individual) := by
  obtain ⟨struck, ht, -⟩ := h.turnover (.new catalogue settings) .empty
  exact ht.perm .empty

/-- The ids are one, two, three and so on. -/
theorem ids_added (h : Life (.new catalogue settings draws) deeds added dropped w) :
    added.map (·.id) = (List.range added.length).map fun k : Nat => 1 + (k : Int) := by
  obtain ⟨struck, ht, -⟩ := h.turnover (.new catalogue settings) .empty
  exact ht.ids_added

/-- No id is given to two targets. -/
theorem nodup_added (h : Life (.new catalogue settings draws) deeds added dropped w) :
    (added.map (·.id)).Nodup := by
  obtain ⟨struck, ht, -⟩ := h.turnover (.new catalogue settings) .empty
  exact ht.nodup_added

end New

/-- Requests one after the other. -/
theorem requests (h : Life w₀ deeds added dropped w)
    (hno : ∀ target amount, .blow target amount ∉ deeds) (rs : List (Request α)) :
    ∃ deeds' added', Life w₀ deeds' added' dropped (rs.foldl World.perform w) ∧
      ∀ target amount, .blow target amount ∉ deeds' := by
  induction rs generalizing deeds added w with
  | nil => exact ⟨deeds, added, h, hno⟩
  | cons r rs ih =>
    refine ih (h.request r) fun target amount hmem => ?_
    rcases List.mem_cons.mp hmem with e | hmem
    · cases e
    · exact hno target amount hmem

end Life

/-! ### A small life -/

namespace Duel

/-- The settings for a small board. -/
def settings : Settings α :=
  { Settings.standard with grid := { GridSettings.standard with radius := 2 } }

/-- A heart, a node that sees the closest target, a weapon that shoots at it, and a target. -/
def requests : List (Request α) := [
  .placeHeart ⟨0, 0⟩,
  .placeNode ⟨1, 0⟩ "ClosestEntity",
  .placeNode ⟨2, 0⟩ "Lazor",
  .bind 3 "north_west" "target",
  .addTarget ⟨0, 2⟩ (some 10.0) []]

/-- The world after these requests. -/
@[irreducible] def world : World α := requests.foldl World.perform (.new .builtin settings .none)

/-- The frame in which the heart beats and the target is seen. -/
def aim : Frame α := ⟨world, 10.0⟩

/-- The frame in which the weapon shoots. -/
def shot : Frame α := ⟨aim.ended, 0.5⟩

/-- The world of the duel comes from a new one, and nobody was struck from outside. -/
theorem life : ∃ deeds added, Life (.new .builtin settings .none) deeds added [] (world : World α) ∧
    ∀ target amount, .blow target amount ∉ deeds := by
  unfold world
  exact Life.start.requests (fun _ _ h => nomatch h) requests

end Duel

end HexPulse
