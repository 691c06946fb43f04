import HexPulse.Proofs.Board.Reachable
import HexPulse.Proofs.Target.Roaming
import HexPulse.Proofs.World.Life

/-!
# HexPulse — Proofs — World — Motion

Worlds whose targets are within reach of their paths (`World.Steady`).  Every stage of a frame leads
from such a world to such a world, also where a fault stops it; and the stages in which things move,
`fly` and `moveTargets`, meet no fault in it (`World.Steady.motion`).
-/

namespace HexPulse

open Double

/-- The cells are of the order `2 ^ order`, the board is not too large to be walked, and a beam at
its target has arrived. -/
structure Settings.Paced (s : Settings Float) (order : ℤ) : Prop where
  sized : (Layout.mk s.grid.hexSize).Sized order
  radius : s.grid.radius ≤ 2 ^ 61
  arrival : (0.0 : Float) ≤ s.weapons.beamArrivalRadius

namespace World

open Board

/-- The world after some frames; one that a fault stops goes on where it stopped. -/
def after {α : Type} [Scalar α] (w : World α) (dts : List α) : World α :=
  dts.foldl (fun w dt => (w.step dt).state) w

variable {catalogue : Catalogue} {settings : Settings Float} {order : ℤ} {w : World Float}

/-- The board comes from an empty one, and its targets are within reach of their paths. -/
structure Steady (catalogue : Catalogue) (settings : Settings Float) (order : ℤ)
    (w : World Float) : Prop where
  reachable : w.board.Reachable catalogue settings
  roam : w.board.targets.Roam order

namespace Steady

/-! ### Stages that move no target -/

theorem tick (h : Steady catalogue settings order w) (dt : Float) :
    Steady catalogue settings order (w.tick dt) := ⟨h.reachable, h.roam⟩

/-- Reaping clears cells, and leaves the targets where they are. -/
theorem reap (h : Steady catalogue settings order w) : Steady catalogue settings order w.reap := by
  refine ⟨w.onward_reap h.reachable, ?_⟩
  rw [World.reap, emitAll_eq]
  exact (w.board.targets_foldl_emptied _).symm ▸ h.roam

theorem prune (h : Steady catalogue settings order w) :
    Steady catalogue settings order w.prune := by
  refine ⟨w.onward_prune h.reachable, ?_⟩
  rw [World.prune]
  split
  · exact h.roam
  · exact h.roam

/-- The pass touches no target, whether or not it meets a fault. -/
theorem activate (h : Steady catalogue settings order w) :
    Steady catalogue settings order w.activate.state := by
  have htargets : (Pass.run w.board w.sink).state.board.targets = w.board.targets := by
    rw [(Fired.run w.board w.sink).rest]
  refine ⟨w.onward_activate h.reachable, ?_⟩
  rw [World.activate]
  dsimp only
  split
  · exact htargets ▸ h.roam
  · rw [Progress.done_state, board_emitAll]
    exact htargets ▸ h.roam

theorem contact (h : Steady catalogue settings order w) (dt : Float) :
    Steady catalogue settings order (w.contact dt).state :=
  ⟨w.onward_contact dt h.reachable, h.roam⟩

theorem regenerate (h : Steady catalogue settings order w) (dt : Float) :
    Steady catalogue settings order (w.regenerate dt) := by
  refine ⟨w.onward_regenerate dt h.reachable, ?_⟩
  rw [World.regenerate]
  split
  split
  · exact h.roam
  · exact h.roam

theorem advanced (h : Steady catalogue settings order w) (dt : Float) :
    Steady catalogue settings order (w.advanced dt) := by
  refine ⟨h.reachable.hearts _ ?_, h.roam⟩
  rw [Table.mapValues_mapValues, Table.mapValues_mapValues]
  exact Table.mapValues_congr fun v _ => site_advance _ dt v

theorem calling (h : Steady catalogue settings order w) (dt : Float) :
    Steady catalogue settings order (w.calling dt) := by
  have hadvanced := h.advanced dt
  rw [World.calling]
  split
  · exact ⟨hadvanced.reachable.request, hadvanced.roam⟩
  · exact ⟨hadvanced.reachable.request, hadvanced.roam⟩

/-! ### Stages that strike, drop and add targets -/

theorem project (h : Steady catalogue settings order w) (cell : Hex) (source : Int) :
    Steady catalogue settings order (w.project cell source) := by
  refine ⟨w.onward_project cell source h.reachable, ?_⟩
  rw [World.project]
  split
  · exact h.roam
  · next hplace => exact (rest_of_placeTerrain hplace).2 ▸ h.roam

/-- An effect strikes targets where they are. -/
theorem apply (h : Steady catalogue settings order w) (e : Effect Float) :
    Steady catalogue settings order (w.apply e).state := by
  refine ⟨w.onward_apply e h.reachable, ?_⟩
  have hemit : Steady catalogue settings order (w.emit (.effect e)) := ⟨h.reachable, h.roam⟩
  unfold World.apply
  dsimp only
  split
  · split
    · exact h.roam
    · exact h.roam.damage _ _
  · exact (hemit.project _ _).roam
  · exact h.roam
  · cases InFlight.accept _ _ _ e with
    | error f => exact h.roam
    | ok inFlight => exact h.roam

theorem applyAll (h : Steady catalogue settings order w) :
    Steady catalogue settings order w.applyAll.state :=
  Progress.fold_rec (fun _ e _ h => h.apply e) (s := { w with sink := [] })
    ⟨h.reachable, h.roam⟩

/-- What is in flight strikes targets where they are, also where it meets a fault. -/
theorem fly (h : Steady catalogue settings order w) (dt : Float) :
    Steady catalogue settings order (w.fly dt).state := by
  refine ⟨w.onward_fly dt h.reachable, ?_⟩
  have hadvance := InFlight.advance_rec (P := Targets.Roam order) (w := w.settings.weapons)
    (fun _ id amount h => h.damage id amount) h.roam dt w.inFlight
  rw [World.fly]
  dsimp only
  split
  · exact hadvance
  · exact hadvance

/-- The targets that are left are where they were. -/
theorem bury (h : Steady catalogue settings order w) : Steady catalogue settings order w.bury := by
  refine ⟨w.onward_bury h.reachable, ?_⟩
  rw [World.bury, emitAll_eq]
  exact h.roam.reap

section Paced

variable (hs : settings.Paced order)
include hs

theorem sized (h : Steady catalogue settings order w) : w.board.layout.Sized order := by
  rw [layout, h.reachable.fixed.1]
  exact hs.sized

/-- A target that a heart calls appears within reach of its path. -/
theorem pulse (h : Steady catalogue settings order w) (requested : Nat) {v : Heart Float}
    (hv : v.position.Close) :
    Steady catalogue settings order (World.pulse requested w v).state := by
  refine ⟨h.reachable.targets _, h.roam.roll (h.sized hs) w.settings.spawn (fun c hc => ?_) hv _⟩
  exact (h.reachable.distance_le_of_inBounds hc).trans hs.radius

/-- Hearts that beat are hearts of the board. -/
theorem close_of_beating (h : Steady catalogue settings order w) {dt : Float} {v : Heart Float}
    (hv : v ∈ w.beating dt) : v.position.Close := by
  obtain ⟨p, hp, rfl⟩ := List.mem_map.mp hv
  obtain ⟨u, hu, rfl⟩ := List.mem_map.mp (List.mem_of_mem_filter hp)
  have hposition := congrArg Prod.snd (site_advance w.settings.heart dt u)
  dsimp only at hposition
  rw [hposition]
  exact (h.reachable.distance_heart_le hu).trans hs.radius

/-- The targets that hearts call in a beat appear within reach of their paths. -/
theorem beat (h : Steady catalogue settings order w) (dt : Float) :
    Steady catalogue settings order (w.beat dt).state := by
  rw [beat_eq]
  split
  · exact h.advanced dt
  · exact Progress.fold_rec (fun _ _ hv h' => h'.pulse hs _ (h.close_of_beating hs hv))
      (h.calling dt)

/-- Targets that follow their paths stay within reach of them. -/
theorem follow (h : Steady catalogue settings order w) (dt : Float) :
    Steady catalogue settings order
      (w.withTargets (w.board.targets.follow w.board.layout dt).state) :=
  ⟨h.reachable.targets _, (h.roam.follow (h.sized hs) dt).2⟩

/-- The stage in which targets walk and bite keeps them within reach of their paths. -/
theorem moveTargets (h : Steady catalogue settings order w) (dt : Float) :
    Steady catalogue settings order (w.moveTargets dt).state := by
  have hrest (w : World Float) (h : Steady catalogue settings order w) :
      Steady catalogue settings order
        ((w.contact dt).andThen fun w => .done (w.regenerate dt).bury).state :=
    Progress.andThen_rec (h.contact dt) fun _ h => (h.regenerate dt).bury
  exact Progress.andThen_rec (h.follow hs dt) hrest

/-- **A frame keeps targets within reach of their paths**, also where a fault stops it. -/
theorem step (h : Steady catalogue settings order w) (dt : Float) :
    Steady catalogue settings order (w.step dt).state := by
  refine Progress.andThen_rec ((h.tick dt).reap.prune.beat hs dt) fun w h => ?_
  refine Progress.andThen_rec h.activate fun w h => ?_
  refine Progress.andThen_rec h.applyAll fun w h => ?_
  refine Progress.andThen_rec (h.fly dt) fun w h => ?_
  exact Progress.andThen_rec (h.moveTargets hs dt) fun w h => ⟨h.reachable, h.roam⟩

/-! ### Faults -/

/-- What is in flight meets no fault: where a beam has not arrived yet, its way has a length. -/
theorem fault_fly (h : Steady catalogue settings order w) (dt : Float) :
    (w.fly dt).fault = none := by
  have harrival : (0.0 : Float) ≤ w.settings.weapons.beamArrivalRadius := by
    rw [World.settings, h.reachable.fixed.1]
    exact hs.arrival
  rw [World.fly, InFlight.fault_advance harrival]
  rfl

/-- Every target is in a cell, so that biting meets no fault. -/
theorem fault_contact (h : Steady catalogue settings order w) (dt : Float) :
    (w.contact dt).fault = none := by
  obtain ⟨cells, hcells⟩ := h.roam.exists_cells (h.sized hs)
  have htouch (amount : Float) (v : Heart Float) : ∃ v', touch w.board amount v = .ok v' := by
    rw [touch, hcells]
    dsimp only [Bind.bind, Except.bind]
    split
    · exact ⟨_, rfl⟩
    · exact ⟨_, rfl⟩
  refine (Progress.each_forall (P := fun _ => True) fun e _ => ?_).1
  obtain ⟨v, hv⟩ := htouch (w.settings.heart.contactDamage * dt) e.2
  rw [hv]
  exact ⟨rfl, trivial⟩

/-- Targets that walk and bite meet no fault. -/
theorem fault_moveTargets (h : Steady catalogue settings order w) (dt : Float) :
    (w.moveTargets dt).fault = none :=
  Progress.fault_andThen (h.roam.follow (h.sized hs) dt).1
    (Progress.fault_andThen ((h.follow hs dt).fault_contact hs dt) rfl)

/-- **Nothing that moves meets a fault** in a frame, however far the frame itself comes. -/
theorem motion {f : Frame Float} (h : Steady catalogue settings order f.world) :
    (f.carried.fly f.dt).fault = none ∧ (f.flown.moveTargets f.dt).fault = none := by
  have hasked : Steady catalogue settings order f.asked := (h.tick f.dt).reap.prune.beat hs f.dt
  have hcarried : Steady catalogue settings order f.carried := hasked.activate.applyAll
  exact ⟨hcarried.fault_fly hs f.dt, (hcarried.fly f.dt).fault_moveTargets hs f.dt⟩

/-- **Targets stay within reach of their paths**, for any number of frames. -/
theorem after (h : Steady catalogue settings order w) (dts : List Float) :
    Steady catalogue settings order (w.after dts) := by
  induction dts generalizing w with
  | nil => exact h
  | cons dt dts ih => exact ih (h.step hs dt)

end Paced

end Steady

end World

end HexPulse
