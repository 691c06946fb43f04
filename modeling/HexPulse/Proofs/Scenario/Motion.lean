import HexPulse.Proofs.Scenario.Legality
import HexPulse.Proofs.World.Motion
import HexPulse.Scenario.Build
import HexPulse.Scenario.Starter
import HexPulse.Settings.Intake

/-!
# HexPulse — Proofs — Scenario — Motion

The world that is made from a scenario, frame after frame.  Validation bounds the size of the cells
from below and the cells of hearts and targets; it bounds neither the size of the cells from above,
nor the paths of targets, nor the radius within which a beam arrives.  Where these are bounded as
well (`Settings.Modest`, `Scenario.Modest`), nothing that moves meets a fault.

* `Scenario.motion_faultless`: this holds in every frame.
* `Scenario.motion_halted`: a scenario whose path leads too far is accepted, and its first frame
  stops.
-/

namespace HexPulse

open Double

/-! ### Settings -/

section Reading

variable {α β : Type}

/-- What is read has passed the test. -/
theorem Intake.of_refusing {p : β → Bool} {kind : IssueKind} {read : Data α → Except IssueKind β}
    {d : Data α} {x : β} (h : refusing p kind read d = .ok x) : p x = false := by
  rw [refusing] at h
  split at h
  · split at h
    · cases h
    · next hgood =>
      obtain rfl := Except.ok.inj h
      exact Bool.eq_false_iff.mpr hgood
  · cases h

theorem Intake.value_optional {P : β → Prop} {default : β} {read : Data α → Except IssueKind β}
    (hdefault : P default) (h : ∀ d x, read d = .ok x → P x) (fields : List (String × Data α))
    (name : String) : P (optional fields name default read).value := by
  refine value_optionalWith hdefault (fun d => ?_) fields name
  cases hd : read d with
  | ok x => exact h d x hd
  | error kind => exact hdefault

/-- An integer that is read is at least the bound. -/
theorem Intake.le_of_integerFrom [Scalar α] {low n : Int} {d : Data α}
    (h : integerFrom low d = .ok n) : low ≤ n :=
  Int.not_lt.mp (of_decide_eq_false (of_refusing (p := fun n => decide (n < low)) h))

theorem Intake.lt_of_positive [Scalar α] {x : α} {d : Data α} (h : positive d = .ok x) :
    (0.0 : α) < x := by
  have hgood := of_refusing (p := fun x => !decide ((0.0 : α) < x)) h
  simpa using hgood

end Reading

/-- The radius and the size of the cells, as far as they are bounded by validation. -/
theorem GridSettings.bounds_read (d : Data Float) : 1 ≤ (GridSettings.read d).value.radius ∧
    (0.0 : Float) < (GridSettings.read d).value.hexSize := by
  refine Intake.value_record
    (P := fun g : GridSettings Float => 1 ≤ g.radius ∧ (0.0 : Float) < g.hexSize)
    (fun fields => ⟨?_, ?_⟩) d
  · exact Intake.value_optional (P := fun n : Int => 1 ≤ n) (by decide)
      (fun _ _ => Intake.le_of_integerFrom) fields "radius"
  · exact Intake.value_optional (P := fun x : Float => (0.0 : Float) < x) (by decide +kernel)
      (fun _ _ => Intake.lt_of_positive) fields "hex_size"

namespace Settings

/-- Settings that are accepted have a radius of one or more, and cells of some size. -/
theorem bounds_of_read {d : Data Float} {s : Settings Float} (h : (readData d).result = .ok s) :
    1 ≤ s.grid.radius ∧ (0.0 : Float) < s.grid.hexSize := by
  obtain ⟨-, rfl⟩ := Intake.result_eq_ok_iff.mp h
  refine Intake.value_record
    (P := fun s : Settings Float => 1 ≤ s.grid.radius ∧ (0.0 : Float) < s.grid.hexSize)
    (fun fields => ?_) d
  refine Intake.value_optionalWith
    (P := fun g : GridSettings Float => 1 ≤ g.radius ∧ (0.0 : Float) < g.hexSize) ?_
    GridSettings.bounds_read fields "grid"
  exact ⟨by decide, by decide +kernel⟩

/-- What validation leaves open: a board that can be walked, cells that are not too large, and a
radius of arrival that is not below zero. -/
structure Modest (s : Settings Float) : Prop where
  radius : s.grid.radius ≤ 2 ^ 61
  hexSize : s.grid.hexSize ≤ (1e150 : Float)
  arrival : (0.0 : Float) ≤ s.weapons.beamArrivalRadius

theorem Modest.exists_paced {s : Settings Float} (h : s.Modest)
    (hsize : (0.0 : Float) < s.grid.hexSize) : ∃ order, s.Paced order := by
  obtain ⟨order, hsized⟩ :=
    Layout.exists_sized (l := ⟨s.grid.hexSize⟩) hsize h.hexSize
  exact ⟨order, hsized, h.radius, h.arrival⟩

end Settings

/-! ### Building -/

namespace Board

variable {α : Type} [Scalar α] {catalogue : Catalogue} {settings : Settings α} {b c : Board α}

/-- The board comes from an empty one, and no target has appeared on it. -/
structure Bare (catalogue : Catalogue) (settings : Settings α) (b : Board α) : Prop where
  reachable : b.Reachable catalogue settings
  targets : b.targets = .empty

namespace Bare

/-- An edit of a bare board leaves it bare. -/
theorem edit (h : b.Bare catalogue settings) (e : Edit α) (id : Option Int)
    (edited : b.edit e = .ok (id, c)) : c.Bare catalogue settings :=
  ⟨h.reachable.edit edited, (Board.edited edited).targets.trans h.targets⟩

theorem buildHearts (h : b.Bare catalogue settings) {cells : List Hex}
    (e : Scenario.buildHearts b cells = .ok c) : c.Bare catalogue settings := by
  refine foldlM_rec (fun b cell _ c h e => ?_) h e
  obtain ⟨p, hplace, rfl⟩ := exists_of_map_eq_ok e
  exact h.edit (.placeHeart cell) (some p.1.id) (by rw [Board.edit, hplace]; rfl)

theorem buildTerrain (h : b.Bare catalogue settings) {cells : List Hex}
    (e : Scenario.buildTerrain b cells = .ok c) : c.Bare catalogue settings := by
  refine foldlM_rec (fun b cell _ c h e => ?_) h e
  obtain ⟨p, hplace, rfl⟩ := exists_of_map_eq_ok e
  exact h.edit (.placeTerrain cell none) (some p.1.id) (by rw [Board.edit, hplace]; rfl)

/-- A node is placed, wired and given its constant by edits. -/
theorem buildNode (h : b.Bare catalogue settings) {n : NodeSpec α} {id : Int}
    (e : Scenario.buildNode b n = .ok (id, c)) : c.Bare catalogue settings := by
  obtain ⟨⟨node, placed⟩, hplace, e⟩ := exists_of_bind_eq_ok e
  obtain ⟨bound, hbind, e⟩ := exists_of_bind_eq_ok e
  have hplaced : placed.Bare catalogue settings :=
    h.edit (.placeNode n.cell n.kind) (some node.id) (by rw [Board.edit, hplace]; rfl)
  have hbound : bound.Bare catalogue settings := by
    refine foldlM_rec (fun b binding _ c h e => ?_) hplaced hbind
    exact h.edit (.bind node.id binding.1 binding.2) none (by rw [Board.edit, e]; rfl)
  split at e
  · obtain ⟨-, rfl⟩ := Prod.mk.inj (Except.ok.inj e)
    exact hbound
  · next v _ =>
    obtain ⟨set, hset, e⟩ := exists_of_bind_eq_ok e
    obtain ⟨-, rfl⟩ := Prod.mk.inj (Except.ok.inj e)
    exact hbound.edit (.setConstant node.id (some v)) none (by rw [Board.edit, hset]; rfl)

theorem buildNodes (h : b.Bare catalogue settings) {nodes : List (NodeSpec α)}
    {ids ids' : Table String Int} (e : Scenario.buildNodes nodes b ids = .ok (c, ids')) :
    c.Bare catalogue settings := by
  induction nodes generalizing b ids with
  | nil =>
    obtain ⟨rfl, -⟩ := Prod.mk.inj (Except.ok.inj e)
    exact h
  | cons n nodes ih =>
    obtain ⟨⟨id, d⟩, hnode, e⟩ := exists_of_bind_eq_ok e
    exact ih (h.buildNode hnode) e

end Bare

end Board

namespace Scenario

variable {catalogue : Catalogue} {settings : Settings Float} {order : ℤ} {s : Scenario Float}
  {w w' : World Float}

/-- Paths that a list can hold, of cells that are not too far out. -/
def Modest (s : Scenario Float) : Prop :=
  ∀ t ∈ s.targets, t.path.length ≤ 2 ^ 63 ∧ ∀ c ∈ t.path, c.Modest

instance (s : Scenario Float) : Decidable s.Modest :=
  inferInstanceAs (Decidable (∀ t ∈ s.targets, _ ∧ ∀ c ∈ t.path, c.Modest))

/-- Targets that start within the radius, on modest paths, are within reach of them. -/
theorem steady_buildTargets (hs : settings.Paced order) (h : w.Steady catalogue settings order)
    (hcells : ∀ t ∈ s.targets, (t.cell.distance .origin : Int) ≤ settings.grid.radius)
    (hpaths : s.Modest) (e : buildTargets w s.targets = .ok w') :
    w'.Steady catalogue settings order := by
  refine foldlM_rec (fun w t ht w' h e => ?_) h e
  obtain ⟨⟨_, _⟩, hadded, rfl⟩ := exists_of_map_eq_ok e
  obtain ⟨⟨_, ts⟩, hadd, e⟩ := exists_of_bind_eq_ok hadded
  obtain ⟨rfl, rfl⟩ := Prod.mk.inj (Except.ok.inj e)
  have hclose : t.cell.Close := (hcells t ht).trans hs.radius
  obtain ⟨hshort, hpath⟩ := hpaths t ht
  exact ⟨h.reachable.targets ts, h.roam.addAt (h.sized hs) hclose.modest hshort hpath hadd⟩

/-- **A world that is built has its targets within reach of their paths.** -/
theorem steady_build (hs : settings.Paced order)
    (hcells : ∀ t ∈ s.targets, (t.cell.distance .origin : Int) ≤ settings.grid.radius)
    (hpaths : s.Modest) {draws : Draws Float} {built : Built Float}
    (h : build catalogue settings draws s = .ok built) :
    built.world.Steady catalogue settings order := by
  rw [build] at h
  split at h
  · cases h
  obtain ⟨b₁, hhearts, h⟩ := exists_of_bind_eq_ok h
  obtain ⟨b₂, hterrain, h⟩ := exists_of_bind_eq_ok h
  obtain ⟨⟨b₃, ids⟩, hnodes, h⟩ := exists_of_bind_eq_ok h
  obtain ⟨w, htargets, h⟩ := exists_of_bind_eq_ok h
  obtain rfl := Except.ok.inj h
  have hbare : b₃.Bare catalogue settings :=
    (((Board.Bare.mk .new rfl).buildHearts (of_mapError_eq_ok hhearts)).buildTerrain
      (of_mapError_eq_ok hterrain)).buildNodes (of_mapError_eq_ok hnodes)
  refine steady_buildTargets hs ⟨hbare.reachable, ?_⟩ hcells hpaths (of_mapError_eq_ok htargets)
  dsimp only
  rw [hbare.targets]
  exact .empty

/-- **Nothing that moves meets a fault**, in any frame of the world that is made from an accepted
scenario with accepted settings, if these are modest where validation leaves them open. -/
theorem motion_faultless {d d' : Data Float} {alphabet : Text.Alphabet} {draws : Draws Float}
    {built : Built Float} (hsettings : (Settings.readData d).result = .ok settings)
    (hmodest : settings.Modest)
    (hread : read ⟨Catalogue.builtin.contracts, settings.grid.radius⟩ alphabet d' = .ok s)
    (hpaths : s.Modest) (hbuild : build .builtin settings draws s = .ok built)
    (dts : List Float) (dt : Float) :
    let f : Frame Float := ⟨built.world.after dts, dt⟩
    (f.carried.fly dt).fault = none ∧ (f.flown.moveTargets dt).fault = none := by
  obtain ⟨hradius, hsize⟩ := Settings.bounds_of_read hsettings
  obtain ⟨order, hs⟩ := hmodest.exists_paced hsize
  have hcontracts : Catalogue.builtin.contracts.size ≠ 0 := by decide +kernel
  obtain ⟨hlegal, -⟩ := legal_of_read hcontracts hradius hread
  exact ((steady_build hs hlegal.targets hpaths hbuild).after hs dts).motion hs

/-- The starter scenario with the standard settings. -/
theorem motion_faultless_starter :
    (Settings.readData (.record [])).result = .ok (.standard : Settings Float) ∧
    (Settings.standard : Settings Float).Modest ∧ ∃ s : Scenario Float,
      read ⟨Catalogue.builtin.contracts, (Settings.standard : Settings Float).grid.radius⟩
        .characters starter = .ok s ∧ s.Modest ∧
      ∃ built, build .builtin .standard .none s = .ok built ∧ ∀ (dts : List Float) (dt : Float),
        let f : Frame Float := ⟨built.world.after dts, dt⟩
        (f.carried.fly dt).fault = none ∧ (f.flown.moveTargets dt).fault = none := by
  have hsettings : (Settings.readData (.record [])).result = .ok (.standard : Settings Float) := rfl
  have hmodest : (Settings.standard : Settings Float).Modest :=
    ⟨by decide, by decide +kernel, by decide +kernel⟩
  have hbuilt : ∃ s : Scenario Float,
      read ⟨Catalogue.builtin.contracts, (Settings.standard : Settings Float).grid.radius⟩
        .characters starter = .ok s ∧ s.Modest ∧
      ∃ built, build .builtin (.standard : Settings Float) .none s = .ok built ∧ True := by
    decide +kernel
  obtain ⟨s, hread, hpaths, built, hbuild, -⟩ := hbuilt
  exact ⟨hsettings, hmodest, s, hread, hpaths, built, hbuild,
    motion_faultless hsettings hmodest hread hpaths hbuild⟩

/-! ### What validation leaves open -/

/-- In a frame of the world that is made from accepted data, something that moves meets a fault;
the stages in front of it meet none. -/
def Halts (d d' : Data Float) (dts : List Float) (dt : Float) (e : Fault) : Prop :=
  ∃ settings, (Settings.readData d).result = .ok settings ∧
    ∃ s, read ⟨Catalogue.builtin.contracts, settings.grid.radius⟩ .characters d' = .ok s ∧
    ∃ built, build .builtin settings .none s = .ok built ∧
      let f : Frame Float := ⟨built.world.after dts, dt⟩
      (f.pruned.beat dt).fault = none ∧ f.asked.activate.fault = none ∧
        f.activated.applyAll.fault = none ∧
        ((f.carried.fly dt).fault = some e ∨ (f.flown.moveTargets dt).fault = some e)

instance (d d' : Data Float) (dts : List Float) (dt : Float) (e : Fault) :
    Decidable (Halts d d' dts dt e) :=
  inferInstanceAs (Decidable (∃ _, _ ∧ ∃ _, _ ∧ ∃ _, _ ∧ _ ∧ _ ∧ _ ∧ (_ ∨ _)))

/-- A target whose path leads to a cell that has no place among the doubles. -/
def astray : Data Float := .record [
  ("targets", .list [.record [
    ("q", .int 1), ("r", .int 0), ("path", .list [.pair (10 ^ 400) 0])]])]

/-- A beam and a target that stands still. -/
def aimed : Data Float := .record [
  ("hearts", .list [.record [("q", .int 1), ("r", .int (-1))]]),
  ("nodes", .list [
    starterNode "closest" "ClosestEntity" 0 (-1) [],
    starterNode "lazor" "Lazor" 0 0 (starterWiring "north" "target")]),
  ("targets", .list [.record [("q", .int 0), ("r", .int 3), ("health", .int 100)]])]

/-- A heart and a target two cells off. -/
def remote : Data Float := .record [
  ("hearts", .list [.record [("q", .int 0), ("r", .int 0)]]),
  ("targets", .list [.record [("q", .int 2), ("r", .int 0)]])]

/-- **Validation does not keep frames from faults.**  A cell on a path is too far out to be
converted; a beam whose radius of arrival is below zero divides by its distance when it is at its
target; and with cells that are too large, the place of a target cannot be rounded to a cell. -/
theorem motion_halted :
    Halts (.record []) astray [] 1.0 .integerTooLarge ∧
    Halts (.record [("weapons", .record [("beam_arrival_radius", .int (-1))])]) aimed [10.0, 1.0]
      1.0 .divisionByZero ∧
    Halts (.record [("grid", .record [("hex_size", .number 1e308)])]) remote [] 1.0
      .infinityToInteger := by
  decide +kernel

end Scenario

end HexPulse
