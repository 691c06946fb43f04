import HexPulse.Proofs.Evaluation.View
import HexPulse.Proofs.Scalar.Number
import Mathlib.Data.List.Sort
import Mathlib.Data.Prod.Lex

/-!
# HexPulse — Proofs — Evaluation — Sensing

What nodes see of the targets.  Who is in view goes by cells, and the order by distances in the
world.  Distances are numbers where the viewer and the targets have places (`Lookout.isNumber`), so
that no two targets have the same rank (`Lookout.rank_listed`), and those in view are listed in the
only order in which their ranks rise (`Lookout.listed_sublist`).

* `Board.Lookout.sensing`: what is listed within a range, that a smaller one takes from the list
  and does nothing else to it, and that the closest target is its head.
* `Board.Lookout.blind`: where the cells are so small that a target has none, nothing is listed.
-/

namespace HexPulse.Board

/-! ### Nearness and range -/

section Nearness

variable {α : Type} [Scalar α] {b : Board α} {o : Point α}

/-- The first target is nearer to a point than the second, or as near with a smaller id. -/
def Nearer (o : Point α) (t u : Target α) : Prop :=
  o.distance t.position < o.distance u.position ∨
    (o.distance t.position == o.distance u.position) = true ∧ t.id < u.id

/-- Sightings are sorted by how near their targets are. -/
theorem before_sighting_iff {t u : Target α} :
    (b.sighting o t).before (b.sighting o u) = true ↔ Nearer o t u := by
  rw [Sighting.before, Bool.or_eq_true, Bool.and_eq_true, decide_eq_true_iff, decide_eq_true_iff]
  rfl

/-- The range that a node asks for: the wired one if it can be read, else the default. -/
def askedRange (b : Board α) (n : Node α) : α :=
  match b.readNumber n "range" with
  | .ok x => x
  | .error _ => b.settings.targeting.nearbyDefaultRange

end Nearness

/-! ### Distances that are numbers -/

open Double

/-- A node that stands at a place in the world, on a board whose targets lie at finite points. -/
structure Lookout (b : Board Float) (n : Node Float) (o : Point Float) : Prop where
  sound : b.targets.Sound
  finite : ∀ t ∈ b.targets.live,
    Scalar.isFinite t.position.x = true ∧ Scalar.isFinite t.position.y = true
  place : b.layout.centre n.position = .ok o
  x : IsNumber o.x
  y : IsNumber o.y

/-- The extended number that a double stands for; anything where it stands for nothing. -/
noncomputable def worth (x : Float) : EReal := ((Binary.ofFloat x).extended?).getD ⊥

theorem stands_worth {x : Float} (h : IsNumber x) : Stands x (worth x) := by
  obtain ⟨v, hv⟩ := h
  rw [worth, hv]
  exact hv

/-- A distance and then an id. -/
noncomputable def rank (o : Point Float) (t : Target Float) : EReal ×ₗ Int :=
  toLex (worth (o.distance t.position), t.id)

namespace Lookout

variable {b : Board Float} {n : Node Float} {o : Point Float} (h : b.Lookout n o)
include h

/-- In a lookout every distance is a number. -/
theorem isNumber {t : Target Float} (ht : t ∈ b.targets.live) :
    IsNumber (o.distance t.position) :=
  isNumber_hypot (isNumber_sub (h.finite t ht).1 h.x) (isNumber_sub (h.finite t ht).2 h.y)

/-- The order of targets is that of their ranks. -/
theorem nearer_iff {t u : Target Float} (ht : t ∈ b.targets.live) (hu : u ∈ b.targets.live) :
    Nearer o t u ↔ rank o t < rank o u := by
  have hdt := stands_worth (h.isNumber ht)
  have hdu := stands_worth (h.isNumber hu)
  rw [Nearer, hdt.lt_iff hdu, hdt.beq_iff hdu, rank, rank, Prod.Lex.toLex_lt_toLex]

/-- The list is sorted by rank.  Sightings are compared by a distance that they carry, and the order
is only known to be one on those that carry a number. -/
theorem rank_listed_le (cell : Hex) (near : Nat → Bool) :
    (b.listed cell o near).Pairwise fun t u => rank o t ≤ rank o u := by
  have hseen : ∀ s ∈ (b.targets.live.map (b.sighting o)).filter fun s =>
      near (cell.distance s.cell), ∃ t ∈ b.targets.live, b.sighting o t = s :=
    fun s hs => List.mem_map.mp (List.mem_of_mem_filter hs)
  rw [listed]
  generalize ((b.targets.live.map (b.sighting o)).filter fun s => near (cell.distance s.cell)) = seen
    at hseen ⊢
  have hsort := List.map_mergeSort (r := Sighting.le) (l := seen)
    (s := fun p q => decide (p ≤ q)) (f := fun s => rank o s.target) fun s hs s' hs' => by
      obtain ⟨t, ht, rfl⟩ := hseen s hs
      obtain ⟨u, hu, rfl⟩ := hseen s' hs'
      rw [Bool.eq_iff_iff, Sighting.le, Bool.not_eq_true', ← Bool.not_eq_true,
        before_sighting_iff, h.nearer_iff hu ht, decide_eq_true_iff, not_lt]
      rfl
  have hsorted := List.pairwise_mergeSort' (· ≤ ·) (seen.map fun s => rank o s.target)
  rw [← hsort] at hsorted
  exact List.pairwise_map.mpr (List.pairwise_map.mp hsorted)

/-- No two targets have the same rank. -/
theorem rank_listed (cell : Hex) (near : Nat → Bool) :
    (b.listed cell o near).Pairwise fun t u => rank o t < rank o u := by
  have hids := List.pairwise_map.mp (nodup_ids_listed h.sound cell o near)
  refine (h.rank_listed_le cell near).imp₂ (fun t u hle hne => ?_) hids
  exact lt_of_le_of_ne hle fun heq => hne (congrArg (fun r => (ofLex r).2) heq)

/-- The targets that are listed go from near to far. -/
theorem ordered (cell : Hex) (near : Nat → Bool) :
    (b.listed cell o near).Pairwise (Nearer o) := by
  refine (h.rank_listed cell near).imp_of_mem fun ht hu hlt => ?_
  exact (h.nearer_iff (mem_listed.mp ht).1 (mem_listed.mp hu).1).mpr hlt

/-- Who is no longer in view leaves the list, and all others stay in their order. -/
theorem listed_sublist {cell : Hex} {near near' : Nat → Bool}
    (hnear : ∀ d, near d = true → near' d = true) :
    (b.listed cell o near).Sublist (b.listed cell o near') := by
  have hfilter : b.listed cell o near =
      (b.listed cell o near').filter fun t => near (cell.distance (b.cellOf t)) := by
    refine List.Perm.eq_of_pairwise (fun t u _ _ htu hut => absurd (htu.trans hut) (lt_irrefl _))
      (h.rank_listed cell near) ((h.rank_listed cell near').filter _) ?_
    refine (List.perm_ext_iff_of_nodup ?_ ?_).mpr fun t => ?_
    · exact (nodup_ids_listed h.sound cell o near).of_map _
    · exact ((nodup_ids_listed h.sound cell o near').of_map _).filter _
    · rw [List.mem_filter, mem_listed, mem_listed, and_assoc, and_congr_right_iff]
      exact fun _ => ⟨fun hd => ⟨hnear _ hd, hd⟩, fun hd => hd.2⟩
  rw [hfilter]
  exact List.filter_sublist

end Lookout

/-! ### The range -/

/-- The range of a node is the one it asks for, between zero and the greatest; one that is no number
counts as zero. -/
theorem exists_viewRange (b : Board Float) (n : Node Float) {m : EReal}
    (hm : Stands b.settings.targeting.nearbyMaxRange m) (hpos : 0 ≤ m) :
    ∃ v, Stands (b.viewRange n) v ∧ 0 ≤ v ∧ v ≤ m ∧
      (∀ a, Stands (b.askedRange n) a → v = max 0 (min a m)) ∧
      (¬ IsNumber (b.askedRange n) → v = 0) := by
  have hzero : Stands 0.0 0 := by simpa using denotes_zero.stands
  have hrange : b.viewRange n = Scalar.greater 0.0
      (Scalar.lesser (b.askedRange n) b.settings.targeting.nearbyMaxRange) := rfl
  rw [hrange]
  rcases stands_or (b.askedRange n) with ⟨a, ha⟩ | ha
  · refine ⟨_, hzero.greater (ha.lesser hm), le_max_left _ _, max_le hpos (min_le_right _ _), ?_,
      fun hnone => absurd ⟨a, ha⟩ hnone⟩
    intro a' ha'
    rw [ha.unique ha']
  · -- what is no number is less than nothing, and nothing is less than it
    rw [Scalar.lesser, if_neg (not_lt_of_notANumber ha _).1, Scalar.greater,
      if_neg (not_lt_of_notANumber ha _).1]
    refine ⟨0, hzero, le_rfl, hpos, fun a ha' => ?_, fun _ => rfl⟩
    exact absurd ha (isNumber_iff_unpack.mp ⟨a, ha'⟩)

/-! ### What nodes list -/

/-- What nodes list that are to see targets from a place, by the range of their view. -/
structure Surveys (b : Board Float) (n : Node Float) (o : Point Float)
    (found : Float → List (Target Float)) : Prop where
  mem : ∀ r v, Stands r v → ∀ t, t ∈ found r ↔ t ∈ b.targets.live ∧
    ∃ c, b.layout.cellAt t.position = .ok c ∧ extended (n.position.distance c : Nat) ≤ v
  once : ∀ r, ((found r).map (·.id)).Nodup
  ordered : ∀ r, (found r).Pairwise (Nearer o)
  nearby : ∀ (b' : Board Float) (n' : Node Float), b'.targets = b.targets → b'.layout = b.layout →
    n'.position = n.position →
      b'.nearbyEntities n' = .ok (.list ((found (b'.viewRange n')).map fun t => .entity t.id))
  lowered : ∀ r r', r ≤ r' → (found r).Sublist (found r')
  closest : ∀ r, Stands r (extended b.settings.targeting.closestRange) →
    b.closestEntity n = match found r with
      | [] => .error (.refused (.vanished "no entity in range"))
      | t :: _ => .ok (.entity t.id)

variable {b : Board Float} {n : Node Float} {o : Point Float}

/-- **From a lookout the targets in range are seen**, each once, the nearest first. -/
theorem Lookout.surveys (h : b.Lookout n o)
    (hcells : ∀ t ∈ b.targets.live, ∃ c, b.layout.cellAt t.position = .ok c) :
    Surveys b n o fun r => b.listed n.position o fun d => Scalar.intLe d r := by
  constructor
  case mem =>
    intro r v hr t
    rw [mem_listed, hr.intLe_iff]
    refine and_congr_right fun ht => ?_
    constructor
    · intro hd
      exact ⟨_, (cellAt_eq_ok_iff (hcells t ht)).mpr rfl, hd⟩
    · rintro ⟨c, hc, hd⟩
      rwa [(cellAt_eq_ok_iff (hcells t ht)).mp hc]
  case once => exact fun r => nodup_ids_listed h.sound _ _ _
  case ordered => exact fun r => h.ordered _ _
  case nearby =>
    intro b' n' htargets hlayout hposition
    have hview := inView_eq (b := b') (n := n') (o := o)
      (by rw [hlayout, hposition]; exact h.place) (by rw [htargets, hlayout]; exact hcells)
      fun d => Scalar.intLe d (b'.viewRange n')
    rw [listed_congr htargets hlayout, hposition] at hview
    rw [nearbyEntities, hview]
    rfl
  case lowered => exact fun r r' hle => h.listed_sublist fun d hd => intLe_of_le hd hle
  case closest =>
    intro r hr
    have hnear : (fun d : Nat => decide ((d : Int) ≤ b.settings.targeting.closestRange)) =
        fun d : Nat => Scalar.intLe d r := by
      funext d
      rw [Bool.eq_iff_iff, decide_eq_true_iff, hr.intLe_iff, EReal.coe_le_coe_iff, Int.cast_le]
    rw [closestEntity, inView_eq h.place hcells, hnear]
    cases b.listed n.position o fun d => Scalar.intLe d r <;> rfl

/-- **What nodes see.**  Let a node stand at a place on a board whose targets lie at finite points.
Nodes that look for targets there meet a fault exactly if some live target has no cell.  Otherwise
those are listed, once each and the nearest first, that live on cells within the range, which is the
range asked for between zero and the greatest; a smaller range takes some off the list and changes
nothing else; and the closest target is the head of the list for the range that is set for it, where
there is one. -/
theorem Lookout.sensing (h : b.Lookout n o) :
    ((∃ v, b.nearbyEntities n = .ok v) ↔
      ∀ t ∈ b.targets.live, ∃ c, b.layout.cellAt t.position = .ok c) ∧
    ((∃ f, b.nearbyEntities n = .error (.fault f)) ↔
      ∃ t ∈ b.targets.live, ∃ f, b.layout.cellAt t.position = .error f) ∧
    ((∃ f, b.closestEntity n = .error (.fault f)) ↔
      ∃ t ∈ b.targets.live, ∃ f, b.layout.cellAt t.position = .error f) ∧
    ((∀ t ∈ b.targets.live, ∃ c, b.layout.cellAt t.position = .ok c) →
      ∃ found, Surveys b n o found) ∧
    ∀ m, Stands b.settings.targeting.nearbyMaxRange m → 0 ≤ m →
      ∃ v, Stands (b.viewRange n) v ∧ 0 ≤ v ∧ v ≤ m ∧
        (∀ a, Stands (b.askedRange n) a → v = max 0 (min a m)) ∧
        (¬ IsNumber (b.askedRange n) → v = 0) := by
  -- both kinds look at one view: they meet its faults, and list what it finds
  have hnearby : b.nearbyEntities n = match b.inView n fun d => Scalar.intLe d (b.viewRange n) with
      | .ok found => .ok (.list (found.map fun t => .entity t.id))
      | .error f => .error (.fault f) := by
    rw [nearbyEntities]
    cases b.inView n fun d => Scalar.intLe d (b.viewRange n) <;> rfl
  have hclosest : b.closestEntity n = match b.inView n fun d =>
        (d : Int) ≤ b.settings.targeting.closestRange with
      | .ok [] => .error (.refused (.vanished "no entity in range"))
      | .ok (t :: _) => .ok (.entity t.id)
      | .error f => .error (.fault f) := by
    rw [closestEntity]
    cases b.inView n fun d => (d : Int) ≤ b.settings.targeting.closestRange with
    | error f => rfl
    | ok found => cases found <;> rfl
  refine ⟨?_, ?_, ?_, fun hcells => ⟨_, h.surveys hcells⟩, fun m => exists_viewRange b n⟩
  · rw [hnearby, ← inView_ok_iff h.place]
    cases b.inView n fun d => Scalar.intLe d (b.viewRange n) <;> simp
  · rw [hnearby, ← inView_fault_iff h.place]
    cases b.inView n fun d => Scalar.intLe d (b.viewRange n) <;> simp
  · rw [hclosest, ← inView_fault_iff h.place]
    cases b.inView n fun d => (d : Int) ≤ b.settings.targeting.closestRange with
    | error f => simp
    | ok found => cases found <;> simp

/-- Three live targets around the origin, and a dead one. -/
def watch : Board Float :=
  let ts : Targets Float := (Targets.empty.add ⟨60.0, 0.0⟩ 10.0 [] 1.0).2
  let ts := (ts.add ⟨0.0, 0.0⟩ 0.0 [] 1.0).2
  let ts := (ts.add ⟨0.0, -60.0⟩ 10.0 [] 1.0).2
  let ts := (ts.add ⟨1.0, 1.0⟩ 10.0 [] 1.0).2
  { Board.new .builtin .standard with targets := ts }

/-- Cells of a thousandth, on a board with a target that is far away. -/
def blinded : Board Float :=
  let settings : Settings Float := .standard
  let ts : Targets Float := (Targets.empty.add ⟨0.0, 0.0⟩ 10.0 [] 1.0).2
  let ts := (ts.add ⟨1e306, 0.0⟩ 10.0 [] 1.0).2
  { Board.new .builtin { settings with grid := { settings.grid with hexSize := 0.001 } } with
    targets := ts }

/-- A node at the origin that lists targets. -/
def viewer : Node Float := ⟨1, .origin, .nearbyEntities, .empty, .requested, 10.0, 0⟩

/-- Where targets are finite and the centre of the node is a place, there is a lookout. -/
theorem exists_lookout {b : Board Float} {n : Node Float} (hs : b.targets.Sound)
    (hfinite : ∀ t ∈ b.targets.live,
      Scalar.isFinite t.position.x = true ∧ Scalar.isFinite t.position.y = true)
    (hplace : ∃ o, b.layout.centre n.position = .ok o ∧ o.x.isNaN = false ∧ o.y.isNaN = false) :
    ∃ o, b.Lookout n o := by
  obtain ⟨o, ho, hx, hy⟩ := hplace
  exact ⟨o, hs, hfinite, ho, isNaN_eq_false_iff.mp hx, isNaN_eq_false_iff.mp hy⟩

/-- Two targets are as far from the node as each other, and one is at hand. -/
theorem Lookout.sensing_watch : ∃ o found, watch.Lookout viewer o ∧
    (∀ t ∈ watch.targets.live, ∃ c, watch.layout.cellAt t.position = .ok c) ∧
    Surveys watch viewer o found := by
  obtain ⟨o, h⟩ := exists_lookout (b := watch) (n := viewer)
    ((((Targets.Sound.empty.add _ _ _ _).add _ _ _ _).add _ _ _ _).add _ _ _ _)
    (by decide +kernel) (by decide +kernel)
  have hcells := (inView_ok_iff h.place).mp
    (exists_of_isOk (x := watch.inView viewer fun _ => true) (by decide +kernel))
  obtain ⟨found, hfound⟩ := h.sensing.2.2.2.1 hcells
  exact ⟨o, found, h, hcells, hfound⟩

/-- **Finite points do not make sure of cells.**  Where cells are small enough, the conversion of a
point overflows, and both kinds of nodes meet a fault. -/
theorem Lookout.blind : ∃ o, blinded.Lookout viewer o ∧
    blinded.nearbyEntities viewer = .error (.fault .infinityToInteger) ∧
    blinded.closestEntity viewer = .error (.fault .infinityToInteger) := by
  obtain ⟨o, h⟩ := exists_lookout (b := blinded) (n := viewer)
    ((Targets.Sound.empty.add _ _ _ _).add _ _ _ _) (by decide +kernel) (by decide +kernel)
  exact ⟨o, h, by decide +kernel, by decide +kernel⟩

end HexPulse.Board
