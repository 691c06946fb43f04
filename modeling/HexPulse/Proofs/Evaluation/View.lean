import HexPulse.Evaluation.Sensing
import HexPulse.Proofs.Outcome
import HexPulse.Proofs.Target.Turnover

/-!
# HexPulse — Proofs — Evaluation — View

What is in view of a node.  A view succeeds exactly where the viewer has a place and every live
target a cell, and then it is `Board.listed` (`Board.inView_eq_ok_iff`); who is listed is known
whatever the order makes of distances (`Board.listed_perm`).
-/

namespace HexPulse.Board

variable {α : Type} [Scalar α]

/-- The cell on which a target stands, if there is one. -/
def cellOf (b : Board α) (t : Target α) : Hex :=
  match b.layout.cellAt t.position with
  | .ok c => c
  | .error _ => .origin

/-- Where a target has a cell, that is the cell it is listed under. -/
theorem cellAt_eq_ok_iff {b : Board α} {t : Target α}
    (ht : ∃ c, b.layout.cellAt t.position = .ok c) {c : Hex} :
    b.layout.cellAt t.position = .ok c ↔ b.cellOf t = c := by
  obtain ⟨c', hc'⟩ := ht
  rw [cellOf, hc']
  exact ⟨Except.ok.inj, congrArg _⟩

/-- A target as it is seen from a point. -/
def sighting (b : Board α) (o : Point α) (t : Target α) : Sighting α :=
  ⟨t, b.cellOf t, o.distance t.position⟩

/-- The targets that are few enough cells away from a cell, the nearest to a point first. -/
def listed (b : Board α) (cell : Hex) (o : Point α) (near : Nat → Bool) : List (Target α) :=
  (((b.targets.live.map (b.sighting o)).filter fun s => near (cell.distance s.cell)).mergeSort
    Sighting.le).map (·.target)

variable {b : Board α} {n : Node α} {o : Point α} {near : Nat → Bool}

/-! ### The list -/

/-- Listing sorts the targets that are near, and drops none of them. -/
theorem listed_perm (b : Board α) (cell : Hex) (o : Point α) (near : Nat → Bool) :
    (b.listed cell o near).Perm
      (b.targets.live.filter fun t => near (cell.distance (b.cellOf t))) := by
  refine ((List.mergeSort_perm _ _).map _).trans (List.Perm.of_eq ?_)
  rw [List.filter_map, List.map_map]
  exact List.map_id _

/-- Listed are the live targets that are near. -/
theorem mem_listed {cell : Hex} {t : Target α} : t ∈ b.listed cell o near ↔
    t ∈ b.targets.live ∧ near (cell.distance (b.cellOf t)) = true := by
  rw [(b.listed_perm cell o near).mem_iff, List.mem_filter]

/-- Nobody is listed twice. -/
theorem nodup_ids_listed (hs : b.targets.Sound) (cell : Hex) (o : Point α) (near : Nat → Bool) :
    ((b.listed cell o near).map (·.id)).Nodup := by
  have hids : (b.targets.table.values.map (·.id)).Nodup := hs.keyed.keys_eq ▸ hs.keyed.nodup
  rw [((b.listed_perm cell o near).map _).nodup_iff]
  exact ((List.filter_sublist.trans List.filter_sublist).map _).nodup hids

/-- Boards with the same targets and the same layout list the same. -/
theorem listed_congr {b' : Board α} (htargets : b'.targets = b.targets)
    (hlayout : b'.layout = b.layout) (cell : Hex) (near : Nat → Bool) :
    b'.listed cell o near = b.listed cell o near := by
  have hsighting : b'.sighting o = b.sighting o := by
    funext t
    rw [sighting, sighting, cellOf, cellOf, hlayout]
  rw [listed, listed, htargets, hsighting]

/-! ### Views that succeed -/

/-- Where the viewer has a place and every live target a cell, the view is the list. -/
theorem inView_eq (hplace : b.layout.centre n.position = .ok o)
    (hcells : ∀ t ∈ b.targets.live, ∃ c, b.layout.cellAt t.position = .ok c) (near : Nat → Bool) :
    b.inView n near = .ok (b.listed n.position o near) := by
  have hsightings : b.sightings n = .ok (b.targets.live.map (b.sighting o)) := by
    rw [sightings, hplace]
    refine mapM_eq_map fun t ht => ?_
    rw [(cellAt_eq_ok_iff (hcells t ht)).mpr rfl]
    rfl
  rw [inView, hsightings]
  rfl

/-- **A view succeeds exactly where the viewer has a place and every live target a cell**, and then
it is the list. -/
theorem inView_eq_ok_iff {found : List (Target α)} : b.inView n near = .ok found ↔
    ∃ o, b.layout.centre n.position = .ok o ∧
      (∀ t ∈ b.targets.live, ∃ c, b.layout.cellAt t.position = .ok c) ∧
      b.listed n.position o near = found := by
  constructor
  · intro h
    obtain ⟨seen, hseen, -⟩ := exists_of_bind_eq_ok h
    obtain ⟨o, hplace, hseen⟩ := exists_of_bind_eq_ok hseen
    have hcells : ∀ t ∈ b.targets.live, ∃ c, b.layout.cellAt t.position = .ok c := by
      intro t ht
      obtain ⟨_, h⟩ := exists_of_mapM_eq_ok hseen t ht
      obtain ⟨c, hc, -⟩ := exists_of_bind_eq_ok h
      exact ⟨c, hc⟩
    exact ⟨o, hplace, hcells, Except.ok.inj ((inView_eq hplace hcells near).symm.trans h)⟩
  · rintro ⟨o, hplace, hcells, rfl⟩
    exact inView_eq hplace hcells near

/-- A view is found exactly if every live target has a cell. -/
theorem inView_ok_iff (hplace : b.layout.centre n.position = .ok o) :
    (∃ found, b.inView n near = .ok found) ↔
      ∀ t ∈ b.targets.live, ∃ c, b.layout.cellAt t.position = .ok c := by
  constructor
  · rintro ⟨found, h⟩
    obtain ⟨_, -, hcells, -⟩ := inView_eq_ok_iff.mp h
    exact hcells
  · exact fun hcells => ⟨_, inView_eq hplace hcells near⟩

/-- A view fails exactly where the viewer has no place or some live target no cell. -/
theorem inView_fails_iff : (∃ f, b.inView n near = .error f) ↔
    (∃ f, b.layout.centre n.position = .error f) ∨
      ∃ t ∈ b.targets.live, ∃ f, b.layout.cellAt t.position = .error f := by
  cases hplace : b.layout.centre n.position with
  | error f =>
    have hview : b.inView n near = .error f := by
      rw [inView, sightings, hplace]
      rfl
    exact ⟨fun _ => .inl ⟨f, rfl⟩, fun _ => ⟨f, hview⟩⟩
  | ok o =>
    have hnone : ¬ ∃ f, (Except.ok o : Except Fault (Point α)) = .error f := by
      rintro ⟨f, hf⟩
      cases hf
    simp only [exists_error_iff, inView_ok_iff hplace, hnone, false_or, not_forall, exists_prop]

/-- A view meets a fault exactly if some live target does. -/
theorem inView_fault_iff (hplace : b.layout.centre n.position = .ok o) :
    (∃ f, b.inView n near = .error f) ↔
      ∃ t ∈ b.targets.live, ∃ f, b.layout.cellAt t.position = .error f := by
  rw [inView_fails_iff, or_iff_right]
  rintro ⟨f, hf⟩
  cases hplace.symm.trans hf

end HexPulse.Board
