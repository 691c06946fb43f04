import HexPulse.Proofs.Evaluation.Ending
import HexPulse.Proofs.Evaluation.View
import HexPulse.Proofs.Outcome
import HexPulse.Proofs.Table
import HexPulse.Scalar.Double

/-!
# HexPulse — Proofs — Evaluation — Faults

When does an evaluation end in a fault?  Numbers that are not finite are refused before anything is
rounded, but a cell has three cube coordinates, and the third one, `-q - r`, may lie beyond all
finite numbers where `q` and `r` do not.

* `Hex.nearest_eq_ok_iff`: a fractional coordinate has a cell exactly if all three are finite.
* `Board.fault_iff`: on a board that can be surveyed, an evaluation ends in a fault exactly if it
  overshoots, whatever the neighbours hold.
-/

namespace HexPulse

/-! ### Rounding -/

/-- Exactly the finite doubles can be rounded to an integer. -/
theorem Double.round_eq_ok_iff {x : Float} : (∃ i, round x = .ok i) ↔ isFinite x = true := by
  rw [isFinite]
  cases h : Binary.ofFloat x <;> simp [round, h]

/-- **A fractional coordinate has a cell exactly if all three cube coordinates are finite.** -/
theorem Hex.nearest_eq_ok_iff {q r : Float} : (∃ c, nearest q r = .ok c) ↔
    Scalar.isFinite q = true ∧ Scalar.isFinite r = true ∧ Scalar.isFinite (-q - r) = true := by
  constructor
  · rintro ⟨c, h⟩
    obtain ⟨nq, hq, h⟩ := exists_of_bind_eq_ok h
    obtain ⟨nr, hr, h⟩ := exists_of_bind_eq_ok h
    obtain ⟨ns, hs, -⟩ := exists_of_bind_eq_ok h
    exact ⟨Double.round_eq_ok_iff.mp ⟨nq, hq⟩, Double.round_eq_ok_iff.mp ⟨nr, hr⟩,
      Double.round_eq_ok_iff.mp ⟨ns, hs⟩⟩
  · rintro ⟨hq, hr, hs⟩
    -- with three integers, one of three cells is chosen
    cases h : nearest q r with
    | ok c => exact ⟨c, rfl⟩
    | error f =>
      rcases of_bind_eq_error h with hq' | ⟨nq, -, h⟩
      · obtain ⟨_, hq⟩ := Double.round_eq_ok_iff.mpr hq
        cases hq.symm.trans hq'
      rcases of_bind_eq_error h with hr' | ⟨nr, -, h⟩
      · obtain ⟨_, hr⟩ := Double.round_eq_ok_iff.mpr hr
        cases hr.symm.trans hr'
      rcases of_bind_eq_error h with hs' | ⟨ns, -, h⟩
      · obtain ⟨_, hs⟩ := Double.round_eq_ok_iff.mpr hs
        cases hs.symm.trans hs'
      dsimp only at h
      split at h
      · cases h
      · split at h <;> cases h

/-- Where two coordinates are finite, a cell fails to exist only for the third one. -/
theorem Hex.nearest_eq_error_iff {q r : Float} (hq : Scalar.isFinite q = true)
    (hr : Scalar.isFinite r = true) :
    (∃ f, nearest q r = .error f) ↔ Scalar.isFinite (-q - r) = false := by
  have hok : (∃ c, nearest q r = .ok c) ↔ Scalar.isFinite (-q - r) = true := by
    rw [nearest_eq_ok_iff, hq, hr]
    simp
  rw [exists_error_iff, hok, Bool.not_eq_true]

namespace Board

/-- A vector that passes its check is finite. -/
theorem isFinite_of_readFiniteVector {α : Type} [Scalar α] {b : Board α} {n : Node α}
    {port : String} {v : α × α} (h : b.readFiniteVector n port = .ok v) :
    Scalar.isFinite v.1 = true ∧ Scalar.isFinite v.2 = true := by
  rw [readFiniteVector] at h
  split at h
  · cases h
  · split at h
    · next hfinite =>
      obtain rfl := Except.ok.inj h
      exact (Bool.and_eq_true _ _).mp hfinite
    · cases h

theorem isFinite_of_readFiniteNumber {α : Type} [Scalar α] {b : Board α} {n : Node α}
    {port : String} {x : α} (h : b.readFiniteNumber n port = .ok x) :
    Scalar.isFinite x = true := by
  rw [readFiniteNumber] at h
  split at h
  · cases h
  · split at h
    · next hfinite =>
      obtain rfl := Except.ok.inj h
      exact hfinite
    · cases h

theorem isFinite_of_readOptional {α : Type} [Scalar α] {b : Board α} {n : Node α} {port : String}
    {x : α} (h : readOptional readFiniteNumber b n port = .ok (some x)) :
    Scalar.isFinite x = true := by
  rw [readOptional] at h
  split at h
  · cases h
  · obtain ⟨y, hy, h⟩ := exists_of_map_eq_ok h
    obtain rfl := Option.some.inj h
    exact isFinite_of_readFiniteNumber hy

/-! ### Boards that can be surveyed -/

/-- The targets lie at finite fractional coordinates. -/
def Surveyable (b : Board Float) : Prop :=
  ∀ t ∈ b.targets.live, ∃ q r, b.layout.coordinates t.position = .ok (q, r) ∧
    Scalar.isFinite q = true ∧ Scalar.isFinite r = true

/-- The node goes beyond the range of the numbers.  Most often it rounds a finite coordinate
`(q, r)` to a cell, and `-q - r` is not finite: a target that it looks for is there, it aims there,
or it is charged and shoots there.  Else an integer is too large to be a number: a coordinate of its
own cell, of a waypoint or of the cell that it shoots at, or its charge. -/
inductive Overshoots (b : Board Float) (n : Node Float) : Prop where
  | sighting (kind : n.kind = .closestEntity ∨ n.kind = .nearbyEntities) {t : Target Float}
      (live : t ∈ b.targets.live) {q r : Float}
      (place : b.layout.coordinates t.position = .ok (q, r))
      (far : Scalar.isFinite (-q - r) = false)
  | lookout (kind : n.kind = .closestEntity ∨ n.kind = .nearbyEntities) {f : Fault}
      (origin : b.layout.centre n.position = .error f)
  | heading (kind : n.kind = .entityDirection) {id : Int}
      (target : b.readEntity n "target" = .ok id) {t : Target Float}
      (live : b.liveTarget id = .ok t) {f : Fault}
      (goal : t.nextWaypoint = .error f ∨
        ∃ c, t.nextWaypoint = .ok (some c) ∧ b.layout.centre c = .error f)
  | aim (kind : n.kind = .orbital ∨ n.kind = .projectTile) {q r : Float}
      (aim : b.readFiniteVector n "target" = .ok (q, r)) (far : Scalar.isFinite (-q - r) = false)
  | shot (kind : n.kind = .plasma) {q r limit : Float}
      (order : b.plasmaOrder n = .ok ((q, r), limit))
      (charged : Scalar.intLt (n.charge + 1) limit = false)
      (far : Scalar.isFinite (-q - r) = false ∨
        (∃ c f, Hex.nearest q r = .ok c ∧ b.layout.centre c = .error f) ∨
        ∃ f, (Scalar.convert (n.charge + 1) : Except Fault Float) = .error f)

/-- A node may halt for this cause: it is no fault, or the node overshoots. -/
def Blames (b : Board Float) (n : Node Float) (h : Halt) : Prop :=
  ∀ f, h = .fault f → b.Overshoots n

variable {b : Board Float} {n : Node Float}

theorem ends_read {β : Type} (r : Except PortError β) :
    Ends (fun v => r = .ok v) (b.Blames n) (Halt.ofReading r) :=
  .reading fun _ _ _ h => nomatch h

/-- A computation whose faults all come from an overshoot may halt for them. -/
theorem ends_compute {β : Type} {r : Except Fault β} (h : ∀ f, r = .error f → b.Overshoots n) :
    Ends (fun v => r = .ok v) (b.Blames n) (Halt.ofArithmetic r) :=
  .arithmetic fun f hf _ _ => h f hf

/-- A target that an aim names is alive. -/
theorem mem_live_of_liveTarget {id : Int} {t : Target Float} (h : b.liveTarget id = .ok t) :
    t ∈ b.targets.live := by
  rw [liveTarget] at h
  split at h
  · next ht =>
    obtain rfl := Except.ok.inj h
    rw [Targets.get?, Option.filter_eq_some_iff] at ht
    exact List.mem_filter.mpr ⟨Table.mem_values_of_get? ht.1, ht.2⟩
  · cases h

/-- A point at finite coordinates has no cell exactly where the third coordinate is not finite. -/
theorem cellAt_eq_error_iff {l : Layout Float} {p : Point Float} {q r : Float}
    (hp : l.coordinates p = .ok (q, r)) (hq : Scalar.isFinite q = true)
    (hr : Scalar.isFinite r = true) :
    (∃ f, l.cellAt p = .error f) ↔ Scalar.isFinite (-q - r) = false := by
  rw [Layout.cellAt, hp]
  exact Hex.nearest_eq_error_iff hq hr

/-- A survey of the targets fails exactly where the viewer has no place or a target no cell. -/
theorem inView_eq_error_iff (hs : b.Surveyable) {near : Nat → Bool} :
    (∃ f, b.inView n near = .error f) ↔ (∃ f, b.layout.centre n.position = .error f) ∨
      ∃ t ∈ b.targets.live, ∃ q r, b.layout.coordinates t.position = .ok (q, r) ∧
        Scalar.isFinite (-q - r) = false := by
  rw [inView_fails_iff]
  refine or_congr_right (exists_congr fun t => and_congr_right fun ht => ?_)
  obtain ⟨q, r, hp, hq, hr⟩ := hs t ht
  rw [cellAt_eq_error_iff hp hq hr]
  constructor
  · exact fun hfar => ⟨q, r, hp, hfar⟩
  · rintro ⟨q', r', hp', hfar⟩
    obtain ⟨rfl, rfl⟩ := Prod.mk.inj (Except.ok.inj (hp.symm.trans hp'))
    exact hfar

/-! ### Evaluations -/

/-- A node that rounds the vector behind its port. -/
theorem ends_aim (kind : n.kind = .orbital ∨ n.kind = .projectTile) {v : Float × Float}
    (hv : b.readFiniteVector n "target" = .ok v) :
    Ends (fun c => Hex.nearest v.1 v.2 = .ok c) (b.Blames n)
      (Halt.ofArithmetic (Hex.nearest v.1 v.2)) := by
  refine ends_compute fun f hf => ?_
  obtain ⟨hq, hr⟩ := isFinite_of_readFiniteVector hv
  exact .aim kind hv ((Hex.nearest_eq_error_iff hq hr).mp ⟨f, hf⟩)

/-- The aim of a plasma node is finite. -/
theorem isFinite_of_plasmaOrder {v : Float × Float} {limit : Float}
    (h : b.plasmaOrder n = .ok (v, limit)) :
    Scalar.isFinite v.1 = true ∧ Scalar.isFinite v.2 = true := by
  obtain ⟨aim, haim, h⟩ := exists_of_bind_eq_ok h
  obtain ⟨threshold, -, h⟩ := exists_of_bind_eq_ok h
  obtain ⟨rfl, -⟩ := Prod.mk.inj (Except.ok.inj h)
  exact isFinite_of_readFiniteVector haim

/-- A plasma node that meets a fault overshoots: its aim has no cell, the cell no centre, or its
charge is no number. -/
theorem ends_plasma (hk : n.kind = .plasma) :
    Ends (fun _ => True) (b.Blames n) (b.plasma n).result := by
  rw [plasma]
  split
  · exact fun _ h => nomatch h
  · next aim limit horder =>
    dsimp only
    split
    · trivial
    · next hcharged =>
      have hcharged : Scalar.intLt (n.charge + 1) limit = false := Bool.eq_false_iff.mpr hcharged
      obtain ⟨hq, hr⟩ := isFinite_of_plasmaOrder horder
      rw [plasmaShot]
      split
      · next f hf =>
        intro _ _
        rcases of_bind_eq_error hf with hf | ⟨c, hc, hf⟩
        · exact .shot hk horder hcharged (.inl ((Hex.nearest_eq_error_iff hq hr).mp ⟨f, hf⟩))
        · exact .shot hk horder hcharged (.inr (.inl ⟨c, f, hc, hf⟩))
      · dsimp only
        cases hx : (Scalar.convert (n.charge + 1) : Except Fault Float) with
        | error f => exact fun _ _ => .shot hk horder hcharged (.inr (.inr ⟨f, hx⟩))
        | ok x => trivial

/-- A node that looks where a target goes. -/
theorem ends_entityDirection (hk : n.kind = .entityDirection) :
    Ends (fun _ => True) (b.Blames n) (b.entityDirection n) := by
  refine (ends_read _).bind fun id hid => (ends_read _).bind fun t ht => ?_
  cases hw : t.nextWaypoint with
  | error f => exact fun _ _ => .heading hk hid ht (.inl hw)
  | ok w =>
    cases w with
    | none => trivial
    | some c =>
      show Ends _ _ (Halt.ofArithmetic (b.layout.centre c) >>= _)
      cases hp : b.layout.centre c with
      | error f => exact fun _ _ => .heading hk hid ht (.inr ⟨c, hw, hp⟩)
      | ok p => trivial

/-- **A node of any kind meets a fault only where it overshoots.** -/
theorem ends_evaluate (hs : b.Surveyable) :
    Ends (fun _ => True) (b.Blames n) (b.evaluate n).result := by
  have hview (kind : n.kind = .closestEntity ∨ n.kind = .nearbyEntities) {near : Nat → Bool} :
      Ends (fun _ => True) (b.Blames n) (Halt.ofArithmetic (b.inView n near)) := by
    refine (ends_compute fun f hf => ?_).mono (fun _ _ => trivial) fun _ h => h
    rcases (inView_eq_error_iff hs).mp ⟨f, hf⟩ with ⟨f, hf⟩ | ⟨t, ht, q, r, hp, hfar⟩
    · exact .lookout kind hf
    · exact .sighting kind ht hp hfar
  rw [evaluate]
  cases hk : n.kind with
  | constantNumber =>
    show Ends _ _ (constantNumber n)
    rw [constantNumber]
    split
    · trivial
    · exact fun _ h => nomatch h
  | closestEntity =>
    refine (hview (.inl hk)).bind fun found _ => ?_
    cases found with
    | nil => exact fun _ h => nomatch h
    | cons t ts => trivial
  | nearbyEntities => exact (hview (.inr hk)).bind fun _ _ => trivial
  | entityPosition =>
    refine (ends_read _).bind fun id _ => (ends_read _).bind fun t ht => ?_
    obtain ⟨q, r, hp, -⟩ := hs t (mem_live_of_liveTarget ht)
    rw [hp]
    trivial
  | entityDirection => exact ends_entityDirection hk
  | vectorCreate => exact (ends_read _).bind fun _ _ => (ends_read _).bind fun _ _ => trivial
  | vectorNegate => exact (ends_read _).bind fun _ _ => trivial
  | vectorLength => exact (ends_read _).bind fun _ _ => trivial
  | vectorMultiply => trivial
  | numberMultiply => trivial
  | numberSubtract => trivial
  | listConstruct => trivial
  | listLength => exact (ends_read _).bind fun _ _ => trivial
  | lazor =>
    exact .acting ((ends_read _).bind fun _ _ => (ends_read _).bind fun _ _ => trivial)
  | rocketLauncher =>
    refine .acting ((ends_read _).bind fun v _ => ?_)
    dsimp only
    split
    · trivial
    · exact fun _ h => nomatch h
  | orbital =>
    exact .acting ((ends_read _).bind fun v hv => (ends_aim (.inl hk) hv).bind fun _ _ => trivial)
  | plasma => exact ends_plasma hk
  | shock => exact .acting ((ends_read _).bind fun _ _ => trivial)
  | projectTile =>
    refine .acting ((ends_read _).bind fun v hv => (ends_aim (.inr hk) hv).bind fun c _ => ?_)
    split
    · exact fun _ h => nomatch h
    · trivial
    · exact fun _ h => nomatch h
  | storage =>
    refine (ends_read _).bind fun slot hslot => ?_
    have hread (port : String) :
        Ends (fun _ => True) (b.Blames n) (Halt.ofReading (b.read n port)) :=
      (ends_read _).mono (fun _ _ => trivial) fun _ h => h
    cases slot with
    | none => exact hread _
    | some x =>
      obtain ⟨i, hi⟩ := Double.round_eq_ok_iff.mpr (isFinite_of_readOptional hslot)
      show Ends _ _ (Halt.ofArithmetic (Scalar.round x) >>= _)
      rw [show Scalar.round x = .ok i from hi]
      exact hread _
  | debug => trivial

/-- A node that looks for targets and cannot survey them. -/
theorem exists_fault_of_inView (kind : n.kind = .closestEntity ∨ n.kind = .nearbyEntities)
    (hview : ∀ near : Nat → Bool, ∃ f, b.inView n near = .error f) :
    ∃ f, (b.evaluate n).result = .error (.fault f) := by
  rcases kind with hk | hk
  · obtain ⟨f, hf⟩ := hview fun d => (d : Int) ≤ b.settings.targeting.closestRange
    refine ⟨f, ?_⟩
    simp only [evaluate, hk, Evaluation.quiet, closestEntity, hf]
    rfl
  · obtain ⟨f, hf⟩ := hview fun d => Scalar.intLe d (b.viewRange n)
    refine ⟨f, ?_⟩
    simp only [evaluate, hk, Evaluation.quiet, nearbyEntities, hf]
    rfl

/-- Where a node overshoots, it does meet a fault. -/
theorem exists_fault_of_overshoots (hs : b.Surveyable) (h : b.Overshoots n) :
    ∃ f, (b.evaluate n).result = .error (.fault f) := by
  cases h with
  | sighting kind live place far =>
    exact exists_fault_of_inView kind fun _ =>
      (inView_eq_error_iff hs).mpr (.inr ⟨_, live, _, _, place, far⟩)
  | lookout kind origin =>
    exact exists_fault_of_inView kind fun _ => (inView_eq_error_iff hs).mpr (.inl ⟨_, origin⟩)
  | @heading kind id target t live f goal =>
    have hdirection : b.entityDirection n = .error (.fault f) := by
      rw [entityDirection, target]
      show (Halt.ofReading (b.liveTarget id) >>= _) = _
      rw [live]
      show (Halt.ofArithmetic t.nextWaypoint >>= _) = _
      rcases goal with hw | ⟨c, hw, hp⟩
      · rw [hw]
        rfl
      · rw [hw]
        show (Halt.ofArithmetic (b.layout.centre c) >>= _) = _
        rw [hp]
        rfl
    exact ⟨f, by simp only [evaluate, kind, hdirection, Evaluation.quiet]⟩
  | @aim kind q r aim far =>
    obtain ⟨hq, hr⟩ := isFinite_of_readFiniteVector aim
    obtain ⟨f, hf⟩ := (Hex.nearest_eq_error_iff hq hr).mpr far
    refine ⟨f, ?_⟩
    rcases kind with hk | hk
    · have horbital : b.orbital n = .error (.fault f) := by
        rw [orbital, aim]
        show (Halt.ofArithmetic (Hex.nearest q r) >>= _) = _
        rw [hf]
        rfl
      simp only [evaluate, hk, horbital, Evaluation.acting]
    · have hproject : b.projectTile n = .error (.fault f) := by
        rw [projectTile, aim]
        show (Halt.ofArithmetic (Hex.nearest q r) >>= _) = _
        rw [hf]
        rfl
      simp only [evaluate, hk, hproject, Evaluation.acting]
  | @shot kind q r limit order charged far =>
    have hplasma : b.evaluate n = b.plasmaShot (q, r) (n.charge + 1) := by
      simp only [evaluate, kind, plasma, order, charged, Bool.false_eq_true, if_false]
    rw [hplasma, plasmaShot]
    split
    · next f _ => exact ⟨f, rfl⟩
    · next center hcenter =>
      -- with a cell and its centre at hand, only the charge is left
      obtain ⟨c, hc, hcentre⟩ := exists_of_bind_eq_ok hcenter
      rcases far with far | ⟨c', f, hc', hf⟩ | ⟨f, hf⟩
      · obtain ⟨hq, hr⟩ := isFinite_of_plasmaOrder order
        obtain ⟨f, hf⟩ := (Hex.nearest_eq_error_iff hq hr).mpr far
        cases hf.symm.trans hc
      · obtain rfl := Except.ok.inj (hc.symm.trans hc')
        cases hf.symm.trans hcentre
      · refine ⟨f, ?_⟩
        dsimp only
        rw [hf]
        rfl

/-- **What an evaluation stumbles over.**  It ends in a fault exactly if the node overshoots. -/
theorem fault_iff (hs : b.Surveyable) :
    (∃ f, (b.evaluate n).result = .error (.fault f)) ↔ b.Overshoots n :=
  ⟨fun ⟨f, hf⟩ => (ends_evaluate hs).of_error hf f rfl, exists_fault_of_overshoots hs⟩

end Board

end HexPulse
