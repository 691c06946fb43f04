import HexPulse.Proofs.Target.Harm
import HexPulse.Proofs.Target.Motion

/-!
# HexPulse — Proofs — Target — Roaming

Targets within reach of their paths stay there (`Targets.Roam`), however they come, whatever strikes
them and wherever they walk; and nothing in flight meets a fault, as beams that are already at their
targets do not divide by the distance (`InFlight.fault_advance`).
-/

namespace HexPulse

open Double

variable {l : Layout Float} {order : ℤ} {ts us : Targets Float}

namespace Targets

/-- All targets are within reach of their paths. -/
def Roam (order : ℤ) (ts : Targets Float) : Prop := ∀ t ∈ ts.table.values, t.Roams order

namespace Roam

theorem empty : Roam order .empty := fun _ ht => absurd ht List.not_mem_nil

theorem damage (h : Roam order ts) (id : Int) (amount : Float) :
    Roam order (ts.damage id amount) := by
  intro t ht
  rcases Table.mem_values_modify ht with ht | ⟨u, hu, rfl⟩
  · exact h t ht
  · -- a blow takes health and nothing else
    obtain ⟨hwaypoint, hshort, hmodest, hnear⟩ := h u hu
    split
    · exact ⟨hwaypoint, hshort, hmodest, hnear⟩
    · exact ⟨hwaypoint, hshort, hmodest, hnear⟩

theorem reap (h : Roam order ts) : Roam order ts.reap := by
  intro t ht
  rw [values_reap] at ht
  exact h t (List.mem_of_mem_filter ht)

/-- A target that is added at the centre of a modest cell starts within reach. -/
theorem addAt (hts : Roam order ts) (h : l.Sized order) {cell : Hex} {path : List Hex}
    {health speed : Float} {t : Target Float} (hcell : cell.Modest) (hshort : path.length ≤ 2 ^ 63)
    (hpath : ∀ c ∈ path, c.Modest) (e : ts.addAt l cell health path speed = .ok (t, us)) :
    Roam order us := by
  obtain ⟨centre, hcentre, e⟩ := exists_of_bind_eq_ok e
  obtain ⟨-, rfl⟩ := Prod.mk.inj (Except.ok.inj e)
  obtain ⟨p, hp, hnear⟩ := h.centre hcell
  obtain rfl := Except.ok.inj (hcentre.symm.trans hp)
  have hreach : Layout.reach order = order + 505 := rfl
  intro u hu
  rcases Table.mem_values_insert hu with rfl | hu
  · exact ⟨le_rfl, hshort, hpath, hnear.mono (by omega)⟩
  · exact hts u hu

/-- Hearts let targets appear on cells of the board, and lead them along lines to themselves. -/
theorem roll (hts : Roam order ts) (h : l.Sized order) (s : SpawnSettings Float)
    {inBounds : Hex → Bool} {heart : Hex} (hcells : ∀ c, inBounds c = true → c.Close)
    (hheart : heart.Close) (draws : Draws Float) :
    Roam order (s.roll l inBounds heart ts draws).state.targets := by
  rw [SpawnSettings.roll]
  split
  · dsimp only
    split
    · exact hts
    · split
      · exact hts
      · refine Progress.ofExcept_rec (P := fun r : Roll Float => Roam order r.targets) hts
          fun roll hroll => ?_
        obtain ⟨path, hline, hroll⟩ := exists_of_bind_eq_ok hroll
        obtain ⟨⟨t, us⟩, hadd, hroll⟩ := exists_of_bind_eq_ok hroll
        obtain rfl := Except.ok.inj hroll
        -- whatever is drawn, the target starts on a cell of the board or on that of the heart
        have hcell : ∀ index,
            (((heart.ring s.spawnRing).filter inBounds).getD index heart).Close := by
          intro index
          rw [List.getD_eq_getElem?_getD]
          cases hc : ((heart.ring s.spawnRing).filter inBounds)[index]? with
          | none => exact hheart
          | some c => exact hcells c (List.mem_filter.mp (List.mem_of_getElem? hc)).2
        obtain ⟨hshort, hpath⟩ := Hex.line_spec (hcell _) hheart hline
        exact hts.addAt h (hcell _).modest hshort hpath hadd
  · exact hts

/-- **Walking meets no fault, and leads no target out of reach.** -/
theorem follow (hts : Roam order ts) (h : l.Sized order) (dt : Float) :
    (ts.follow l dt).fault = none ∧ Roam order (ts.follow l dt).state := by
  have heach := Progress.each_forall (P := fun e : Int × Target Float => e.2.Roams order)
    (f := fun e => if e.2.alive then (e.2.follow l dt).map (e.1, ·) else .done e)
    (show ∀ e ∈ ts.table.entries, _ from fun e he => by
      have ht : e.2.Roams order := hts e.2 (List.mem_map_of_mem he)
      split
      · exact ht.follow h dt
      · exact ⟨rfl, ht⟩)
  refine ⟨heach.1, fun t ht => ?_⟩
  obtain ⟨e, he, rfl⟩ := List.mem_map.mp ht
  exact heach.2 e he

/-- Every live target stands on some cell. -/
theorem exists_cells (hts : Roam order ts) (h : l.Sized order) :
    ∃ cells, ts.live.mapM (fun t => l.cellAt t.position) = .ok cells :=
  exists_mapM_eq_ok fun t ht => h.cellAt (hts t (List.mem_of_mem_filter ht)).near

end Roam

end Targets

/-! ### What is in flight -/

section Flight

variable {α : Type} [Scalar α] {P : Targets α → Prop} {ts : Targets α} {w : WeaponSettings α}

/-- What every single blow keeps, a hit keeps. -/
theorem Targets.hit_rec (blow : ∀ ts id amount, P ts → P (ts.damage id amount)) (hts : P ts)
    (center : Point α) (radius amount : α) : P (ts.hit w center radius amount).1 := by
  rw [hit]
  dsimp only
  generalize ts.within center (radius + w.targetRadius) = struck
  induction struck generalizing ts with
  | nil => exact hts
  | cons t struck ih => exact ih (blow ts t.id amount hts)

/-- What every single step keeps, the steps keep one after the other. -/
theorem Outcome.collect_rec {β : Type} {step : β → Targets α → Outcome α (Option β)}
    (h : ∀ x ts, P ts → P (step x ts).targets) (hts : P ts) (xs : List β) (dealt : α) :
    P (collect step xs ts dealt).targets := by
  induction xs generalizing ts dealt with
  | nil => exact hts
  | cons x xs ih => exact ih (h x ts hts) _

/-- What blows do not change, nothing in flight changes. -/
theorem InFlight.advance_rec (blow : ∀ ts id amount, P ts → P (ts.damage id amount)) (hts : P ts)
    (dt : α) (f : InFlight α) : P (f.advance w dt ts).state.targets := by
  refine Outcome.collect_rec (fun z ts hts => ?_)
    (Outcome.collect_rec (fun s ts hts => ?_)
      (Outcome.collect_rec (fun r ts hts => ?_) hts f.rockets _) f.strikes _) f.zones _
  · rw [Zone.advance]
    dsimp only
    split
    · exact Targets.hit_rec blow hts _ _ _
    · exact hts
  · rw [Strike.advance]
    dsimp only
    split
    · exact hts
    · exact Targets.hit_rec blow hts _ _ _
  · rw [Rocket.advance]
    dsimp only
    split
    · exact Targets.hit_rec blow hts _ _ _
    · exact Targets.hit_rec blow hts _ _ _

end Flight

variable {w : WeaponSettings Float}

/-- A beam that has arrived is not moved, so none is divided by a distance of zero. -/
theorem Visual.exists_advance (hw : (0.0 : Float) ≤ w.beamArrivalRadius) (dt : Float)
    (ts : Targets Float) (v : Visual Float) : ∃ e, v.advance w dt ts = .ok e := by
  cases v with
  | bolts remaining targets => exact ⟨_, rfl⟩
  | beam position target =>
    rw [advance]
    split
    · exact ⟨_, rfl⟩
    · next t _ =>
      dsimp only
      split
      · exact ⟨_, rfl⟩
      · next hfar =>
        have hne : ¬ (position.distance t.position == 0.0) = true := fun hzero =>
          hfar ((denotes_of_beq_zero hzero).le_of_zero_le hw)
        have hdivide (x : Float) : Scalar.divide x (position.distance t.position) =
            .ok (x / position.distance t.position) := if_neg hne
        rw [hdivide, hdivide]
        exact ⟨_, rfl⟩

/-- **Nothing in flight meets a fault.** -/
theorem InFlight.fault_advance (hw : (0.0 : Float) ≤ w.beamArrivalRadius) (dt : Float)
    (f : InFlight Float) (ts : Targets Float) : (f.advance w dt ts).fault = none := by
  have heach (ts : Targets Float) := Progress.each_forall (P := fun _ => True)
    (f := fun e : Visual Float × Bool => Progress.ofExcept e (e.1.advance w dt ts))
    (show ∀ e ∈ f.visuals.map fun v => (v, true), _ from fun e _ => by
      obtain ⟨e', he⟩ := e.1.exists_advance hw dt ts
      rw [he]
      exact ⟨rfl, trivial⟩)
  rw [advance]
  dsimp only [Progress.map]
  rw [Visual.advanceAll, (heach _).1]
  rfl

end HexPulse
