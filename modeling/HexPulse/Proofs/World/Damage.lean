import HexPulse.Proofs.World.Life

/-!
# HexPulse — Proofs — World — Damage

Is all damage counted?  Blows by effects are counted where the target was alive, those of rockets,
strikes and zones as they are dealt out.  With exact sums the damage of a life without blows from
outside is what its targets lost in health, whether they are still there or were dropped.

* `Life.damage_dealt`: all damage is counted, and nothing else.
-/

namespace HexPulse

open Scalar

variable {α : Type}

/-- In a list where no id comes twice, a member is found by its id. -/
theorem Target.find?_id {ts : List (Target α)} (h : (ts.map (·.id)).Nodup) {t : Target α}
    (ht : t ∈ ts) : ts.find? (fun u => u.id = t.id) = some t := by
  induction ts with
  | nil => cases ht
  | cons v ts ih =>
    obtain ⟨hnot, hnodup⟩ := List.nodup_cons.mp h
    rcases List.mem_cons.mp ht with rfl | ht
    · simp
    · have hne : v.id ≠ t.id := fun e => hnot (List.mem_map.mpr ⟨t, ht, e.symm⟩)
      rw [List.find?_cons_of_neg (by simpa using hne)]
      exact ih hnodup ht

/-- The target of an id as it is, or as it was when it was dropped. -/
def World.lastSeen (w : World α) (dropped : List (Target α)) (id : Int) : Option (Target α) :=
  (w.board.targets.table.values ++ dropped).find? fun t => t.id = id

namespace Life

variable [Scalar α] {w : World α} {deeds : List (Deed α)} {added dropped : List (Target α)}
  {catalogue : Catalogue} {settings : Settings α} {draws : Draws α}

/-- **All damage is counted, and nothing else.**  In every life of a new world without blows from
outside, the damage is the sum of the amounts that live targets were struck by; every target that
was added is there or was dropped; and where sums are exact, the damage is what all targets together
had when they were added, less what they have now or had when they were dropped. -/
theorem damage_dealt [Exact α] (h : Life (.new catalogue settings draws) deeds added dropped w)
    (hno : ∀ target amount, .blow target amount ∉ deeds) :
    (∃ struck, Targets.Turnover .empty added struck dropped w.board.targets ∧
      SumsTo struck w.damageDealt) ∧
    (∀ t ∈ added, ∃ u, w.lastSeen dropped t.id = some u ∧ u.individual = t.individual) ∧
    w.damageDealt =
      total (added.map fun t => t.health - ((w.lastSeen dropped t.id).getD t).health) := by
  have hperm := h.perm_added
  have hids : (added.map (·.id)).Perm ((w.board.targets.table.values ++ dropped).map (·.id)) := by
    have := hperm.map (·.1)
    rwa [List.map_map, List.map_map] at this
  have hseen : ∀ t ∈ w.board.targets.table.values ++ dropped,
      w.lastSeen dropped t.id = some t := fun t ht =>
    Target.find?_id (hids.nodup_iff.mp h.nodup_added) ht
  have hlast : ∀ t ∈ added, ∃ u, w.lastSeen dropped t.id = some u ∧
      u.individual = t.individual := by
    intro t ht
    obtain ⟨u, hu, e⟩ := List.mem_map.mp (hperm.mem_iff.mp (List.mem_map_of_mem ht))
    have hid : u.id = t.id := congrArg (·.1) e
    exact ⟨u, hid ▸ hseen u hu, e⟩
  obtain ⟨struck, ht, hsum⟩ := h.turnover (.new catalogue settings) .empty
  have hdealt : SumsTo struck w.damageDealt := hsum hno .zero
  refine ⟨⟨struck, ht, hdealt⟩, hlast, ?_⟩
  -- what the targets have now is the same sum, whether it goes by those added or by those seen
  have hnow : total (added.map fun t => ((w.lastSeen dropped t.id).getD t).health) =
      total ((w.board.targets.table.values ++ dropped).map (·.health)) := by
    let health (id : Int) : α := ((w.lastSeen dropped id).map (·.health)).getD 0.0
    have hadded : (added.map fun t => ((w.lastSeen dropped t.id).getD t).health) =
        (added.map (·.id)).map health := by
      rw [List.map_map]
      refine List.map_congr_left fun t ht => ?_
      obtain ⟨u, hu, -⟩ := hlast t ht
      simp [health, hu]
    have hall : (w.board.targets.table.values ++ dropped).map (·.health) =
        ((w.board.targets.table.values ++ dropped).map (·.id)).map health := by
      rw [List.map_map]
      refine List.map_congr_left fun t ht => ?_
      simp [health, hseen t ht]
    rw [hadded, hall]
    exact total_perm (hids.map health)
  have hhealth : total (added.map (·.health)) =
      total ((w.board.targets.table.values ++ dropped).map (·.health)) + total struck := by
    rw [List.map_append, total_append, ← ht.total_health .empty]
    exact (Exact.zero_add _).symm
  have htaken := total_sub_add (fun t : Target α => t.health)
    (fun t => ((w.lastSeen dropped t.id).getD t).health) added
  rw [hnow, hhealth, Exact.add_comm _ (total struck)] at htaken
  calc w.damageDealt
    _ = total struck := hdealt.eq_total
    _ = total struck + total ((w.board.targets.table.values ++ dropped).map (·.health)) -
          total ((w.board.targets.table.values ++ dropped).map (·.health)) :=
        (Exact.add_sub_cancel _ _).symm
    _ = total (added.map fun t => t.health - ((w.lastSeen dropped t.id).getD t).health) := by
        rw [← htaken, Exact.add_sub_cancel]

/-- A target that had ten is shot at with fifteen, and is dropped with five less than nothing. -/
theorem damage_dealt_duel : ∃ deeds added,
    Life (.new .builtin Duel.settings .none) deeds added (Duel.aim.dropped ++ Duel.shot.dropped)
      (Duel.shot : Frame ℚ).ended ∧
    (∀ target amount, .blow target amount ∉ deeds) ∧
    (Duel.shot : Frame ℚ).ended.damageDealt = 15.0 ∧
    (Duel.shot : Frame ℚ).dropped.map (·.health) = [-5.0] ∧
    (Duel.shot : Frame ℚ).ended.damageDealt = total (added.map fun t => t.health -
      (((Duel.shot : Frame ℚ).ended.lastSeen (Duel.aim.dropped ++ Duel.shot.dropped) t.id).getD
        t).health) := by
  obtain ⟨deeds, added, h, hno⟩ := Duel.life (α := ℚ)
  have haim := Life.frame (f := Duel.aim) h (by decide +kernel)
  have hshot := Life.frame (f := Duel.shot) haim (by decide +kernel)
  have hno' : ∀ target amount,
      .blow target amount ∉ Deed.frame Duel.shot.dt :: Deed.frame Duel.aim.dt :: deeds := by
    intro target amount hmem
    simp [hno] at hmem
  refine ⟨_, _, hshot, hno', by decide +kernel, by decide +kernel, (damage_dealt hshot hno').2.2⟩

end Life

end HexPulse
