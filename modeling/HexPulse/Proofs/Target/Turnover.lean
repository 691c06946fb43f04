import HexPulse.Proofs.Outcome
import HexPulse.Proofs.Scalar.Exact
import HexPulse.Proofs.Table
import HexPulse.Target

/-!
# HexPulse — Proofs — Target — Turnover

What happens to the targets of a board: they are added, live ones are struck, they walk, and the
dead ones are reaped.  `Turnover added struck dropped ts ts'` tells what came, what was taken and
what went on the way from `ts` to `ts'`.

* `Turnover.ids_added`: the ids are issued one after the other.
* `Turnover.perm`: whatever stood there or came stands there or went, and has kept what makes it
  an individual.
* `Turnover.get?_eq_none`: who is gone stays gone.
* `Turnover.total_health`: what was there or came in health is there, went, or was struck off.
-/

namespace HexPulse

variable {α : Type}

namespace Target

/-- What a target never changes. -/
def individual (t : Target α) : Int × List Hex × α := (t.id, t.path, t.speed)

/-- What a target does not change by walking. -/
def still (t : Target α) : (Int × List Hex × α) × α := (t.individual, t.health)

variable [Scalar α]

/-- On its way a target changes neither its path nor its health. -/
theorem still_walk (l : Layout α) (rounds : Nat) (budget : α) (t : Target α) :
    (t.walk l rounds budget).state.still = t.still := by
  induction rounds generalizing budget t with
  | zero => rfl
  | succ rounds ih =>
    rw [walk]
    split
    · split
      · rfl
      · dsimp only
        split
        · exact ih _ _
        · exact ih _ _
    · rfl

/-- The target after a blow that is meant for an id. -/
def afterBlow (id : Int) (amount : α) (t : Target α) : Target α :=
  if t.id = id then if t.alive then { t with health := t.health - amount } else t else t

/-- A blow does not change who is struck. -/
@[simp] theorem individual_afterBlow (id : Int) (amount : α) (t : Target α) :
    (t.afterBlow id amount).individual = t.individual := by
  rw [afterBlow]
  split
  · split <;> rfl
  · rfl

theorem id_afterBlow (id : Int) (amount : α) (t : Target α) : (t.afterBlow id amount).id = t.id :=
  congrArg (·.1) (t.individual_afterBlow id amount)

/-- A blow that is meant for another does no harm. -/
theorem afterBlow_of_ne {id : Int} {t : Target α} (h : t.id ≠ id) (amount : α) :
    t.afterBlow id amount = t := if_neg h

theorem afterBlow_of_alive {t : Target α} (h : t.alive = true) (amount : α) :
    t.afterBlow t.id amount = { t with health := t.health - amount } := by
  rw [afterBlow, if_pos rfl, if_pos h]

theorem afterBlow_of_dead {t : Target α} (h : t.alive = false) (id : Int) (amount : α) :
    t.afterBlow id amount = t := by
  rw [afterBlow, h]
  split <;> rfl

end Target

namespace Targets

/-- Reaping keeps the live ones, in their order. -/
theorem values_reap [Scalar α] (ts : Targets α) :
    ts.reap.table.values = ts.table.values.filter Target.alive :=
  Table.values_filter Target.alive ts.table

/-- What does not change by walking can be told before it. -/
theorem map_of_still {ts us : Targets α} {β : Type}
    (still : us.table.mapValues Target.still = ts.table.mapValues Target.still)
    (g : (Int × List Hex × α) × α → β) :
    (us.table.values.map fun t => g t.still) = ts.table.values.map fun t => g t.still := by
  have h := congrArg (fun t => t.values.map g) still
  simpa only [Table.values_mapValues, List.map_map, Function.comp_def] using h

theorem exists_of_still {ts us : Targets α}
    (still : us.table.mapValues Target.still = ts.table.mapValues Target.still) {t : Target α}
    (ht : t ∈ us.table.values) : ∃ u ∈ ts.table.values, u.still = t.still := by
  have hmap : us.table.values.map Target.still = ts.table.values.map Target.still :=
    map_of_still still id
  have hmem : t.still ∈ us.table.values.map Target.still := List.mem_map_of_mem ht
  rw [hmap] at hmem
  exact List.mem_map.mp hmem

/-! ### Sound stores -/

/-- Every target stands under its own id, and its id was issued. -/
structure Sound (ts : Targets α) : Prop where
  keyed : ts.table.Keyed Target.id
  issued : ∀ t ∈ ts.table.values, t.id < ts.nextId

namespace Sound

variable {ts : Targets α}

theorem empty : (Targets.empty : Targets α).Sound :=
  ⟨.empty _, fun _ h => absurd h List.not_mem_nil⟩

theorem nextId_notMem (h : ts.Sound) : ts.nextId ∉ ts.table.keys := by
  rw [h.keyed.keys_eq, List.mem_map]
  rintro ⟨t, ht, e⟩
  have := h.issued t ht
  omega

/-- A target is added behind the others. -/
theorem values_add (h : ts.Sound) (position : Point α) (health : α) (path : List Hex) (speed : α) :
    (ts.add position health path speed).2.table.values =
      ts.table.values ++ [(ts.add position health path speed).1] :=
  Table.values_insert_of_notMem h.nextId_notMem _

theorem add (h : ts.Sound) (position : Point α) (health : α) (path : List Hex) (speed : α) :
    (ts.add position health path speed).2.Sound := by
  have hkeyed : (ts.add position health path speed).2.table.Keyed Target.id :=
    Table.Keyed.insert (v := (ts.add position health path speed).1) h.keyed
  refine ⟨hkeyed, fun t ht => ?_⟩
  rw [h.values_add, List.mem_append, List.mem_singleton] at ht
  rcases ht with ht | rfl
  · exact Int.lt_trans (h.issued t ht) (Int.lt_succ _)
  · exact Int.lt_succ _

/-- Whoever walked is there as before, but for the place. -/
theorem of_still (h : ts.Sound) {us : Targets α} (nextId : us.nextId = ts.nextId)
    (still : us.table.mapValues Target.still = ts.table.mapValues Target.still) : us.Sound := by
  refine ⟨?_, fun t ht => ?_⟩
  · have hkeyed : (us.table.mapValues Target.still).Keyed fun s => s.1.1 :=
      still ▸ h.keyed.mapValues fun _ _ => rfl
    exact hkeyed.of_mapValues
  · obtain ⟨u, hu, e⟩ := exists_of_still still ht
    have hid : u.id = t.id := congrArg (·.1.1) e
    rw [nextId, ← hid]
    exact h.issued u hu

variable [Scalar α]

/-- Only live targets are found by their id. -/
theorem get?_eq_some_iff (h : ts.Sound) {id : Int} {t : Target α} :
    ts.get? id = some t ↔ t ∈ ts.table.values ∧ t.id = id ∧ t.alive = true := by
  rw [get?, Option.filter_eq_some_iff, h.keyed.get?_eq_some_iff, and_assoc]

/-- Whoever is not found is dead or was never there. -/
theorem get?_eq_none_iff (h : ts.Sound) {id : Int} :
    ts.get? id = none ↔ ∀ t ∈ ts.table.values, t.id = id → t.alive = false := by
  rw [Option.eq_none_iff_forall_ne_some]
  refine ⟨fun hn t ht hid => ?_, fun hn t e => ?_⟩
  · rw [← Bool.not_eq_true]
    exact fun ha => hn t (h.get?_eq_some_iff.mpr ⟨ht, hid, ha⟩)
  · obtain ⟨ht, hid, ha⟩ := h.get?_eq_some_iff.mp e
    rw [hn t ht hid] at ha
    cases ha

/-- A blow changes at most the one for whom it is meant. -/
theorem table_damage (h : ts.Sound) (id : Int) (amount : α) :
    (ts.damage id amount).table = ts.table.mapValues (Target.afterBlow id amount) := by
  rw [damage, h.keyed.modify_eq_mapValues]
  rfl

/-- A blow is a change of one target, at most. -/
theorem values_damage (h : ts.Sound) (id : Int) (amount : α) :
    (ts.damage id amount).table.values = ts.table.values.map (Target.afterBlow id amount) := by
  rw [h.table_damage, Table.values_mapValues]

/-- A blow for an id under which nobody lives changes nothing. -/
theorem damage_eq_self (h : ts.Sound) {id : Int} (hid : ts.get? id = none) (amount : α) :
    ts.damage id amount = ts := by
  have htable : (ts.damage id amount).table = ts.table := by
    rw [h.table_damage]
    refine Table.mapValues_eq_self fun t ht => ?_
    by_cases e : t.id = id
    · exact Target.afterBlow_of_dead (h.get?_eq_none_iff.mp hid t ht e) id amount
    · exact Target.afterBlow_of_ne e amount
  exact congrArg (fun t => ({ ts with table := t } : Targets α)) htable

theorem damage (h : ts.Sound) (id : Int) (amount : α) : (ts.damage id amount).Sound := by
  refine ⟨?_, fun t ht => ?_⟩
  · rw [h.table_damage]
    exact h.keyed.mapValues fun t _ => t.id_afterBlow id amount
  · rw [h.values_damage] at ht
    obtain ⟨u, hu, rfl⟩ := List.mem_map.mp ht
    rw [Target.id_afterBlow]
    exact h.issued u hu

theorem reap (h : ts.Sound) : ts.reap.Sound := by
  refine ⟨?_, fun t ht => ?_⟩
  · exact Table.Keyed.filter h.keyed fun _ t => t.alive
  · rw [values_reap] at ht
    exact h.issued t (List.mem_of_mem_filter ht)

end Sound

variable [Scalar α]

/-! ### Turnover -/

/-- From `ts` to `ts'` targets were added, live ones struck by some amounts, and dead ones dropped;
otherwise they only walked. -/
inductive Turnover (ts : Targets α) :
    List (Target α) → List α → List (Target α) → Targets α → Prop where
  | refl : Turnover ts [] [] [] ts
  | add {added dropped : List (Target α)} {struck : List α} {us : Targets α}
      (h : Turnover ts added struck dropped us) (position : Point α) (health : α) (path : List Hex)
      (speed : α) : Turnover ts (added ++ [(us.add position health path speed).1]) struck dropped
        (us.add position health path speed).2
  | strike {added dropped : List (Target α)} {struck : List α} {us : Targets α}
      (h : Turnover ts added struck dropped us) {id : Int} {t : Target α}
      (live : us.get? id = some t) (amount : α) :
      Turnover ts added (struck ++ [amount]) dropped (us.damage id amount)
  | walk {added dropped : List (Target α)} {struck : List α} {us vs : Targets α}
      (h : Turnover ts added struck dropped us) (nextId : vs.nextId = us.nextId)
      (still : vs.table.mapValues Target.still = us.table.mapValues Target.still) :
      Turnover ts added struck dropped vs
  | reap {added dropped : List (Target α)} {struck : List α} {us : Targets α}
      (h : Turnover ts added struck dropped us) :
      Turnover ts added struck (dropped ++ us.dead) us.reap

namespace Turnover

variable {ts us vs : Targets α} {added added' dropped dropped' : List (Target α)}
  {struck struck' : List α}

theorem trans (h : Turnover ts added struck dropped us)
    (h' : Turnover us added' struck' dropped' vs) :
    Turnover ts (added ++ added') (struck ++ struck') (dropped ++ dropped') vs := by
  induction h' with
  | refl => simpa using h
  | add _ position health path speed ih =>
    rw [← List.append_assoc]
    exact ih.add position health path speed
  | strike _ live amount ih =>
    rw [← List.append_assoc]
    exact ih.strike live amount
  | walk _ nextId still ih => exact ih.walk nextId still
  | reap _ ih =>
    rw [← List.append_assoc]
    exact ih.reap

/-- However targets turn over, their ids are their own. -/
theorem sound (h : Turnover ts added struck dropped us) (hs : ts.Sound) : us.Sound := by
  induction h with
  | refl => exact hs
  | add _ position health path speed ih => exact ih.add position health path speed
  | strike _ _ amount ih => exact ih.damage _ amount
  | walk _ nextId still ih => exact ih.of_still nextId still
  | reap _ ih => exact ih.reap

/-! ### Who is there -/

/-- One id is issued for each target that is added. -/
theorem nextId_eq (h : Turnover ts added struck dropped us) :
    us.nextId = ts.nextId + added.length := by
  induction h with
  | refl => exact (Int.add_zero _).symm
  | add _ _ _ _ _ ih =>
    rw [Targets.add, ih, List.length_append]
    exact Int.add_assoc _ _ _
  | strike _ _ _ ih => exact ih
  | walk _ nextId _ ih => exact nextId.trans ih
  | reap _ ih => exact ih

/-- The ids are issued one after the other. -/
theorem ids_added (h : Turnover ts added struck dropped us) :
    added.map (·.id) = (List.range added.length).map fun k : Nat => ts.nextId + k := by
  induction h with
  | refl => rfl
  | add h _ _ _ _ ih =>
    rw [List.length_append, List.length_singleton, List.range_succ, List.map_append,
      List.map_append, ih, Targets.add, h.nextId_eq]
    rfl
  | strike _ _ _ ih => exact ih
  | walk _ _ _ ih => exact ih
  | reap _ ih => exact ih

theorem nodup_added (h : Turnover ts added struck dropped us) : (added.map (·.id)).Nodup := by
  rw [h.ids_added]
  refine List.Nodup.map (fun i j e => ?_) List.nodup_range
  omega

/-- A target that is added has an id that was issued. -/
theorem id_lt_nextId (h : Turnover ts added struck dropped us) {t : Target α} (ht : t ∈ added) :
    t.id < us.nextId := by
  have hid : t.id ∈ added.map (·.id) := List.mem_map_of_mem ht
  rw [h.ids_added, List.mem_map] at hid
  obtain ⟨k, hk, e⟩ := hid
  have hk := List.mem_range.mp hk
  have := h.nextId_eq
  omega

/-- Whatever stood there or came stands there or went, and is the same individual. -/
theorem perm (h : Turnover ts added struck dropped us) (hs : ts.Sound) :
    ((ts.table.values ++ added).map Target.individual).Perm
      ((us.table.values ++ dropped).map Target.individual) := by
  induction h with
  | refl => exact .refl _
  | add h position health path speed ih =>
    rw [(h.sound hs).values_add, ← List.append_assoc, List.map_append, List.append_assoc _ [_]]
    refine (ih.append_right _).trans ?_
    rw [← List.map_append, List.append_assoc]
    exact ((List.perm_append_comm).append_left _).map _
  | strike h live amount ih =>
    rw [(h.sound hs).values_damage]
    simpa only [List.map_append, List.map_map, Function.comp_def, Target.individual_afterBlow]
      using ih
  | walk h _ still ih =>
    rw [List.map_append, List.map_append] at ih ⊢
    exact (map_of_still still (·.1)).symm ▸ ih
  | @reap added dropped struck us h ih =>
    -- the live ones stay, and the dead ones go behind those that went before
    refine ih.trans (List.Perm.map _ ?_)
    rw [values_reap, ← List.append_assoc]
    refine (List.Perm.append_right _ (List.filter_append_perm Target.alive _).symm).trans ?_
    rw [List.append_assoc, List.append_assoc]
    exact List.perm_append_comm.append_left _

/-- Who is gone stays gone. -/
theorem get?_eq_none (h : Turnover ts added struck dropped us) (hs : ts.Sound) {id : Int}
    (hid : id < ts.nextId) (hn : ts.get? id = none) : us.get? id = none := by
  induction h with
  | refl => exact hn
  | @add added dropped struck us h position health path speed ih =>
    have hsound := h.sound hs
    rw [(hsound.add _ _ _ _).get?_eq_none_iff, hsound.values_add]
    intro t ht e
    rcases List.mem_append.mp ht with ht | ht
    · exact hsound.get?_eq_none_iff.mp ih t ht e
    · -- the new one has an id that was not issued before
      obtain rfl := List.mem_singleton.mp ht
      have hnext : us.nextId = id := e
      have := h.nextId_eq
      omega
  | strike h _ amount ih =>
    have hsound := h.sound hs
    rw [(hsound.damage _ amount).get?_eq_none_iff, hsound.values_damage]
    intro t ht e
    obtain ⟨u, hu, rfl⟩ := List.mem_map.mp ht
    rw [Target.id_afterBlow] at e
    -- a blow does nothing to the dead
    have hdead := hsound.get?_eq_none_iff.mp ih u hu e
    rwa [Target.afterBlow_of_dead hdead]
  | walk h nextId still ih =>
    have hsound := h.sound hs
    rw [(hsound.of_still nextId still).get?_eq_none_iff]
    intro t ht e
    obtain ⟨u, hu, hstill⟩ := exists_of_still still ht
    have hid : u.id = t.id := congrArg (·.1.1) hstill
    have hhealth : u.health = t.health := congrArg (·.2) hstill
    -- who walks keeps id and health
    have hdead := hsound.get?_eq_none_iff.mp ih u hu (hid.trans e)
    rwa [Target.alive, ← hhealth]
  | reap h ih =>
    have hsound := h.sound hs
    rw [hsound.reap.get?_eq_none_iff, values_reap]
    intro t ht
    exact hsound.get?_eq_none_iff.mp ih t (List.mem_of_mem_filter ht)

/-! ### What they had -/

section Exact

open Scalar

variable [Exact α]

/-- A blow takes its amount from the health of the one whom it strikes. -/
theorem total_damage (hs : ts.Sound) {id : Int} {t : Target α} (live : ts.get? id = some t)
    (amount : α) : total ((ts.damage id amount).table.values.map (·.health)) + amount =
      total (ts.table.values.map (·.health)) := by
  obtain ⟨ht, rfl, ha⟩ := hs.get?_eq_some_iff.mp live
  obtain ⟨before, after, hvalues⟩ := List.append_of_mem ht
  -- no other target has the id, so the blow leaves them as they are
  have hnodup := hs.keyed.keys_eq ▸ hs.keyed.nodup
  rw [hvalues, List.map_append, List.map_cons, List.nodup_middle, List.nodup_cons] at hnodup
  have hother : ∀ us : List (Target α), (∀ u ∈ us, u.id ∈ before.map (·.id) ++ after.map (·.id)) →
      us.map (Target.afterBlow t.id amount) = us := by
    intro us hus
    refine (List.map_congr_left fun u hu => ?_).trans (List.map_id us)
    have hne : u.id ≠ t.id := fun e => hnodup.1 (e ▸ hus u hu)
    exact Target.afterBlow_of_ne hne amount
  rw [hs.values_damage, hvalues, List.map_append, List.map_cons, Target.afterBlow_of_alive ha,
    hother before fun u hu => List.mem_append_left _ (List.mem_map_of_mem hu),
    hother after fun u hu => List.mem_append_right _ (List.mem_map_of_mem hu)]
  simp only [List.map_append, List.map_cons, total_append, total_cons]
  calc total (before.map (·.health)) + (t.health - amount + total (after.map (·.health))) + amount
    _ = total (before.map (·.health)) + (t.health - amount + amount +
          total (after.map (·.health))) := by ac_rfl
    _ = total (before.map (·.health)) + (t.health + total (after.map (·.health))) := by
      rw [Exact.sub_add_cancel]

/-- What was there or came in health is there, went, or was struck off. -/
theorem total_health (h : Turnover ts added struck dropped us) (hs : ts.Sound) :
    total (ts.table.values.map (·.health)) + total (added.map (·.health)) =
      total (us.table.values.map (·.health)) + total (dropped.map (·.health)) + total struck := by
  induction h with
  | refl => rw [List.map_nil, total_nil, Exact.add_zero, Exact.add_zero]
  | @add added dropped struck us h position health path speed ih =>
    rw [(h.sound hs).values_add, List.map_append, total_append, List.map_append, total_append,
      ← Exact.add_assoc, ih]
    ac_rfl
  | @strike added dropped struck us h id t live amount ih =>
    rw [ih, total_append, total_cons, total_nil, Exact.add_zero,
      ← total_damage (h.sound hs) live amount]
    ac_rfl
  | @walk added dropped struck us vs h _ still ih =>
    have hhealth : vs.table.values.map (·.health) = us.table.values.map (·.health) :=
      map_of_still still (·.2)
    rw [hhealth, ih]
  | @reap added dropped struck us h ih =>
    rw [ih, values_reap, List.map_append, total_append, dead,
      ← total_filter (·.health) Target.alive us.table.values]
    ac_rfl

end Exact

end Turnover

end Targets

end HexPulse
