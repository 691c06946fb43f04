import HexPulse.Proofs.Outcome
import HexPulse.Proofs.Table
import HexPulse.Scenario.Intake

/-!
# HexPulse — Proofs — Scenario — Legality

What a scenario has to be like to be a board, apart from the check that looks for its flaws: ids
and cells that are pairwise different, cells inside the radius, and nodes that keep to the
contracts of their kinds (`Scenario.Legal`).

* `Scenario.flaws_eq_nil_iff`: a scenario has no flaws exactly if it is legal.
* `Scenario.legal_of_read`: a scenario that was read is legal, and no node of it is wired twice in
  one direction.
-/

namespace HexPulse

variable {α : Type}

/-- A node keeps to the contract of its kind. -/
structure NodeSpec.Obeys (n : NodeSpec α) (c : Contract) : Prop where
  directions : ∀ e ∈ n.wiring.entries, (Direction.ofName? e.1).isSome
  ports : ∀ e ∈ n.wiring.entries, e.2 ∈ c.inputs.keys
  once : n.wiring.values.Nodup
  constant : n.constant.isSome → c.constant = true

namespace Scenario

/-- The cells of nodes, hearts and terrain. -/
def cells (s : Scenario α) : List Hex := s.nodes.map (·.cell) ++ s.hearts ++ s.terrain

/-- A scenario that is a board. -/
structure Legal (rules : Rules) (s : Scenario α) : Prop where
  ids : (s.nodes.map (·.id)).Nodup
  cells : s.cells.Nodup
  inside : ∀ c ∈ s.cells, (c.distance .origin : Int) ≤ rules.radius
  targets : ∀ t ∈ s.targets, (t.cell.distance .origin : Int) ≤ rules.radius
  nodes : ∀ n ∈ s.nodes, ∃ c, rules.contracts.get? n.kind = some c ∧ n.Obeys c

/-! ### The flaws, sort by sort -/

/-- No id is reported as used twice exactly if none is. -/
theorem duplicateIds_eq_nil_iff (alphabet : Text.Alphabet) {s : Scenario α} :
    s.duplicateIds alphabet = [] ↔ (s.nodes.map (·.id)).Nodup := by
  have hempty {xs : List String} : xs.eraseDups = [] ↔ xs = [] := by
    cases xs <;> simp [List.eraseDups_cons]
  rw [duplicateIds, ← List.length_eq_zero_iff, List.length_mergeSort, List.length_eq_zero_iff,
    hempty, List.filter_eq_nil_iff, List.nodup_iff_count_le_one]
  refine ⟨fun h id => ?_, fun h id _ => ?_⟩
  · by_cases hid : id ∈ s.nodes.map (·.id)
    · have := h id hid
      simpa using this
    · rw [List.count_eq_zero.mpr hid]
      exact Nat.zero_le 1
  · have := h id
    simpa using this

theorem excludes_eq_false_iff {rules : Rules} (hradius : 1 ≤ rules.radius) {cell : Hex} :
    rules.excludes cell = false ↔ (cell.distance .origin : Int) ≤ rules.radius := by
  rw [Rules.excludes, Bool.and_eq_false_iff, decide_eq_false_iff_not, decide_eq_false_iff_not]
  omega

/-- Placements have no flaws if all of them are within the radius, on cells of their own. -/
theorem placementFlawsFrom_eq_nil_iff {rules : Rules} (hradius : 1 ≤ rules.radius)
    {before ps : List (Occupant × Hex)} : placementFlawsFrom rules before ps = [] ↔
      (∀ p ∈ ps, (p.2.distance .origin : Int) ≤ rules.radius) ∧
        (∀ p ∈ ps, p.2 ∉ before.map (·.2)) ∧ (ps.map (·.2)).Nodup := by
  induction ps generalizing before with
  | nil => simp [placementFlawsFrom]
  | cons p ps ih =>
    have hbefore : (before.find? fun e => e.2 = p.2) = none ↔ p.2 ∉ before.map (·.2) := by
      simp only [List.find?_eq_none, decide_eq_true_eq, List.mem_map, not_exists, not_and]
    have hhead : placementFlaws rules ((before.find? fun e => e.2 = p.2).map (·.1)) p = [] ↔
        (p.2.distance .origin : Int) ≤ rules.radius ∧ p.2 ∉ before.map (·.2) := by
      rw [← excludes_eq_false_iff hradius, ← hbefore, placementFlaws]
      simp
    rw [placementFlawsFrom, List.append_eq_nil_iff, hhead, ih]
    simp only [List.map_append, List.map_cons, List.map_nil, List.mem_append, List.mem_singleton,
      List.forall_mem_cons, List.nodup_cons, List.mem_map, not_or]
    constructor
    · rintro ⟨⟨hin, hnew⟩, hins, hnews, hnodup⟩
      refine ⟨⟨hin, hins⟩, ⟨hnew, fun q hq => (hnews q hq).1⟩, ?_, hnodup⟩
      rintro ⟨q, hq, e⟩
      exact (hnews q hq).2 e
    · rintro ⟨⟨hin, hins⟩, ⟨hnew, hnews⟩, hp, hnodup⟩
      exact ⟨⟨hin, hnew⟩, hins, fun q hq => ⟨hnews q hq, fun e => hp ⟨q, hq, e⟩⟩, hnodup⟩

theorem map_numbered {β : Type} (xs : List β) : (numbered xs).map (·.2) = xs :=
  List.map_snd_zip (List.length_range ▸ Nat.le_refl _)

/-- The cells that are checked are those of nodes, hearts and terrain. -/
theorem map_placements (s : Scenario α) : s.placements.map (·.2) = s.cells := by
  simp only [placements, cells, List.map_append, List.map_map, Function.comp_def, map_numbered]

/-- Targets have no flaws if they start within the radius. -/
theorem targetFlaws_eq_nil_iff {rules : Rules} (hradius : 1 ≤ rules.radius) {s : Scenario α} :
    s.targetFlaws rules = [] ↔
      ∀ t ∈ s.targets, (t.cell.distance .origin : Int) ≤ rules.radius := by
  have hnumbered : (∀ t ∈ numbered s.targets, (t.2.cell.distance .origin : Int) ≤ rules.radius) ↔
      ∀ t ∈ (numbered s.targets).map (·.2), (t.cell.distance .origin : Int) ≤ rules.radius := by
    rw [List.forall_mem_map]
  rw [map_numbered] at hnumbered
  rw [targetFlaws, List.filterMap_eq_nil_iff, ← hnumbered]
  refine forall₂_congr fun t _ => ?_
  rw [← excludes_eq_false_iff hradius]
  cases rules.excludes t.2.cell <;> simp

/-- Bindings without flaws, behind ports that are bound already. -/
theorem bindingFlaws_eq_nil_iff {id kind : String} {c : Contract} {seen : Table String String}
    {bindings : List (String × String)} : bindingFlaws id kind (some c) seen bindings = [] ↔
      (∀ e ∈ bindings, (Direction.ofName? e.1).isSome) ∧ (∀ e ∈ bindings, e.2 ∈ c.inputs.keys) ∧
        (∀ e ∈ bindings, e.2 ∉ seen.keys) ∧ (bindings.map (·.2)).Nodup := by
  -- over the bindings, with the ports that were seen before them
  induction bindings generalizing seen with
  | nil => simp [bindingFlaws]
  | cons e bindings ih =>
    obtain ⟨direction, port⟩ := e
    simp only [bindingFlaws, List.forall_mem_cons, List.map_cons, List.nodup_cons]
    split
    · next hnone => simp_all
    split
    · next hport =>
      have : port ∉ c.inputs.keys := by
        rw [← Table.contains_iff_mem_keys]
        simpa using hport
      simp [this]
    next hsome hport =>
    have hport : port ∈ c.inputs.keys := by
      rw [← Table.contains_iff_mem_keys]
      simpa using hport
    split
    · next first hseen =>
      have : port ∈ seen.keys := by
        rw [← Table.contains_iff_mem_keys, Table.contains, hseen]
        rfl
      simp [this]
    · next hseen =>
      rw [Table.get?_eq_none_iff] at hseen
      rw [ih]
      simp only [Table.mem_keys_insert, not_or, List.mem_map]
      have hsome : (Direction.ofName? direction).isSome := by
        simpa [Option.isSome_iff_ne_none] using hsome
      constructor
      · rintro ⟨hdirections, hports, hnew, hnodup⟩
        refine ⟨⟨hsome, hdirections⟩, ⟨hport, hports⟩, ⟨hseen, fun e he => (hnew e he).1⟩, ?_,
          hnodup⟩
        rintro ⟨e, he, h⟩
        exact (hnew e he).2 h
      · rintro ⟨⟨-, hdirections⟩, ⟨-, hports⟩, ⟨-, hnew⟩, hfirst, hnodup⟩
        exact ⟨hdirections, hports, fun e he => ⟨hnew e he, fun h => hfirst ⟨e, he, h⟩⟩, hnodup⟩

/-- A node has no flaws if it obeys the contract of its kind. -/
theorem nodeFlaws_eq_nil_iff {rules : Rules} (hcontracts : rules.contracts.size ≠ 0)
    {n : NodeSpec α} : nodeFlaws rules n = [] ↔
      ∃ c, rules.contracts.get? n.kind = some c ∧ n.Obeys c := by
  rw [nodeFlaws]
  cases hc : rules.contracts.get? n.kind with
  | none => simp [hcontracts]
  | some c =>
    simp only [Option.isNone_some, Bool.false_and, Bool.false_eq_true, if_false,
      List.append_eq_nil_iff, bindingFlaws_eq_nil_iff, Option.some.injEq, exists_eq_left']
    constructor
    · rintro ⟨⟨hdirections, hports, -, hnodup⟩, hconstant⟩
      refine ⟨hdirections, hports, hnodup, fun hsome => ?_⟩
      simpa [hsome] using hconstant
    · rintro ⟨hdirections, hports, hnodup, hconstant⟩
      refine ⟨⟨hdirections, hports, fun e _ => List.not_mem_nil, hnodup⟩, ?_⟩
      by_cases hsome : n.constant.isSome
      · simp [hconstant hsome]
      · simp [hsome]

/-- **A scenario has no flaws exactly if it is legal.** -/
theorem flaws_eq_nil_iff {rules : Rules} (hcontracts : rules.contracts.size ≠ 0)
    (hradius : 1 ≤ rules.radius) {alphabet : Text.Alphabet} {s : Scenario α} :
    s.flaws rules alphabet = [] ↔ s.Legal rules := by
  have hduplicates : (if (s.duplicateIds alphabet).isEmpty then []
      else [Flaw.duplicateIds (s.duplicateIds alphabet)]) = [] ↔
        (s.nodes.map (·.id)).Nodup := by
    rw [← duplicateIds_eq_nil_iff alphabet]
    simp
  rw [flaws, List.append_eq_nil_iff, List.append_eq_nil_iff, List.append_eq_nil_iff, hduplicates,
    placementFlawsFrom_eq_nil_iff hradius, targetFlaws_eq_nil_iff hradius, List.flatMap_eq_nil_iff,
    map_placements]
  -- placements are numbered cells, and the flaws look at the cells only
  have hinside : (∀ p ∈ s.placements, (p.2.distance .origin : Int) ≤ rules.radius) ↔
      ∀ c ∈ s.cells, (c.distance .origin : Int) ≤ rules.radius := by
    rw [← map_placements, List.forall_mem_map]
  rw [hinside]
  constructor
  · rintro ⟨⟨⟨hids, hins, -, hcells⟩, htargets⟩, hnodes⟩
    exact ⟨hids, hcells, hins, htargets,
      fun n hn => (nodeFlaws_eq_nil_iff hcontracts).mp (hnodes n hn)⟩
  · rintro ⟨hids, hcells, hins, htargets, hnodes⟩
    exact ⟨⟨⟨hids, hins, fun _ _ => List.not_mem_nil, hcells⟩, htargets⟩,
      fun n hn => (nodeFlaws_eq_nil_iff hcontracts).mpr (hnodes n hn)⟩

end Scenario

/-! ### What is read

A value that was read has its shape whether or not there were complaints. -/

section Reading

variable {β : Type}

/-- What every reading of fields yields, the reading of a record yields. -/
theorem Intake.value_record {P : β → Prop} {known : List String}
    {read : List (String × Data α) → Intake β} (h : ∀ fields, P (read fields).value) (d : Data α) :
    P (record known read d).value := by
  unfold record
  split
  · split
    · exact h []
    · exact h _
  · exact h []

/-- What a default is and every reading yields, an optional field yields. -/
theorem Intake.value_optionalWith {P : β → Prop} {default : β} {read : Data α → Intake β}
    (hdefault : P default) (h : ∀ d, P (read d).value) (fields : List (String × Data α))
    (name : String) : P (optionalWith fields name default read).value := by
  unfold optionalWith
  split
  · exact hdefault
  · exact h _

theorem Intake.value_itemsFrom {P : β → Prop} {read : Data α → Intake β}
    (h : ∀ d, P (read d).value) (items : List (Data α)) (place : Nat) :
    ∀ x ∈ (itemsFrom place read items).value, P x := by
  induction items generalizing place with
  | nil => exact fun _ hx => absurd hx List.not_mem_nil
  | cons d items ih =>
    rw [itemsFrom, value_bind, value_bind, value_pure]
    exact List.forall_mem_cons.mpr ⟨h d, ih _⟩

theorem Intake.value_list {P : β → Prop} {read : Data α → Intake β} (h : ∀ d, P (read d).value)
    (d : Data α) : ∀ x ∈ (list read d).value, P x := by
  unfold list
  split
  · exact value_itemsFrom h _ _
  · exact fun _ hx => absurd hx List.not_mem_nil

variable [Scalar α]

/-- A node that was read is not wired twice in one direction. -/
theorem NodeSpec.nodup_wiring (d : Data α) : (NodeSpec.read d).value.wiring.keys.Nodup :=
  Intake.value_record (P := fun n : NodeSpec α => n.wiring.keys.Nodup)
    (fun _ => (Table.keys_ofList _).1) d

end Reading

namespace Scenario

variable [Scalar α]

/-- A wiring that is read binds no direction twice. -/
theorem nodup_wiring (d : Data α) : ∀ n ∈ (readData d).value.nodes, n.wiring.keys.Nodup := by
  refine Intake.value_record (P := fun s : Scenario α => ∀ n ∈ s.nodes, n.wiring.keys.Nodup)
    (fun fields => ?_) d
  exact Intake.value_optionalWith (P := fun ns : List (NodeSpec α) => ∀ n ∈ ns, n.wiring.keys.Nodup)
    (fun _ hn => absurd hn List.not_mem_nil) (Intake.value_list NodeSpec.nodup_wiring) fields
    "nodes"

/-- **What was read is legal.** -/
theorem legal_of_read {rules : Rules} (hcontracts : rules.contracts.size ≠ 0)
    (hradius : 1 ≤ rules.radius) {alphabet : Text.Alphabet} {d : Data α} {s : Scenario α}
    (h : read rules alphabet d = .ok s) :
    s.Legal rules ∧ ∀ n ∈ s.nodes, n.wiring.keys.Nodup := by
  obtain ⟨s', hread, hcheck⟩ := exists_of_bind_eq_ok (of_mapError_eq_ok h)
  obtain ⟨-, rfl⟩ := Intake.result_eq_ok_iff.mp hread
  rw [check] at hcheck
  split at hcheck
  · next hempty =>
    obtain rfl := Except.ok.inj hcheck
    exact ⟨(flaws_eq_nil_iff hcontracts hradius).mp (List.isEmpty_iff.mp hempty),
      nodup_wiring d⟩
  · cases hcheck

end Scenario

end HexPulse
