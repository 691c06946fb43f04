import HexPulse.Proofs.Board.Matching
import HexPulse.Proofs.Scenario.Legality
import HexPulse.Scalar.Double
import HexPulse.Scenario.Starter

/-!
# HexPulse — Proofs — Scenario — Acceptance

What the check of a scenario accepts, said in terms of the catalogue: descriptors that are found
by name and ports that stand in them (`Scenario.Fits`), and what each flaw says about the
scenario (`Scenario.Breach`).

* `Scenario.mem_flaws_iff`: every breach is listed, whatever other breaches there are, and nothing
  else is.
* `Scenario.ids_of_readData`: the ids are those that are written, without the blanks around them.
* `Scenario.accepted_iff_fits`: what is accepted, what is read then, and what the complaint says
  where it is refused.
-/

namespace HexPulse

variable {α : Type}

/-! ### What fits -/

/-- A binding that a descriptor has room for: from one of the six directions, to an input port. -/
def Descriptor.Takes (d : Descriptor) (e : String × String) : Prop :=
  (∃ direction : Direction, direction.name = e.1) ∧ ∃ p ∈ d.inputs, p.name = e.2

instance (d : Descriptor) : DecidablePred d.Takes := fun e =>
  decidable_of_iff ((∃ direction ∈ Direction.all, direction.name = e.1) ∧
      ∃ p ∈ d.inputs, p.name = e.2)
    (and_congr_left fun _ => exists_congr fun direction => and_iff_right direction.mem_all)

/-- A node keeps to the descriptor of its kind. -/
structure NodeSpec.Follows (n : NodeSpec α) (d : Descriptor) : Prop where
  taken : ∀ e ∈ n.wiring.entries, d.Takes e
  once : n.wiring.values.Nodup
  constant : n.constant.isSome → d.output.isConstant = true

namespace Scenario

/-- A scenario that fits a catalogue and a board of some radius. -/
structure Fits (catalogue : Catalogue) (radius : Int) (s : Scenario α) : Prop where
  ids : (s.nodes.map (·.id)).Nodup
  cells : s.cells.Nodup
  inside : ∀ c ∈ s.cells, (c.distance .origin : Int) ≤ radius
  targets : ∀ t ∈ s.targets, (t.cell.distance .origin : Int) ≤ radius
  nodes : ∀ n ∈ s.nodes, ∃ d, catalogue.find n.kind = .ok d ∧ n.Follows d

variable {catalogue : Catalogue} {radius : Int} {alphabet : Text.Alphabet} {s : Scenario α}

theorem obeys_contract_iff {n : NodeSpec α} {d : Descriptor} :
    n.Obeys d.contract ↔ n.Follows d := by
  have hdirection (name : String) :
      (Direction.ofName? name).isSome ↔ ∃ direction : Direction, direction.name = name := by
    simp only [Option.isSome_iff_exists, Direction.ofName?_eq_some_iff]
  constructor
  · rintro ⟨hdirections, hports, honce, hconstant⟩
    exact ⟨fun e he => ⟨(hdirection _).mp (hdirections e he),
      Descriptor.mem_contract_iff.mp (hports e he)⟩, honce, hconstant⟩
  · rintro ⟨htaken, honce, hconstant⟩
    exact ⟨fun e he => (hdirection _).mpr (htaken e he).1,
      fun e he => Descriptor.mem_contract_iff.mpr (htaken e he).2, honce, hconstant⟩

/-- What is legal by the contracts of a catalogue is what fits the catalogue. -/
theorem legal_iff_fits : s.Legal ⟨catalogue.contracts, radius⟩ ↔ s.Fits catalogue radius := by
  have hnode (n : NodeSpec α) : (∃ c, catalogue.contracts.get? n.kind = some c ∧ n.Obeys c) ↔
      ∃ d, catalogue.find n.kind = .ok d ∧ n.Follows d := by
    simp only [Catalogue.get?_contracts_eq_some_iff, ← obeys_contract_iff]
    constructor
    · rintro ⟨_, ⟨d, hd, rfl⟩, hobeys⟩
      exact ⟨d, hd, hobeys⟩
    · rintro ⟨d, hd, hobeys⟩
      exact ⟨_, ⟨d, hd, rfl⟩, hobeys⟩
  constructor
  · rintro ⟨hids, hcells, hinside, htargets, hnodes⟩
    exact ⟨hids, hcells, hinside, htargets, fun n hn => (hnode n).mp (hnodes n hn)⟩
  · rintro ⟨hids, hcells, hinside, htargets, hnodes⟩
    exact ⟨hids, hcells, hinside, htargets, fun n hn => (hnode n).mpr (hnodes n hn)⟩

/-- A scenario has no flaws if it fits the board and the catalogue. -/
theorem flaws_contracts_eq_nil_iff (hkinds : catalogue.kinds.size ≠ 0) (hradius : 1 ≤ radius) :
    s.flaws ⟨catalogue.contracts, radius⟩ alphabet = [] ↔ s.Fits catalogue radius := by
  rw [← legal_iff_fits]
  exact flaws_eq_nil_iff ((Catalogue.size_contracts catalogue).symm ▸ hkinds) hradius

/-! ### What a flaw says -/

/-- What is wrong with a binding behind others, at a node of a descriptor. -/
inductive BindingBreach (id kind : String) (d : Descriptor) (before : List (String × String))
    (e : String × String) : Flaw → Prop where
  | unknownDirection (h : ∀ direction : Direction, direction.name ≠ e.1) :
      BindingBreach id kind d before e (.unknownDirection id e.1)
  | unknownPort (hdirection : ∃ direction : Direction, direction.name = e.1)
      (h : ∀ p ∈ d.inputs, p.name ≠ e.2) :
      BindingBreach id kind d before e (.unknownPort id e.2 kind)
  /-- the first binding of the port is the one that all later ones clash with -/
  | portTwice {first : String × String} (htaken : d.Takes e)
      (h : before.find? (fun e' => d.Takes e' ∧ e'.2 = e.2) = some first) :
      BindingBreach id kind d before e (.portTwice id e.2 first.1 e.1)

/-- What is wrong with a node, apart from its cell. -/
inductive NodeBreach (catalogue : Catalogue) (n : NodeSpec α) : Flaw → Prop where
  | unknownKind (h : ∀ d, catalogue.find n.kind ≠ .ok d) :
      NodeBreach catalogue n (.unknownKind n.id n.kind)
  | binding {d : Descriptor} {before after : List (String × String)} {e : String × String}
      {f : Flaw} (hd : catalogue.find n.kind = .ok d)
      (he : n.wiring.entries = before ++ e :: after) (h : BindingBreach n.id n.kind d before e f) :
      NodeBreach catalogue n f
  | noConstant {d : Descriptor} (hd : catalogue.find n.kind = .ok d) (hsome : n.constant.isSome)
      (h : d.output.isConstant = false) : NodeBreach catalogue n (.noConstant n.id n.kind)

/-- What is wrong with a placement behind others. -/
inductive PlacementBreach (radius : Int) (before : List (Occupant × Hex)) (p : Occupant × Hex) :
    Flaw → Prop where
  | outOfBounds (h : radius < (p.2.distance .origin : Int)) :
      PlacementBreach radius before p (.outOfBounds p.1 p.2 radius)
  /-- the first occupant of a cell is the one that all later ones overlap -/
  | overlap {first : Occupant × Hex} (h : before.find? (fun q => q.2 = p.2) = some first) :
      PlacementBreach radius before p (.overlap p.1 p.2 first.1)

/-- What is wrong with a scenario. -/
inductive Breach (catalogue : Catalogue) (radius : Int) (alphabet : Text.Alphabet)
    (s : Scenario α) : Flaw → Prop where
  /-- one flaw names all ids that are taken twice -/
  | duplicateIds {id : String} (h : 1 < (s.nodes.map (·.id)).count id) :
      Breach catalogue radius alphabet s (.duplicateIds (s.duplicateIds alphabet))
  | placement {before after : List (Occupant × Hex)} {p : Occupant × Hex} {f : Flaw}
      (hp : s.placements = before ++ p :: after) (h : PlacementBreach radius before p f) :
      Breach catalogue radius alphabet s f
  | targetOutOfBounds {t : Nat × TargetSpec α} (ht : t ∈ numbered s.targets)
      (h : radius < (t.2.cell.distance .origin : Int)) :
      Breach catalogue radius alphabet s (.targetOutOfBounds t.1 t.2.cell)
  | node {n : NodeSpec α} (hn : n ∈ s.nodes) {f : Flaw} (h : NodeBreach catalogue n f) :
      Breach catalogue radius alphabet s f

/-- The ids in the flaw about ids are those that are taken twice. -/
theorem mem_duplicateIds_iff (alphabet : Text.Alphabet) {id : String} :
    id ∈ s.duplicateIds alphabet ↔ 1 < (s.nodes.map (·.id)).count id := by
  rw [duplicateIds, List.mem_mergeSort, List.mem_eraseDups, List.mem_filter]
  refine ⟨fun h => of_decide_eq_true h.2, fun h => ⟨?_, decide_eq_true h⟩⟩
  exact List.count_pos_iff.mp (Nat.lt_of_succ_lt h)

/-- What holds at some place of a list holds at its head or at some place behind it. -/
theorem exists_split_cons_iff {β : Type} {P : List β → β → Prop} {before xs : List β} {x : β} :
    (∃ mid y after, x :: xs = mid ++ y :: after ∧ P (before ++ mid) y) ↔
      P before x ∨ ∃ mid y after, xs = mid ++ y :: after ∧ P (before ++ [x] ++ mid) y := by
  constructor
  · rintro ⟨mid, y, after, hsplit, h⟩
    cases mid with
    | nil =>
      obtain ⟨rfl, -⟩ := List.cons.inj hsplit
      rw [List.append_nil] at h
      exact .inl h
    | cons z mid =>
      obtain ⟨rfl, htail⟩ := List.cons.inj hsplit
      exact .inr ⟨mid, y, after, htail, by rwa [List.append_assoc]⟩
  · rintro (h | ⟨mid, y, after, rfl, h⟩)
    · exact ⟨[], x, xs, rfl, by rwa [List.append_nil]⟩
    · exact ⟨x :: mid, y, after, rfl, by rwa [List.append_assoc] at h⟩

/-- The flaws of bindings that stand behind others, if what is seen of those is the first valid
binding of each port. -/
theorem mem_bindingFlaws_iff {id kind : String} {d : Descriptor} {f : Flaw}
    {seen : Table String String} {before bindings : List (String × String)}
    (hseen : ∀ port, seen.get? port =
      (before.find? fun e => d.Takes e ∧ e.2 = port).map (·.1)) :
    f ∈ bindingFlaws id kind (some d.contract) seen bindings ↔ ∃ mid e after,
      bindings = mid ++ e :: after ∧ BindingBreach id kind d (before ++ mid) e f := by
  induction bindings generalizing seen before with
  | nil => simp [bindingFlaws]
  | cons e bindings ih =>
    obtain ⟨direction, port⟩ := e
    -- a binding that is refused leaves what is seen as it was
    have hrefused (htaken : ¬ d.Takes (direction, port)) (port' : String) :
        seen.get? port' = ((before ++ [(direction, port)]).find? fun e =>
          d.Takes e ∧ e.2 = port').map (·.1) := by
      rw [List.find?_append, hseen]
      simp [htaken]
    rw [exists_split_cons_iff (P := fun before e => BindingBreach id kind d before e f),
      bindingFlaws]
    split
    · next hnone =>
      have hdirection := Direction.ofName?_eq_none_iff.mp (Option.isNone_iff_eq_none.mp hnone)
      rw [List.mem_cons, ih (hrefused fun h => h.1.elim hdirection)]
      refine or_congr_left ⟨fun h => h ▸ .unknownDirection hdirection, fun h => ?_⟩
      cases h with
      | unknownDirection => rfl
      | unknownPort hsome => exact (hsome.elim hdirection).elim
      | portTwice htaken => exact (htaken.1.elim hdirection).elim
    next hsome =>
    obtain ⟨dir, hdir⟩ : ∃ dir : Direction, dir.name = direction := by
      obtain ⟨dir, hdir⟩ := Option.ne_none_iff_exists'.mp (Option.isNone_iff_eq_none.not.mp hsome)
      exact ⟨dir, Direction.ofName?_eq_some_iff.mp hdir⟩
    have hport : (Option.any (fun c => !c.inputs.contains port) (some d.contract)) = true ↔
        ∀ p ∈ d.inputs, p.name ≠ port := by
      rw [Option.any_some, Bool.not_eq_true', ← Bool.not_eq_true, Table.contains_iff_mem_keys,
        Descriptor.mem_contract_iff]
      push Not
      rfl
    split
    · next hnew =>
      have hnew := hport.mp hnew
      rw [List.mem_cons, ih (hrefused fun h => h.2.elim fun p hp => hnew p hp.1 hp.2)]
      refine or_congr_left ⟨fun h => h ▸ .unknownPort ⟨dir, hdir⟩ hnew, fun h => ?_⟩
      cases h with
      | unknownDirection h => exact absurd hdir (h dir)
      | unknownPort => rfl
      | portTwice htaken => exact htaken.2.elim fun p hp => absurd hp.2 (hnew p hp.1)
    next hknown =>
    have htaken : d.Takes (direction, port) := by
      refine ⟨⟨dir, hdir⟩, ?_⟩
      have := mt hport.mpr hknown
      push Not at this
      exact this
    split
    · next first hfirst =>
      rw [hseen] at hfirst
      obtain ⟨e, he, rfl⟩ := Option.map_eq_some_iff.mp hfirst
      rw [List.mem_cons, ih]
      · refine or_congr_left ⟨fun h => h ▸ .portTwice htaken he, fun h => ?_⟩
        cases h with
        | unknownDirection h => exact absurd hdir (h dir)
        | unknownPort _ h => exact htaken.2.elim fun p hp => absurd hp.2 (h p hp.1)
        | portTwice _ h => rw [Option.some.inj (he.symm.trans h)]
      · intro port'
        rw [List.find?_append, hseen]
        by_cases hp : port' = port
        · rw [hp, he, Option.some_or]
        · simp [Ne.symm hp]
    · next hnone =>
      rw [hseen, Option.map_eq_none_iff] at hnone
      rw [ih]
      · refine (or_iff_right fun h => ?_).symm
        cases h with
        | unknownDirection h => exact h dir hdir
        | unknownPort _ h => exact htaken.2.elim fun p hp => h p hp.1 hp.2
        | portTwice _ h => cases hnone.symm.trans h
      · intro port'
        rw [List.find?_append]
        by_cases hp : port' = port
        · subst hp
          rw [Table.get?_insert_self, hnone]
          simp [htaken]
        · rw [Table.get?_insert_of_ne _ _ hp, hseen]
          simp [Ne.symm hp]

/-- The flaws of a node are its breaches of the contract of its kind. -/
theorem mem_nodeFlaws_iff (hkinds : catalogue.kinds.size ≠ 0) {n : NodeSpec α} {f : Flaw} :
    f ∈ nodeFlaws ⟨catalogue.contracts, radius⟩ n ↔ NodeBreach catalogue n f := by
  rw [nodeFlaws]
  cases hc : catalogue.contracts.get? n.kind with
  | none =>
    -- a kind without a contract has no descriptor either, so nothing else of the node is checked
    have hunknown (d : Descriptor) : catalogue.find n.kind ≠ .ok d := fun hd => by
      cases hc.symm.trans (Catalogue.get?_contracts_eq_some_iff.mpr ⟨d, hd, rfl⟩)
    simp only [Option.isNone_none, Catalogue.size_contracts, ne_eq, hkinds, not_false_eq_true,
      decide_true, Bool.and_self, if_true, List.mem_singleton]
    refine ⟨fun h => h ▸ .unknownKind hunknown, fun h => ?_⟩
    cases h with
    | unknownKind => rfl
    | binding hd => exact absurd hd (hunknown _)
    | noConstant hd => exact absurd hd (hunknown _)
  | some c =>
    obtain ⟨d, hd, rfl⟩ := Catalogue.get?_contracts_eq_some_iff.mp hc
    have hbindings : f ∈ bindingFlaws n.id n.kind (some d.contract) .empty n.wiring.entries ↔
        ∃ before e after, n.wiring.entries = before ++ e :: after ∧
          BindingBreach n.id n.kind d ([] ++ before) e f :=
      mem_bindingFlaws_iff fun _ => rfl
    -- the breaches speak of the descriptor of the kind, of which there is one
    have hone {d' : Descriptor} (hd' : catalogue.find n.kind = .ok d') : d' = d :=
      Except.ok.inj (hd'.symm.trans hd)
    simp only [Option.isNone_some, Bool.false_and, Bool.false_eq_true, if_false, List.mem_append,
      hbindings, List.nil_append]
    constructor
    · rintro (⟨before, e, after, he, h⟩ | h)
      · exact .binding hd he h
      · split at h
        · next hsome =>
          obtain rfl := List.mem_singleton.mp h
          have : n.constant.isSome ∧ d.output.isConstant = false := by
            simpa [Descriptor.contract] using hsome
          exact .noConstant hd this.1 this.2
        · cases h
    · intro h
      cases h with
      | unknownKind h => exact absurd hd (h d)
      | binding hd' he h =>
        obtain rfl := hone hd'
        exact .inl ⟨_, _, _, he, h⟩
      | noConstant hd' hsome h =>
        obtain rfl := hone hd'
        simp [hsome, h, Descriptor.contract]

theorem excludes_eq_true_iff {rules : Rules} (hradius : 1 ≤ rules.radius) {cell : Hex} :
    rules.excludes cell = true ↔ rules.radius < (cell.distance .origin : Int) := by
  rw [← Bool.not_eq_false, excludes_eq_false_iff hradius, Int.not_le]

/-- The flaws of placements are beyond the radius, or on a cell that was taken before. -/
theorem mem_placementFlawsFrom_iff {rules : Rules} (hradius : 1 ≤ rules.radius) {f : Flaw}
    {before ps : List (Occupant × Hex)} : f ∈ placementFlawsFrom rules before ps ↔
      ∃ mid p after, ps = mid ++ p :: after ∧
        PlacementBreach rules.radius (before ++ mid) p f := by
  induction ps generalizing before with
  | nil => simp [placementFlawsFrom]
  | cons p ps ih =>
    rw [exists_split_cons_iff (P := fun before p => PlacementBreach rules.radius before p f),
      placementFlawsFrom, List.mem_append, ih, placementFlaws, List.mem_append]
    refine or_congr_left ⟨?_, fun h => ?_⟩
    · rintro (h | h)
      · split at h
        · next hout =>
          obtain rfl := List.mem_singleton.mp h
          exact .outOfBounds ((excludes_eq_true_iff hradius).mp hout)
        · cases h
      · obtain ⟨occupant, hoccupant, rfl⟩ := List.mem_map.mp h
        obtain ⟨first, hfirst, rfl⟩ :=
          Option.map_eq_some_iff.mp (Option.mem_toList.mp hoccupant)
        exact .overlap hfirst
    · cases h with
      | outOfBounds h =>
        left
        rw [if_pos ((excludes_eq_true_iff hradius).mpr h)]
        exact List.mem_singleton_self _
      | overlap h =>
        right
        rw [h]
        exact List.mem_singleton_self _

/-- The flaws of targets are starts beyond the radius. -/
theorem mem_targetFlaws_iff {rules : Rules} (hradius : 1 ≤ rules.radius) {f : Flaw} :
    f ∈ s.targetFlaws rules ↔ ∃ t ∈ numbered s.targets,
      rules.radius < (t.2.cell.distance .origin : Int) ∧
        f = .targetOutOfBounds t.1 t.2.cell := by
  rw [targetFlaws, List.mem_filterMap]
  refine exists_congr fun t => and_congr_right fun _ => ?_
  rw [← excludes_eq_true_iff hradius]
  cases rules.excludes t.2.cell <;> simp [eq_comm]

/-- **Every breach is listed**, whatever other breaches there are, and nothing else is. -/
theorem mem_flaws_iff (hkinds : catalogue.kinds.size ≠ 0) (hradius : 1 ≤ radius) {f : Flaw} :
    f ∈ s.flaws ⟨catalogue.contracts, radius⟩ alphabet ↔
      s.Breach catalogue radius alphabet f := by
  have hids : f ∈ (if (s.duplicateIds alphabet).isEmpty then []
      else [Flaw.duplicateIds (s.duplicateIds alphabet)]) ↔
        (∃ id, 1 < (s.nodes.map (·.id)).count id) ∧
          f = .duplicateIds (s.duplicateIds alphabet) := by
    simp only [← mem_duplicateIds_iff alphabet]
    cases s.duplicateIds alphabet with
    | nil => simp
    | cons id ids => simp
  rw [flaws, List.mem_append, List.mem_append, List.mem_append, hids,
    mem_placementFlawsFrom_iff hradius, mem_targetFlaws_iff hradius, List.mem_flatMap]
  simp only [mem_nodeFlaws_iff hkinds, List.nil_append]
  constructor
  · rintro (((⟨⟨id, hid⟩, rfl⟩ | ⟨before, p, after, hp, h⟩) | ⟨t, ht, h, rfl⟩) | ⟨n, hn, h⟩)
    · exact .duplicateIds hid
    · exact .placement hp h
    · exact .targetOutOfBounds ht h
    · exact .node hn h
  · intro h
    cases h with
    | duplicateIds hid => exact .inl (.inl (.inl ⟨⟨_, hid⟩, rfl⟩))
    | placement hp h => exact .inl (.inl (.inr ⟨_, _, _, hp, h⟩))
    | targetOutOfBounds ht h => exact .inl (.inr ⟨_, ht, h, rfl⟩)
    | node hn h => exact .inr ⟨_, hn, h⟩

end Scenario

/-! ### What is read without complaints -/

namespace Intake

variable {β : Type}

@[simp] theorem issues_inside_eq_nil_iff {name : String} {m : Intake β} :
    (m.inside name).issues = [] ↔ m.issues = [] := List.map_eq_nil_iff

/-- A record without complaints has fields that are read without complaints. -/
theorem of_record {known : List String} {read : List (String × Data α) → Intake β} {d : Data α}
    (h : (record known read d).issues = []) : ∃ fields, d = .record fields ∧
      (read fields).issues = [] ∧ (record known read d).value = (read fields).value := by
  unfold record at h ⊢
  split
  · next fields =>
    dsimp only at h ⊢
    split at h
    · cases h
    · next hnamed =>
      rw [if_neg hnamed]
      exact ⟨fields, rfl, (List.append_eq_nil_iff.mp h).1, rfl⟩
  · next hrecord =>
    cases d <;> first | exact absurd rfl (hrecord _) | cases h

/-- A required field without complaints is there, and can be read. -/
theorem of_required {fields : List (String × Data α)} {name : String} {standIn : β}
    {read : Data α → Except IssueKind β} (h : (required fields name standIn read).issues = []) :
    ∃ d, Data.field? fields name = some d ∧
      read d = .ok (required fields name standIn read).value := by
  unfold required at h ⊢
  cases hd : Data.field? fields name with
  | none =>
    rw [hd] at h
    cases h
  | some d =>
    rw [hd] at h
    refine ⟨d, rfl, ?_⟩
    dsimp only at h ⊢
    cases hread : read d with
    | ok x => rfl
    | error kind =>
      rw [hread] at h
      cases h

/-- An optional field without complaints is missing, or is read without complaints. -/
theorem of_optionalWith {fields : List (String × Data α)} {name : String} {default : β}
    {read : Data α → Intake β} (h : (optionalWith fields name default read).issues = []) :
    (Data.field? fields name = none ∧ (optionalWith fields name default read).value = default) ∨
      ∃ d, Data.field? fields name = some d ∧ (read d).issues = [] ∧
        (optionalWith fields name default read).value = (read d).value := by
  unfold optionalWith at h ⊢
  cases hd : Data.field? fields name with
  | none => exact .inl ⟨rfl, rfl⟩
  | some d =>
    rw [hd] at h
    exact .inr ⟨d, rfl, issues_inside_eq_nil_iff.mp h, rfl⟩

theorem of_itemsFrom {read : Data α → Intake β} {items : List (Data α)} {place : Nat}
    (h : (itemsFrom place read items).issues = []) :
    (itemsFrom place read items).value = items.map (fun d => (read d).value) ∧
      ∀ d ∈ items, (read d).issues = [] := by
  induction items generalizing place with
  | nil => exact ⟨rfl, fun _ hd => absurd hd List.not_mem_nil⟩
  | cons d items ih =>
    rw [itemsFrom, issues_bind, issues_bind, issues_pure, List.append_nil,
      List.append_eq_nil_iff, issues_inside_eq_nil_iff] at h
    obtain ⟨hvalue, hitems⟩ := ih h.2
    refine ⟨?_, List.forall_mem_cons.mpr ⟨h.1, hitems⟩⟩
    rw [itemsFrom, value_bind, value_bind, value_pure, hvalue]
    rfl

/-- A list without complaints has items that are read without complaints. -/
theorem of_list {read : Data α → Intake β} {d : Data α} (h : (list read d).issues = []) :
    ∃ items, d = .list items ∧ (list read d).value = items.map (fun d => (read d).value) ∧
      ∀ d ∈ items, (read d).issues = [] := by
  unfold list at h ⊢
  split
  · next items => exact ⟨items, rfl, of_itemsFrom h⟩
  · next hlist =>
    cases d <;> first | exact absurd rfl (hlist _) | cases h

end Intake

/-! ### What is written -/

/-- A text without the blanks at its two ends: nothing but blanks stands around it, and it begins and
ends with none. -/
structure Text.Trims (s t : String) : Prop where
  around : ∃ before after, s.toList = before ++ t.toList ++ after ∧
    ∀ c ∈ before ++ after, isBlank c = true
  first : ∀ c ∈ t.toList.head?, isBlank c = false
  last : ∀ c ∈ t.toList.getLast?, isBlank c = false

/-- A text that is trimmed has lost its blanks at both ends, and nothing else. -/
theorem Text.trims_trim (s : String) : Trims s (trim s) := by
  have hnot {cs : List Char} {c : Char} (hc : c ∈ (cs.dropWhile isBlank).head?) :
      isBlank c = false := by
    have h := List.head?_dropWhile_not isBlank cs
    rwa [Option.mem_def.mp hc] at h
  have hblank (cs : List Char) : ∀ c ∈ cs.takeWhile isBlank, isBlank c = true :=
    List.all_eq_true.mp List.all_takeWhile
  let rest := s.toList.dropWhile isBlank
  have htrim : (trim s).toList = (rest.reverse.dropWhile isBlank).reverse := String.toList_ofList
  -- the blanks at the end are at the front of the reversed text
  have hrest : rest = (trim s).toList ++ (rest.reverse.takeWhile isBlank).reverse := by
    rw [htrim, ← List.reverse_append, List.takeWhile_append_dropWhile, List.reverse_reverse]
  refine ⟨⟨s.toList.takeWhile isBlank, (rest.reverse.takeWhile isBlank).reverse, ?_, ?_⟩, ?_, ?_⟩
  · rw [List.append_assoc, ← hrest, List.takeWhile_append_dropWhile]
  · intro c hc
    rcases List.mem_append.mp hc with hc | hc
    · exact hblank _ c hc
    · exact hblank _ c (List.mem_reverse.mp hc)
  · intro c hc
    have hhead : c ∈ rest.head? := by
      rw [hrest, List.head?_append, Option.mem_def.mp hc]
      rfl
    exact hnot hhead
  · intro c hc
    rw [htrim, List.getLast?_reverse] at hc
    exact hnot hc

/-- The id of a node as it is written, with the blanks around it. -/
def NodeSpec.writtenId : Data α → Option String
  | .record fields => (Data.field? fields "id").bind fun d => (Intake.text d).toOption
  | _ => none

/-- The ids of the nodes of a scenario as they are written. -/
def Scenario.writtenIds : Data α → List String
  | .record fields =>
    match Data.field? fields "nodes" with
    | some (.list nodes) => nodes.filterMap NodeSpec.writtenId
    | _ => []
  | _ => []

/-- The id that is read is the text that is written, trimmed. -/
theorem trim_of_nodeId {d : Data α} {id : String} (h : nodeId d = .ok id) :
    (Intake.text d).toOption.map Text.trim = some id := by
  unfold nodeId at h
  split at h
  · cases h
  · next s htext =>
    split at h
    · cases h
    · rw [htext, ← Except.ok.inj h]
      rfl

variable [Scalar α]

/-- A node that is read without complaints has the id that is written, without the blanks. -/
theorem NodeSpec.id_of_read {d : Data α} (h : (NodeSpec.read d).issues = []) :
    (NodeSpec.writtenId d).map Text.trim = some (NodeSpec.read d).value.id := by
  obtain ⟨fields, rfl, hfields, hvalue⟩ := Intake.of_record h
  simp only [Intake.issues_bind, List.append_eq_nil_iff] at hfields
  obtain ⟨d, hd, hid⟩ := Intake.of_required hfields.2.1
  have hread : (NodeSpec.read (.record fields)).value.id =
      (Intake.required fields "id" "" nodeId).value := congrArg NodeSpec.id hvalue
  rw [hread, writtenId, hd]
  exact trim_of_nodeId hid

/-- **The ids are those that are written**, without the blanks around them. -/
theorem Scenario.ids_of_readData {d : Data α} {s : Scenario α}
    (h : (readData d).result = .ok s) : s.nodes.map (·.id) = (writtenIds d).map Text.trim := by
  obtain ⟨hissues, rfl⟩ := Intake.result_eq_ok_iff.mp h
  obtain ⟨fields, rfl, hfields, hvalue⟩ := Intake.of_record hissues
  simp only [Intake.issues_bind, List.append_eq_nil_iff] at hfields
  have hnodes : (readData (.record fields)).value.nodes =
      (Intake.optionalWith fields "nodes" [] (Intake.list NodeSpec.read)).value :=
    congrArg Scenario.nodes hvalue
  rw [hnodes, writtenIds]
  rcases Intake.of_optionalWith hfields.2.1 with ⟨hnone, hvalue⟩ | ⟨d, hd, hlist, hvalue⟩
  · rw [hvalue, hnone]
    rfl
  · obtain ⟨items, rfl, hitems, hall⟩ := Intake.of_list hlist
    have hids := List.filterMap_congr fun d hd => NodeSpec.id_of_read (hall d hd)
    rw [hvalue, hitems, hd, List.map_map, List.map_filterMap, hids]
    exact (congrFun List.filterMap_eq_map items).symm

namespace Scenario

variable {catalogue : Catalogue} {radius : Int}

/-- **What is accepted**: a scenario whose fields are well-formed is read exactly if it fits the
catalogue and the board, the ids of its nodes taken without the blanks around them.  Otherwise one
complaint at the root lists all that is wrong with it. -/
theorem accepted_iff_fits (hkinds : catalogue.kinds.size ≠ 0) (hradius : 1 ≤ radius)
    (alphabet : Text.Alphabet) {d : Data α} {s : Scenario α} (hd : (readData d).result = .ok s) :
    s.nodes.map (·.id) = (writtenIds d).map Text.trim ∧
    List.Forall₂ Text.Trims (writtenIds d) (s.nodes.map (·.id)) ∧
    ((∃ t, read ⟨catalogue.contracts, radius⟩ alphabet d = .ok t) ↔ s.Fits catalogue radius) ∧
    (∀ t, read ⟨catalogue.contracts, radius⟩ alphabet d = .ok t → t = s) ∧
    (¬ s.Fits catalogue radius → ∃ flaws, read ⟨catalogue.contracts, radius⟩ alphabet d =
        .error [⟨[], .refused (alphabet.shown ("; ".intercalate (flaws.map Flaw.message)))⟩] ∧
      flaws ≠ [] ∧ ∀ f, f ∈ flaws ↔ s.Breach catalogue radius alphabet f) := by
  have hread : read ⟨catalogue.contracts, radius⟩ alphabet d =
      (check ⟨catalogue.contracts, radius⟩ alphabet s).mapError
        (·.map (Issue.shown alphabet)) := by
    rw [read, hd]
    rfl
  have hflaws : s.flaws ⟨catalogue.contracts, radius⟩ alphabet = [] ↔ s.Fits catalogue radius :=
    flaws_contracts_eq_nil_iff hkinds hradius
  have hids := ids_of_readData hd
  have htrims : List.Forall₂ Text.Trims (writtenIds d) (s.nodes.map (·.id)) := by
    rw [hids, List.forall₂_map_right_iff, List.forall₂_same]
    exact fun id _ => Text.trims_trim id
  refine ⟨hids, htrims, ?_⟩
  rw [hread, check]
  -- with no flaws the check returns the scenario itself, with some it refuses it with all of them
  by_cases hfits : s.Fits catalogue radius
  · rw [hflaws.mpr hfits]
    refine ⟨iff_of_true ⟨s, rfl⟩ hfits, fun t ht => (Except.ok.inj ht).symm, fun h => ?_⟩
    exact absurd hfits h
  · have hne := mt hflaws.mp hfits
    simp only [List.isEmpty_iff, hne, if_false]
    refine ⟨iff_of_false ?_ hfits, fun t ht => ?_,
      fun _ => ⟨_, rfl, hne, fun f => mem_flaws_iff hkinds hradius⟩⟩
    · rintro ⟨t, ht⟩
      cases ht
    · cases ht

/-- Two nodes with blanks around their ids. -/
def padded : Data Float := .record [
  ("hearts", .list [.record [("q", .int 0), ("r", .int 0)]]),
  ("nodes", .list [
    starterNode " three\t" "ConstantNumber" 1 0 [("constant", .int 3)],
    starterNode "\u2003three times" "NumberMultiply" 1 1 (starterWiring "north" "a")])]

/-- Two nodes whose ids differ in nothing but the blanks around them. -/
def clashing : Data Float := .record [
  ("nodes", .list [starterNode "debug" "Debug" 1 0 [], starterNode " debug " "Debug" 1 1 []])]

/-- The starter scenario fits the built-in catalogue and a board of radius ten, and so do nodes with
blanks around their ids, unless there is no other difference between two of them. -/
theorem accepted_starter : Catalogue.builtin.kinds.size ≠ 0 ∧
    (∃ s : Scenario Float, (readData starter).result = .ok s ∧ s.Fits .builtin 10 ∧
      s.nodes.map (·.id) = ["closest", "lazor", "position", "orbital", "three", "debug"]) ∧
    (∃ s : Scenario Float, (readData padded).result = .ok s ∧ s.Fits .builtin 10 ∧
      s.nodes.map (·.id) = ["three", "three times"]) ∧
    ∃ s : Scenario Float, (readData clashing).result = .ok s ∧ ¬ s.Fits .builtin 10 ∧
      ∀ t : Scenario Float, read ⟨Catalogue.builtin.contracts, 10⟩ .characters clashing ≠ .ok t := by
  have hkinds : Catalogue.builtin.kinds.size ≠ 0 := by decide +kernel
  have hradius : (1 : Int) ≤ 10 := by decide
  have hok {d : Data Float} {ids : List String}
      (hd : (readData d).result.isOk = true ∧
        (read ⟨Catalogue.builtin.contracts, 10⟩ .characters d).isOk = true)
      (hids : (writtenIds d).map Text.trim = ids) : ∃ s : Scenario Float,
        (readData d).result = .ok s ∧ s.Fits .builtin 10 ∧ s.nodes.map (·.id) = ids := by
    obtain ⟨s, hs⟩ := exists_of_isOk hd.1
    obtain ⟨htrim, -, haccepted, -⟩ := accepted_iff_fits hkinds hradius .characters hs
    exact ⟨s, hs, haccepted.mp (exists_of_isOk hd.2), htrim.trans hids⟩
  refine ⟨hkinds, hok (by decide +kernel) (by decide +kernel),
    hok (by decide +kernel) (by decide +kernel), ?_⟩
  obtain ⟨s, hs⟩ : ∃ s : Scenario Float, (readData clashing).result = .ok s :=
    exists_of_isOk (by decide +kernel)
  obtain ⟨htrim, -, haccepted, -⟩ := accepted_iff_fits hkinds hradius .characters hs
  have hclash : ¬ ((writtenIds clashing).map Text.trim).Nodup := by decide +kernel
  have hfits : ¬ s.Fits .builtin 10 := fun h => hclash (htrim ▸ h.ids)
  exact ⟨s, hs, hfits, fun t ht => hfits (haccepted.mp ⟨t, ht⟩)⟩

end Scenario

end HexPulse
