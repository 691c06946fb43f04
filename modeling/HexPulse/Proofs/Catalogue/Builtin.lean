import HexPulse.Catalogue.Builtin
import HexPulse.Proofs.Table

/-!
# HexPulse — Proofs — Catalogue — Builtin

The built-in catalogue against what the evaluations do.  `Kind.asks` is the type as which the
evaluation of a kind reads a port, `Kind.yields` the type of the value it ends with; the catalogue
declares these types and no others, for every kind (`Catalogue.builtin_declares`).
-/

namespace HexPulse

namespace Kind

theorem ofName?_name (k : Kind) : ofName? k.name = some k := by
  cases k <;> decide

/-- A name belongs to one kind. -/
theorem name_of_ofName? {s : String} {k : Kind} (h : ofName? s = some k) : k.name = s := by
  have := List.find?_some h
  rwa [decide_eq_true_eq] at this

/-- The type as which the evaluation of a kind reads a port. -/
def asks : Kind → String → ValueType
  | .constantNumber, _ => .any
  | .closestEntity, _ => .any
  | .nearbyEntities, _ => .number
  | .entityPosition, _ => .entity
  | .entityDirection, _ => .entity
  | .vectorCreate, _ => .number
  | .vectorNegate, _ => .vector
  | .vectorLength, _ => .vector
  | .vectorMultiply, _ => .vector
  | .numberMultiply, _ => .number
  | .numberSubtract, _ => .number
  | .listConstruct, _ => .any
  | .listLength, _ => .list
  | .lazor, _ => .entity
  | .rocketLauncher, _ => .vector
  | .orbital, _ => .vector
  | .plasma, port => if port = "threshold" then .number else .vector
  | .shock, _ => .list
  | .projectTile, _ => .vector
  | .storage, port => if port = "slot" then .number else .any
  | .debug, _ => .any

/-- The type of the value that the evaluation of a kind ends with. -/
def yields : Kind → ValueType
  | .constantNumber => .number
  | .closestEntity => .entity
  | .nearbyEntities => .list
  | .entityPosition => .vector
  | .entityDirection => .vector
  | .vectorCreate => .vector
  | .vectorNegate => .vector
  | .vectorLength => .number
  | .vectorMultiply => .vector
  | .numberMultiply => .number
  | .numberSubtract => .number
  | .listConstruct => .list
  | .listLength => .number
  | .lazor => .empty
  | .rocketLauncher => .empty
  | .orbital => .empty
  | .plasma => .number
  | .shock => .number
  | .projectTile => .empty
  | .storage => .any
  | .debug => .empty

end Kind

namespace Catalogue

/-- The descriptor of a kind that a catalogue holds. -/
theorem find_eq_ok_iff {c : Catalogue} {name : String} {d : Descriptor} :
    c.find name = .ok d ↔ ∃ k, Kind.ofName? name = some k ∧ c.kinds.get? k = some d := by
  rw [find]
  cases h : (Kind.ofName? name).bind c.kinds.get? with
  | none =>
    refine ⟨nofun, fun ⟨k, hk, hd⟩ => ?_⟩
    rw [hk, Option.bind_some, hd] at h
    cases h
  | some d' =>
    rw [Option.bind_eq_some_iff] at h
    obtain ⟨k, hk, hd⟩ := h
    refine ⟨fun e => ⟨k, hk, hd.trans (congrArg some (Except.ok.inj e))⟩, fun ⟨k', hk', hd'⟩ => ?_⟩
    obtain rfl := Option.some.inj (hk.symm.trans hk')
    exact congrArg Except.ok (Option.some.inj (hd.symm.trans hd'))

/-- A name is unknown if no kind in the catalogue has it. -/
theorem find_eq_error_iff {c : Catalogue} {name : String} {e : UnknownKind} :
    c.find name = .error e ↔ (∀ k ∈ c.kinds.keys, k.name ≠ name) ∧ e = ⟨name, c.names⟩ := by
  rw [find]
  cases h : (Kind.ofName? name).bind c.kinds.get? with
  | none =>
    have hunknown (k : Kind) (hk : k ∈ c.kinds.keys) : k.name ≠ name := by
      rintro rfl
      rw [Kind.ofName?_name, Option.bind_some] at h
      exact Table.get?_eq_none_iff.mp h hk
    exact ⟨fun e => ⟨hunknown, (Except.error.inj e).symm⟩,
      fun ⟨_, e⟩ => congrArg Except.error e.symm⟩
  | some d =>
    obtain ⟨k, hk, hd⟩ := Option.bind_eq_some_iff.mp h
    refine ⟨nofun, fun ⟨hunknown, _⟩ => ?_⟩
    have hmem := Table.contains_iff_mem_keys.mp (Option.isSome_iff_exists.mpr ⟨d, hd⟩)
    exact absurd (Kind.name_of_ofName? hk) (hunknown k hmem)

/-- The entries of the built-in catalogue, one by one. -/
theorem builtin_entries : ∀ e ∈ builtin.kinds.entries, e.2.kind = e.1 ∧
    e.2.output.type = e.1.yields ∧ ∀ p ∈ e.2.inputs, p.type = e.1.asks p.name := by
  decide +kernel

/-- **The built-in catalogue declares what the evaluations do**, for every kind. -/
theorem builtin_declares (k : Kind) : ∃ d, builtin.kinds.get? k = some d ∧ d.kind = k ∧
    d.output.type = k.yields ∧ ∀ p ∈ d.inputs, p.type = k.asks p.name := by
  have hkeys : ∀ k ∈ Kind.all, k ∈ builtin.kinds.keys := by decide +kernel
  obtain ⟨d, hd⟩ := Option.ne_none_iff_exists'.mp fun h =>
    Table.get?_eq_none_iff.mp h (hkeys k k.mem_all)
  exact ⟨d, hd, builtin_entries _ (Table.mem_entries_of_get? hd)⟩

/-- A descriptor is found by the name of its kind alone. -/
theorem name_of_find {name : String} {d : Descriptor} (h : builtin.find name = .ok d) :
    d.kind.name = name := by
  obtain ⟨k, hk, hd⟩ := find_eq_ok_iff.mp h
  rw [(builtin_entries _ (Table.mem_entries_of_get? hd)).1]
  exact Kind.name_of_ofName? hk

/-- The ports of a kind are told apart by their ids. -/
theorem nodup_ports_of_find {name : String} {d : Descriptor} (h : builtin.find name = .ok d) :
    (d.inputs.map Port.id).Nodup := by
  have hentries : ∀ e ∈ builtin.kinds.entries, (e.2.inputs.map Port.id).Nodup := by decide +kernel
  obtain ⟨k, -, hd⟩ := find_eq_ok_iff.mp h
  exact hentries _ (Table.mem_entries_of_get? hd)

/-- In the built-in catalogue they are told apart by their names just as well. -/
theorem nodup_port_names_of_find {name : String} {d : Descriptor} (h : builtin.find name = .ok d) :
    (d.inputs.map Port.name).Nodup := by
  have hentries : ∀ e ∈ builtin.kinds.entries, (e.2.inputs.map Port.name).Nodup := by
    decide +kernel
  obtain ⟨k, -, hd⟩ := find_eq_ok_iff.mp h
  exact hentries _ (Table.mem_entries_of_get? hd)

/-- A contract stands under a name exactly if a descriptor is found by it. -/
theorem get?_contracts_eq_some_iff {c : Catalogue} {name : String} {k : Contract} :
    c.contracts.get? name = some k ↔ ∃ d, c.find name = .ok d ∧ d.contract = k := by
  have hget (es : List (Kind × Descriptor)) :
      (Table.mk (es.map fun e => (e.1.name, e.2.contract))).get? name =
        ((Kind.ofName? name).bind (Table.mk es).get?).map Descriptor.contract := by
    cases hkind : Kind.ofName? name with
    | none =>
      refine Table.get?_eq_none_iff.mpr fun hname => ?_
      obtain ⟨_, he, rfl⟩ := List.mem_map.mp hname
      obtain ⟨e, -, rfl⟩ := List.mem_map.mp he
      cases (e.1.ofName?_name).symm.trans hkind
    | some kind =>
      obtain rfl := Kind.name_of_ofName? hkind
      rw [Option.bind_some]
      induction es with
      | nil => rfl
      | cons e es ih =>
        have hnames : e.1.name = kind.name ↔ e.1 = kind := by
          refine ⟨fun h => ?_, fun h => congrArg Kind.name h⟩
          exact Option.some.inj ((e.1.ofName?_name).symm.trans (h ▸ kind.ofName?_name))
        rw [List.map_cons, Table.get?_mk_cons, Table.get?_mk_cons, ih]
        simp only [hnames]
        split <;> rfl
  rw [show c.contracts.get? name = _ from hget c.kinds.entries, Option.map_eq_some_iff]
  refine exists_congr fun d => and_congr_left fun _ => ?_
  rw [find_eq_ok_iff, Option.bind_eq_some_iff]

theorem size_contracts (c : Catalogue) : c.contracts.size = c.kinds.size :=
  List.length_map _

end Catalogue

/-- The contract of a descriptor has the names of its input ports. -/
theorem Descriptor.mem_contract_iff {d : Descriptor} {port : String} :
    port ∈ d.contract.inputs.keys ↔ ∃ p ∈ d.inputs, p.name = port := by
  rw [contract, (Table.keys_ofList _).2, List.map_map, List.mem_map]
  rfl

/-- A port in the contract of a descriptor is found by its name. -/
theorem Descriptor.exists_input_of_mem_contract {d : Descriptor} {port : String}
    (h : port ∈ d.contract.inputs.keys) : ∃ p, d.input? port = some p := by
  obtain ⟨p, hp, rfl⟩ := mem_contract_iff.mp h
  refine Option.isSome_iff_exists.mp (List.find?_isSome.mpr ⟨p, hp, ?_⟩)
  exact decide_eq_true rfl

/-- A port that was found has the name that was asked for. -/
theorem Descriptor.input?_eq_some {d : Descriptor} {port : String} {p : Port}
    (h : d.input? port = some p) : p ∈ d.inputs ∧ p.name = port := by
  have hname := List.find?_some h
  exact ⟨List.mem_of_find?_eq_some h, of_decide_eq_true hname⟩

end HexPulse
