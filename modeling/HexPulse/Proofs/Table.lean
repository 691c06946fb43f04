import HexPulse.Table
import Mathlib.Algebra.GroupWithZero.Nat
import Mathlib.Data.List.Nodup

/-!
# HexPulse — Proofs — Table

Tables whose keys are ids.  `Keyed t id` says that every value stands under its own id and that
no id comes twice; such a table is known by its values, a look-up is membership
(`Keyed.get?_eq_some_iff`), and a change under one key is a map over the values
(`Keyed.modify_eq_mapValues`).  All writes keep a table keyed.
-/

namespace HexPulse.Table

variable {κ ν μ : Type}

/-! ### Maps and filters -/

@[simp] theorem keys_mapValues (f : ν → μ) (t : Table κ ν) : (t.mapValues f).keys = t.keys := by
  simp [mapValues, keys]

@[simp] theorem values_mapValues (f : ν → μ) (t : Table κ ν) :
    (t.mapValues f).values = t.values.map f := by
  simp [mapValues, values]

@[simp] theorem mapValues_mapValues {ξ : Type} (g : μ → ξ) (f : ν → μ) (t : Table κ ν) :
    (t.mapValues f).mapValues g = t.mapValues fun v => g (f v) := by
  simp [mapValues]

/-- Maps that agree on the values of a table agree on the table. -/
theorem mapValues_congr {t : Table κ ν} {f g : ν → μ} (h : ∀ v ∈ t.values, f v = g v) :
    t.mapValues f = t.mapValues g := by
  refine congrArg Table.mk (List.map_congr_left fun e he => ?_)
  rw [h e.2 (List.mem_map_of_mem he)]

/-- A map that leaves every value alone leaves the table alone. -/
theorem mapValues_eq_self {t : Table κ ν} {f : ν → ν} (h : ∀ v ∈ t.values, f v = v) :
    t.mapValues f = t := by
  rw [mapValues_congr (g := id) h]
  simp [mapValues]

theorem length_keys (t : Table κ ν) : t.keys.length = t.size := by
  simp [keys, size]

theorem values_filter (p : ν → Bool) (t : Table κ ν) :
    (t.filter fun _ v => p v).values = t.values.filter p := by
  rw [values, values, List.filter_map]
  rfl

theorem filter_filter (p q : κ → ν → Bool) (t : Table κ ν) :
    (t.filter p).filter q = t.filter fun k v => p k v && q k v := by
  refine congrArg Table.mk (List.filter_filter.trans (List.filter_congr fun e _ => ?_))
  rw [Bool.and_comm]

theorem filter_congr {t : Table κ ν} {p q : ν → Bool} (h : ∀ v ∈ t.values, p v = q v) :
    (t.filter fun _ v => p v) = t.filter fun _ v => q v :=
  congrArg Table.mk (List.filter_congr fun e he => h e.2 (List.mem_map_of_mem he))

variable [DecidableEq κ]

/-- A look-up after a map is one before it. -/
theorem get?_mapValues (f : ν → μ) (t : Table κ ν) (k : κ) :
    (t.mapValues f).get? k = (t.get? k).map f := by
  obtain ⟨es⟩ := t
  induction es with
  | nil => rfl
  | cons e es ih =>
    rw [mapValues, List.map_cons, get?_mk_cons, get?_mk_cons]
    split
    · rfl
    · exact ih

@[simp] theorem contains_mapValues (f : ν → μ) (t : Table κ ν) (k : κ) :
    (t.mapValues f).contains k = t.contains k := by
  rw [contains, get?_mapValues, Option.isSome_map]
  rfl

/-- A change that a map does not see. -/
theorem mapValues_modify {t : Table κ ν} {k : κ} {g : ν → ν} {f : ν → μ} (h : ∀ v, f (g v) = f v) :
    (t.modify k g).mapValues f = t.mapValues f := by
  refine congrArg Table.mk ?_
  rw [modify, List.map_map]
  refine List.map_congr_left fun e _ => ?_
  rw [Function.comp_apply]
  split
  · rw [h]
  · rfl

/-! ### Look-up as membership -/

theorem mem_entries_of_get? {t : Table κ ν} {k : κ} {v : ν} (h : t.get? k = some v) :
    (k, v) ∈ t.entries := by
  obtain ⟨e, he, rfl⟩ := Option.map_eq_some_iff.mp h
  have hk : e.1 = k := by simpa using List.find?_some he
  rw [← hk]
  exact List.mem_of_find?_eq_some he

/-- What is found is one of the values. -/
theorem mem_values_of_get? {t : Table κ ν} {k : κ} {v : ν} (h : t.get? k = some v) :
    v ∈ t.values :=
  List.mem_map_of_mem (mem_entries_of_get? h)

/-- Where no key comes twice, a look-up finds every entry. -/
theorem get?_eq_some_iff_mem {t : Table κ ν} (ht : t.keys.Nodup) {k : κ} {v : ν} :
    t.get? k = some v ↔ (k, v) ∈ t.entries := by
  refine ⟨mem_entries_of_get?, fun hv => ?_⟩
  have hk : k ∈ t.keys := List.mem_map_of_mem (f := (·.1)) hv
  obtain ⟨w, hw⟩ := Option.ne_none_iff_exists'.mp fun h => get?_eq_none_iff.mp h hk
  have he := List.inj_on_of_nodup_map ht (mem_entries_of_get? hw) hv rfl
  rw [hw, (Prod.mk.inj he).2]

/-- The order of the entries does not matter to a look-up. -/
theorem get?_eq_of_perm {t u : Table κ ν} (h : u.entries.Perm t.entries) (ht : t.keys.Nodup)
    (k : κ) : u.get? k = t.get? k := by
  have hu : u.keys.Nodup := (h.map Prod.fst).nodup_iff.mpr ht
  refine Option.ext fun v => ?_
  rw [get?_eq_some_iff_mem hu, get?_eq_some_iff_mem ht, h.mem_iff]

/-! ### What the writes do to the keys -/

/-- A change adds no key, and takes none away. -/
theorem keys_modify (t : Table κ ν) (k : κ) (f : ν → ν) : (t.modify k f).keys = t.keys := by
  rw [modify, keys, keys, List.map_map]
  refine List.map_congr_left fun e _ => ?_
  rw [Function.comp_apply]
  split <;> rfl

theorem keys_erase (t : Table κ ν) (k : κ) : (t.erase k).keys = t.keys.filter (· ≠ k) := by
  simp only [erase, keys, List.filter_map]
  rfl

/-- A new key goes to the end. -/
theorem entries_insert_of_notMem {t : Table κ ν} {k : κ} (hk : k ∉ t.keys) (v : ν) :
    (t.insert k v).entries = t.entries ++ [(k, v)] := by
  rw [insert, if_neg fun h => hk (contains_iff_mem_keys.mp h)]

/-- A key that is present keeps its place. -/
theorem insert_of_mem {t : Table κ ν} {k : κ} (hk : k ∈ t.keys) (v : ν) :
    t.insert k v = t.modify k fun _ => v := by
  rw [insert, if_pos (contains_iff_mem_keys.mpr hk)]

/-- A new key goes to the end. -/
theorem values_insert_of_notMem {t : Table κ ν} {k : κ} (hk : k ∉ t.keys) (v : ν) :
    (t.insert k v).values = t.values ++ [v] := by
  rw [values, entries_insert_of_notMem hk, List.map_append]
  rfl

theorem mem_keys_insert {t : Table κ ν} {k j : κ} {v : ν} :
    j ∈ (t.insert k v).keys ↔ j ∈ t.keys ∨ j = k := by
  by_cases hk : k ∈ t.keys
  · rw [insert_of_mem hk, keys_modify]
    refine ⟨.inl, fun h => ?_⟩
    rcases h with h | rfl
    · exact h
    · exact hk
  · rw [keys, entries_insert_of_notMem hk, List.map_append, List.mem_append]
    exact or_congr_right List.mem_singleton

theorem nodup_keys_insert {t : Table κ ν} (h : t.keys.Nodup) (k : κ) (v : ν) :
    (t.insert k v).keys.Nodup := by
  by_cases hk : k ∈ t.keys
  · rwa [insert_of_mem hk, keys_modify]
  · rw [keys, entries_insert_of_notMem hk, List.map_append, List.nodup_append]
    refine ⟨h, List.nodup_singleton _, fun a ha b hb e => hk ?_⟩
    obtain rfl : b = k := List.mem_singleton.mp hb
    exact e ▸ ha

theorem modify_of_notMem {t : Table κ ν} {k : κ} (hk : k ∉ t.keys) (f : ν → ν) :
    t.modify k f = t := by
  refine congrArg Table.mk ((List.map_congr_left fun e he => if_neg fun h => ?_).trans
    (List.map_id t.entries))
  rw [← h] at hk
  exact hk (List.mem_map_of_mem he)

/-- Two changes under one key are one change. -/
theorem modify_modify (t : Table κ ν) (k : κ) (f g : ν → ν) :
    (t.modify k f).modify k g = t.modify k fun v => g (f v) := by
  rw [modify, modify, modify, List.map_map]
  refine congrArg Table.mk (List.map_congr_left fun e _ => ?_)
  by_cases he : e.1 = k <;> simp [he]

/-- A change of what was just written is another thing written. -/
theorem modify_insert_self (t : Table κ ν) (k : κ) (v : ν) (f : ν → ν) :
    (t.insert k v).modify k f = t.insert k (f v) := by
  by_cases hk : k ∈ t.keys
  · rw [insert_of_mem hk, insert_of_mem hk, modify, modify, modify, List.map_map]
    refine congrArg Table.mk (List.map_congr_left fun e _ => ?_)
    by_cases he : e.1 = k <;> simp [he]
  · have hmk (v : ν) : t.insert k v = ⟨t.entries ++ [(k, v)]⟩ :=
      congrArg Table.mk (entries_insert_of_notMem hk v)
    have hrest : t.entries.map (fun e => if e.1 = k then (e.1, f e.2) else e) = t.entries :=
      congrArg Table.entries (modify_of_notMem hk f)
    rw [hmk, hmk, modify, List.map_append, hrest]
    simp

/-- What was written in order stands under the keys that were written. -/
theorem keys_ofList (es : List (κ × ν)) :
    (ofList es).keys.Nodup ∧ ∀ k, k ∈ (ofList es).keys ↔ k ∈ es.map (·.1) := by
  suffices ∀ t : Table κ ν, t.keys.Nodup →
      (es.foldl (fun t e => t.insert e.1 e.2) t).keys.Nodup ∧
        ∀ k, k ∈ (es.foldl (fun t e => t.insert e.1 e.2) t).keys ↔
          k ∈ t.keys ∨ k ∈ es.map (·.1) by
    obtain ⟨hnodup, hmem⟩ := this .empty List.nodup_nil
    exact ⟨hnodup, fun k => (hmem k).trans (or_iff_right List.not_mem_nil)⟩
  induction es with
  | nil => exact fun t ht => ⟨ht, fun k => (or_iff_left List.not_mem_nil).symm⟩
  | cons e es ih =>
    intro t ht
    obtain ⟨hnodup, hmem⟩ := ih (t.insert e.1 e.2) (nodup_keys_insert ht _ _)
    refine ⟨hnodup, fun k => (hmem k).trans ?_⟩
    rw [mem_keys_insert, List.map_cons, List.mem_cons, or_assoc]

/-- Counting one more under a key makes the sum of a table one more. -/
theorem sum_values_count {t : Table κ Nat} (ht : t.keys.Nodup) (k : κ) :
    (t.insert k ((t.get? k).getD 0 + 1)).values.sum = t.values.sum + 1 := by
  by_cases hk : k ∈ t.keys
  · obtain ⟨v, hv⟩ := Option.ne_none_iff_exists'.mp fun h => get?_eq_none_iff.mp h hk
    rw [insert_of_mem hk, hv, Option.getD_some]
    obtain ⟨es⟩ := t
    induction es with
    | nil => cases hk
    | cons e es ih =>
      obtain ⟨hnot, hes⟩ : e.1 ∉ (Table.mk es).keys ∧ (Table.mk es).keys.Nodup :=
        List.nodup_cons.mp ht
      rw [get?_mk_cons] at hv
      by_cases he : e.1 = k
      · subst he
        rw [if_pos rfl] at hv
        obtain rfl := Option.some.inj hv
        -- the key does not come again behind its entry
        have hrest := congrArg (fun t => t.values.sum) (modify_of_notMem hnot fun _ => e.2 + 1)
        simp only [modify, values, List.map_cons, List.sum_cons, if_true] at hrest ⊢
        omega
      · rw [if_neg he] at hv
        have hmem : k ∈ (Table.mk es).keys := (List.mem_cons.mp hk).resolve_left fun e' => he e'.symm
        have := ih hes hmem hv
        simp only [modify, values, List.map_cons, List.sum_cons, he, if_false] at this ⊢
        omega
  · rw [get?_eq_none_iff.mpr hk, Option.getD_none, values_insert_of_notMem hk]
    simp

/-- Counting elements under their keys adds to each key those that have it. -/
theorem getD_foldl_count (f : μ → κ) (k : κ) (xs : List μ) (t : Table κ Nat) :
    ((xs.foldl (fun t x => t.insert (f x) ((t.get? (f x)).getD 0 + 1)) t).get? k).getD 0 =
      (t.get? k).getD 0 + xs.countP fun x => f x = k := by
  induction xs generalizing t with
  | nil => rfl
  | cons x xs ih =>
    rw [List.foldl_cons, ih, List.countP_cons]
    by_cases hx : f x = k
    · rw [hx, get?_insert_self, if_pos (decide_eq_true rfl), Option.getD_some]
      omega
    · rw [get?_insert_of_ne _ _ (Ne.symm hx), if_neg (by simpa using hx), Nat.add_zero]

/-- Counting elements under their keys adds one to the sum for each of them. -/
theorem sum_foldl_count (f : μ → κ) (xs : List μ) {t : Table κ Nat} (ht : t.keys.Nodup) :
    (xs.foldl (fun t x => t.insert (f x) ((t.get? (f x)).getD 0 + 1)) t).values.sum =
      t.values.sum + xs.length := by
  induction xs generalizing t with
  | nil => rfl
  | cons x xs ih =>
    rw [List.foldl_cons, ih (nodup_keys_insert ht _ _), sum_values_count ht, List.length_cons]
    omega

/-- After a change a value is as it was, or changed. -/
theorem mem_values_modify {t : Table κ ν} {k : κ} {f : ν → ν} {w : ν}
    (h : w ∈ (t.modify k f).values) : w ∈ t.values ∨ ∃ v ∈ t.values, w = f v := by
  rw [modify, values, List.map_map, List.mem_map] at h
  obtain ⟨e, he, rfl⟩ := h
  have hv : e.2 ∈ t.values := List.mem_map_of_mem he
  rw [Function.comp_apply]
  split
  · exact .inr ⟨e.2, hv, rfl⟩
  · exact .inl hv

/-- A value after a write is the one written, or stood there before. -/
theorem mem_values_insert {t : Table κ ν} {k : κ} {v w : ν} (h : w ∈ (t.insert k v).values) :
    w = v ∨ w ∈ t.values := by
  by_cases hk : k ∈ t.keys
  · rw [insert_of_mem hk] at h
    rcases mem_values_modify h with h | ⟨_, -, h⟩
    · exact .inr h
    · exact .inl h
  · rw [values_insert_of_notMem hk, List.mem_append] at h
    rcases h with h | h
    · exact .inr h
    · exact .inl (List.mem_singleton.mp h)

theorem mem_values_of_mem_erase {t : Table κ ν} {k : κ} {v : ν} (h : v ∈ (t.erase k).values) :
    v ∈ t.values := by
  obtain ⟨e, he, rfl⟩ := List.mem_map.mp h
  exact List.mem_map_of_mem (List.mem_of_mem_filter he)

/-! ### Tables that are keyed by ids -/

/-- Every value stands under its own id, and no id comes twice. -/
structure Keyed (t : Table Int ν) (id : ν → Int) : Prop where
  nodup : t.keys.Nodup
  id_eq : ∀ e ∈ t.entries, id e.2 = e.1

namespace Keyed

variable {t : Table Int ν} {id : ν → Int}

theorem empty (id : ν → Int) : (Table.empty : Table Int ν).Keyed id :=
  ⟨List.nodup_nil, fun _ he => absurd he List.not_mem_nil⟩

/-- The keys are the ids of the values, in their order. -/
theorem keys_eq (h : t.Keyed id) : t.keys = t.values.map id := by
  rw [keys, values, List.map_map]
  exact List.map_congr_left fun e he => (h.id_eq e he).symm

theorem entries_eq (h : t.Keyed id) : t.entries = t.values.map fun v => (id v, v) := by
  rw [values, List.map_map]
  refine (List.map_id t.entries).symm.trans (List.map_congr_left fun e he => ?_)
  rw [Function.comp_apply, h.id_eq e he]
  rfl

/-- What is found under an id is the value that has it. -/
theorem get?_eq_some_iff (h : t.Keyed id) {k : Int} {v : ν} :
    t.get? k = some v ↔ v ∈ t.values ∧ id v = k := by
  rw [get?_eq_some_iff_mem h.nodup, h.entries_eq, List.mem_map]
  constructor
  · rintro ⟨w, hw, he⟩
    obtain ⟨rfl, rfl⟩ := Prod.mk.inj he
    exact ⟨hw, rfl⟩
  · rintro ⟨hv, rfl⟩
    exact ⟨v, hv, rfl⟩

/-- The keys are the ids of the values. -/
theorem mem_keys_iff (h : t.Keyed id) {k : Int} : k ∈ t.keys ↔ ∃ v ∈ t.values, id v = k := by
  rw [h.keys_eq, List.mem_map]

theorem get?_id (h : t.Keyed id) {v : ν} (hv : v ∈ t.values) : t.get? (id v) = some v :=
  h.get?_eq_some_iff.mpr ⟨hv, rfl⟩

theorem id_of_get? (h : t.Keyed id) {k : Int} {v : ν} (hv : t.get? k = some v) : id v = k :=
  (h.get?_eq_some_iff.mp hv).2

/-- An id belongs to one value. -/
theorem eq_of_id_eq (h : t.Keyed id) {v w : ν} (hv : v ∈ t.values) (hw : w ∈ t.values)
    (e : id v = id w) : v = w :=
  Option.some.inj ((h.get?_id hv).symm.trans (e ▸ h.get?_id hw))

/-- The ids of the values that pass a test, in the order of the table. -/
theorem map_filter_sublist (h : t.Keyed id) (p : ν → Bool) :
    ((t.values.filter p).map id).Sublist t.keys := by
  rw [h.keys_eq]
  exact List.Sublist.map _ List.filter_sublist

/-- An id is one of those that pass a test if its value passes it. -/
theorem id_mem_map_filter_iff (h : t.Keyed id) {p : ν → Bool} {v : ν} (hv : v ∈ t.values) :
    id v ∈ (t.values.filter p).map id ↔ p v = true := by
  simp only [List.mem_map, List.mem_filter]
  refine ⟨fun ⟨w, ⟨hw, hp⟩, e⟩ => ?_, fun hp => ⟨v, ⟨hv, hp⟩, rfl⟩⟩
  rwa [← h.eq_of_id_eq hw hv e]

theorem mapValues {id' : μ → Int} (h : t.Keyed id) {f : ν → μ}
    (hf : ∀ v ∈ t.values, id' (f v) = id v) : (t.mapValues f).Keyed id' := by
  refine ⟨(keys_mapValues f t).symm ▸ h.nodup, fun e he => ?_⟩
  obtain ⟨d, hd, rfl⟩ := List.mem_map.mp he
  exact (hf d.2 (List.mem_map_of_mem hd)).trans (h.id_eq d hd)

theorem of_mapValues {id' : μ → Int} {f : ν → μ} (h : (t.mapValues f).Keyed id') :
    t.Keyed fun v => id' (f v) := by
  refine ⟨keys_mapValues f t ▸ h.nodup, fun e he => ?_⟩
  exact h.id_eq (e.1, f e.2) (List.mem_map_of_mem (f := fun e => (e.1, f e.2)) he)

/-- A change under one key is a map over the values. -/
theorem modify_eq_mapValues (h : t.Keyed id) (k : Int) (f : ν → ν) :
    t.modify k f = t.mapValues fun v => if id v = k then f v else v := by
  refine congrArg Table.mk (List.map_congr_left fun e he => ?_)
  simp only [h.id_eq e he]
  split <;> rfl

theorem filter (h : t.Keyed id) (p : Int → ν → Bool) : (t.filter p).Keyed id :=
  ⟨(List.Sublist.map _ List.filter_sublist).nodup h.nodup,
    fun e he => h.id_eq e (List.mem_of_mem_filter he)⟩

theorem erase (h : t.Keyed id) (k : Int) : (t.erase k).Keyed id :=
  ⟨keys_erase t k ▸ h.nodup.filter _, fun e he => h.id_eq e (List.mem_of_mem_filter he)⟩

/-- A value that is written under its own id is keyed. -/
theorem insert (h : t.Keyed id) {v : ν} : (t.insert (id v) v).Keyed id := by
  by_cases hk : id v ∈ t.keys
  · rw [insert_of_mem hk, h.modify_eq_mapValues]
    refine h.mapValues fun w _ => ?_
    split
    · next e => exact e.symm
    · rfl
  · refine ⟨nodup_keys_insert h.nodup _ _, fun e he => ?_⟩
    rw [entries_insert_of_notMem hk, List.mem_append, List.mem_singleton] at he
    rcases he with he | rfl
    · exact h.id_eq e he
    · rfl

/-- A value is gone from the table exactly if its id was erased. -/
theorem mem_values_erase (h : t.Keyed id) {k : Int} {v : ν} :
    v ∈ (t.erase k).values ↔ v ∈ t.values ∧ id v ≠ k := by
  by_cases hk : id v = k
  · refine ⟨fun hv => ?_, fun hv => absurd hk hv.2⟩
    have := (h.erase k).get?_id hv
    rw [hk, get?_erase_self] at this
    cases this
  · have e := get?_erase_of_ne t hk
    refine ⟨fun hv => ⟨?_, hk⟩, fun hv => ?_⟩
    · exact mem_values_of_get? (e ▸ (h.erase k).get?_id hv)
    · exact mem_values_of_get? (e ▸ h.get?_id hv.1)

end Keyed

end HexPulse.Table
