/-!
# HexPulse — Table

A table keeps its entries in the order in which their keys first arrived.  Writing to a key that
is present moves nothing; a key that was erased and comes again goes to the end.  All facts are
stated through `get?` and the list of keys.
-/

namespace HexPulse

/-- Entries in order of arrival. -/
structure Table (κ ν : Type) where
  entries : List (κ × ν)
  deriving Repr

namespace Table

variable {κ ν μ : Type}

def empty : Table κ ν := ⟨[]⟩

instance : Inhabited (Table κ ν) := ⟨empty⟩

def keys (t : Table κ ν) : List κ := t.entries.map (·.1)

def values (t : Table κ ν) : List ν := t.entries.map (·.2)

def size (t : Table κ ν) : Nat := t.entries.length

/-- The same keys with other values. -/
def mapValues (f : ν → μ) (t : Table κ ν) : Table κ μ := ⟨t.entries.map fun e => (e.1, f e.2)⟩

/-- The entries that pass a test, in order. -/
def filter (p : κ → ν → Bool) (t : Table κ ν) : Table κ ν := ⟨t.entries.filter fun e => p e.1 e.2⟩

variable [DecidableEq κ]

/-- The value under a key. -/
def get? (t : Table κ ν) (k : κ) : Option ν := (t.entries.find? fun e => e.1 = k).map (·.2)

def contains (t : Table κ ν) (k : κ) : Bool := (t.get? k).isSome

/-- Changes the value under a key, if there is one. -/
def modify (t : Table κ ν) (k : κ) (f : ν → ν) : Table κ ν :=
  ⟨t.entries.map fun e => if e.1 = k then (e.1, f e.2) else e⟩

/-- Writes a value under a key: in place if the key is present, else at the end. -/
def insert (t : Table κ ν) (k : κ) (v : ν) : Table κ ν :=
  if t.contains k then t.modify k fun _ => v else ⟨t.entries ++ [(k, v)]⟩

/-- Removes a key. -/
def erase (t : Table κ ν) (k : κ) : Table κ ν := ⟨t.entries.filter fun e => e.1 ≠ k⟩

/-- The table that arises from writing the entries in order. -/
def ofList (entries : List (κ × ν)) : Table κ ν := entries.foldl (fun t e => t.insert e.1 e.2) empty

@[simp] theorem get?_empty (k : κ) : (empty : Table κ ν).get? k = none := rfl

theorem get?_mk_cons (e : κ × ν) (es : List (κ × ν)) (k : κ) :
    (Table.mk (e :: es)).get? k = if e.1 = k then some e.2 else (Table.mk es).get? k := by
  by_cases h : e.1 = k <;> simp [get?, h]

theorem get?_eq_none_iff {t : Table κ ν} {k : κ} : t.get? k = none ↔ k ∉ t.keys := by
  simp only [get?, keys, Option.map_eq_none_iff, List.find?_eq_none, List.mem_map, not_exists,
    not_and, decide_eq_true_eq]

theorem contains_iff_mem_keys {t : Table κ ν} {k : κ} : t.contains k = true ↔ k ∈ t.keys := by
  rw [contains, Option.isSome_iff_ne_none, ne_eq, get?_eq_none_iff, Decidable.not_not]

theorem get?_modify_self (t : Table κ ν) (k : κ) (f : ν → ν) :
    (t.modify k f).get? k = (t.get? k).map f := by
  obtain ⟨es⟩ := t
  induction es with
  | nil => rfl
  | cons e es ih =>
    simp only [modify, List.map_cons] at ih ⊢
    by_cases h : e.1 = k <;> simp [get?_mk_cons, h, ih]

theorem get?_modify_of_ne (t : Table κ ν) {k j : κ} (f : ν → ν) (h : j ≠ k) :
    (t.modify k f).get? j = t.get? j := by
  obtain ⟨es⟩ := t
  induction es with
  | nil => rfl
  | cons e es ih =>
    simp only [modify, List.map_cons] at ih ⊢
    by_cases hk : e.1 = k
    · simp [hk, get?_mk_cons, ih, h.symm]
    · simp [hk, get?_mk_cons, ih]

theorem get?_mk_append (es fs : List (κ × ν)) (k : κ) :
    (Table.mk (es ++ fs)).get? k = ((Table.mk es).get? k).or ((Table.mk fs).get? k) := by
  simp only [get?, List.find?_append]
  cases es.find? fun e => e.1 = k <;> rfl

theorem get?_insert_self (t : Table κ ν) (k : κ) (v : ν) : (t.insert k v).get? k = some v := by
  unfold insert
  split
  · next h =>
    rw [get?_modify_self]
    obtain ⟨w, hw⟩ := Option.isSome_iff_exists.1 h
    simp [hw]
  · next h =>
    have h : t.get? k = none := by simpa [contains] using h
    rw [get?_mk_append, show (Table.mk t.entries).get? k = none from h]
    simp [get?_mk_cons]

theorem get?_insert_of_ne (t : Table κ ν) {k j : κ} (v : ν) (h : j ≠ k) :
    (t.insert k v).get? j = t.get? j := by
  unfold insert
  split
  · exact get?_modify_of_ne t _ h
  · rw [get?_mk_append]
    have : (Table.mk [(k, v)]).get? j = none := by simp [get?, h.symm]
    rw [this]
    cases ht : t.get? j <;> simp_all

theorem get?_erase_self (t : Table κ ν) (k : κ) : (t.erase k).get? k = none := by
  rw [get?_eq_none_iff]
  simp [erase, keys]

theorem get?_erase_of_ne (t : Table κ ν) {k j : κ} (h : j ≠ k) : (t.erase k).get? j = t.get? j := by
  obtain ⟨es⟩ := t
  induction es with
  | nil => rfl
  | cons e es ih =>
    simp only [erase, ne_eq, decide_not] at ih ⊢
    by_cases hk : e.1 = k
    · simp [hk, get?_mk_cons, ih, h.symm]
    · simp [hk, get?_mk_cons, ih]

end Table

end HexPulse
