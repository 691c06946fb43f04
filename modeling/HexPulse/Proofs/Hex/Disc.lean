import HexPulse.Hex.Region
import HexPulse.Proofs.Table

/-!
# HexPulse — Proofs — Hex — Disc

The cells of a region.  `Hex.disc` lists them column by column, with bounds that are computed for
each column; `Hex.mem_disc_iff` says that these are the cells within the radius, `Hex.nodup_disc`
that no cell is listed twice.  Writing entries never changes which cells a region holds
(`Region.keys_put`).
-/

namespace HexPulse

theorem mem_intRange {low high x : Int} : x ∈ intRange low high ↔ low ≤ x ∧ x ≤ high := by
  simp only [intRange, List.mem_map, List.mem_range]
  constructor
  · rintro ⟨n, hn, rfl⟩
    omega
  · intro h
    exact ⟨(x - low).toNat, by omega, by omega⟩

theorem nodup_intRange (low high : Int) : (intRange low high).Nodup := by
  refine List.nodup_range.map fun a b h => ?_
  omega

namespace Hex

/-- A distance bounds the three cube coordinates of the difference. -/
theorem distance_le_iff {a b : Hex} {n : Int} : (a.distance b : Int) ≤ n ↔
    (-n ≤ a.q - b.q ∧ a.q - b.q ≤ n) ∧ (-n ≤ a.r - b.r ∧ a.r - b.r ≤ n) ∧
      (-n ≤ (a - b).s ∧ (a - b).s ≤ n) := by
  simp only [distance, length, s, q_sub, r_sub]
  omega

/-- **The disc holds the cells within its radius.** -/
theorem mem_disc_iff {center c : Hex} {radius : Int} :
    c ∈ center.disc radius ↔ (c.distance center : Int) ≤ radius := by
  simp only [disc, List.mem_flatMap, List.mem_map, mem_intRange, distance_le_iff, s, q_sub, r_sub]
  constructor
  · rintro ⟨dq, hq, dr, hr, rfl⟩
    dsimp only
    omega
  · intro h
    refine ⟨c.q - center.q, by omega, c.r - center.r, by omega, ?_⟩
    ext
    · dsimp only
      omega
    · dsimp only
      omega

/-- No cell is listed twice. -/
theorem nodup_disc (center : Hex) (radius : Int) : (center.disc radius).Nodup := by
  refine List.nodup_flatMap.mpr ⟨fun dq _ => ?_, ?_⟩
  · refine (nodup_intRange _ _).map fun a b h => ?_
    have := congrArg Hex.r h
    dsimp only at this
    omega
  · -- cells of two columns differ in their first coordinate
    refine (nodup_intRange _ _).imp fun {a b} hab c ha hb => ?_
    obtain ⟨_, -, rfl⟩ := List.mem_map.mp ha
    obtain ⟨_, -, h⟩ := List.mem_map.mp hb
    have := congrArg Hex.q h
    dsimp only at this
    omega

end Hex

namespace Region

variable {β : Type}

theorem keys_ofFn (center : Hex) (radius : Int) (f : Hex → β) :
    (ofFn center radius f).cells.keys = center.disc radius := by
  simp [ofFn, Table.keys, Function.comp_def]

/-- A write leaves the cells of a region alone. -/
@[simp] theorem keys_put (m : Region β) (c : Hex) (v : β) :
    (m.put c v).cells.keys = m.cells.keys :=
  Table.keys_modify _ _ _

theorem get?_put_self {m : Region β} {c : Hex} {u : β} (h : m.get? c = some u) (v : β) :
    (m.put c v).get? c = some v := by
  have := Table.get?_modify_self m.cells c fun _ => v
  rwa [show m.cells.get? c = some u from h] at this

theorem get?_put_of_ne (m : Region β) {c c' : Hex} (v : β) (h : c' ≠ c) :
    (m.put c v).get? c' = m.get? c' :=
  Table.get?_modify_of_ne m.cells _ h

/-- An entry after a write is the one written, or stood there before. -/
theorem get?_put_eq_some {m : Region β} {c c' : Hex} {v w : β} (h : (m.put c v).get? c' = some w) :
    (c' = c ∧ w = v) ∨ (c' ≠ c ∧ m.get? c' = some w) := by
  by_cases e : c' = c
  · subst e
    cases hm : m.get? c' with
    | none =>
      have := Table.get?_modify_self m.cells c' fun _ => v
      rw [show m.cells.get? c' = none from hm] at this
      cases this.symm.trans h
    | some u =>
      rw [get?_put_self hm] at h
      exact .inl ⟨rfl, (Option.some.inj h).symm⟩
  · rw [get?_put_of_ne _ _ e] at h
    exact .inr ⟨e, h⟩

end Region

end HexPulse
