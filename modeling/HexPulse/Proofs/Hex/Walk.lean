import HexPulse.Hex
import Mathlib.Order.Bounds.Defs

/-!
# HexPulse — Proofs — Hex — Walk

Walks from neighbour to neighbour, and the distance.  The distance is computed from coordinates; one
step changes it by at most one (`Hex.distance_neighbor` and the triangle inequality), and where two
cells differ some step makes it one less (`Hex.exists_closer`).  So it is the length of a shortest
walk (`Hex.distance_geodesic`).
-/

namespace HexPulse

/-- No two directions lead to the same neighbour. -/
theorem Direction.offset_injective : Function.Injective Direction.offset := by
  intro d d'
  cases d <;> cases d' <;> decide

namespace Hex

@[simp] theorem s_add (a b : Hex) : (a + b).s = a.s + b.s := by
  simp only [s, q_add, r_add]
  omega

theorem s_sub (a b : Hex) : (a - b).s = a.s - b.s := by
  simp only [s, q_sub, r_sub]
  omega

theorem eq_add_iff {a b c : Hex} : b = a + c ↔ c = b - a := by
  simp only [Hex.ext_iff, q_add, r_add, q_sub, r_sub]
  omega

/-! ### The distance as a metric -/

/-- The cube coordinates sum up to zero, so that half the sum of their magnitudes is an integer. -/
theorem two_mul_length (c : Hex) : 2 * c.length = c.q.natAbs + c.r.natAbs + c.s.natAbs := by
  simp only [length, s]
  omega

/-- Only a cell itself is at no distance. -/
theorem distance_eq_zero_iff {a b : Hex} : a.distance b = 0 ↔ a = b := by
  simp only [distance, length, s, Hex.ext_iff, q_sub, r_sub]
  omega

theorem distance_comm (a b : Hex) : a.distance b = b.distance a := by
  simp only [distance, length, s, q_sub, r_sub]
  omega

/-- The sum of two ways is no longer than both. -/
theorem length_add_le (a b : Hex) : (a + b).length ≤ a.length + b.length := by
  have hq := Int.natAbs_add_le a.q b.q
  have hr := Int.natAbs_add_le a.r b.r
  have hs := Int.natAbs_add_le a.s b.s
  have ha := two_mul_length a
  have hb := two_mul_length b
  have hab := two_mul_length (a + b)
  rw [q_add, r_add, s_add] at hab
  omega

/-- No way over a third cell is shorter. -/
theorem distance_triangle (a b c : Hex) : a.distance c ≤ a.distance b + b.distance c := by
  have hsum : a - c = (a - b) + (b - c) := by
    simp only [Hex.ext_iff, q_sub, r_sub, q_add, r_add]
    omega
  rw [distance, hsum]
  exact length_add_le (a - b) (b - c)

/-! ### Neighbours -/

theorem mem_neighbors_iff {a b : Hex} : b ∈ a.neighbors ↔ ∃ d, b = a.neighbor d := by
  simp only [neighbors, List.mem_map, Direction.mem_all, true_and]
  exact exists_congr fun d => eq_comm

theorem distance_neighbor (a : Hex) (d : Direction) : a.distance (a.neighbor d) = 1 := by
  simp only [distance, neighbor, length, s, q_sub, r_sub, q_add, r_add]
  cases d <;> dsimp only [Direction.offset] <;> omega

/-- Two cells that differ have cube coordinates with opposite signs in their difference: a step in
between makes both of them smaller. -/
theorem exists_closer {a b : Hex} (h : a ≠ b) :
    ∃ d, (a.neighbor d).distance b + 1 = a.distance b := by
  have hsigns : (0 < b.q - a.q ∧ b.r - a.r < 0) ∨ (0 < b.q - a.q ∧ b.s - a.s < 0) ∨
      (0 < b.r - a.r ∧ b.s - a.s < 0) ∨ (b.q - a.q < 0 ∧ 0 < b.r - a.r) ∨
      (b.q - a.q < 0 ∧ 0 < b.s - a.s) ∨ (b.r - a.r < 0 ∧ 0 < b.s - a.s) := by
    simp only [ne_eq, Hex.ext_iff, s] at h ⊢
    omega
  simp only [distance, neighbor, length, s, q_sub, r_sub, q_add, r_add] at hsigns ⊢
  rcases hsigns with hsigns | hsigns | hsigns | hsigns | hsigns | hsigns
  · exact ⟨.northEast, by dsimp only [Direction.offset]; omega⟩
  · exact ⟨.southEast, by dsimp only [Direction.offset]; omega⟩
  · exact ⟨.south, by dsimp only [Direction.offset]; omega⟩
  · exact ⟨.southWest, by dsimp only [Direction.offset]; omega⟩
  · exact ⟨.northWest, by dsimp only [Direction.offset]; omega⟩
  · exact ⟨.north, by dsimp only [Direction.offset]; omega⟩

/-- The cells at a distance of one are the neighbours. -/
theorem exists_neighbor_iff {a b : Hex} : (∃ d, b = a.neighbor d) ↔ a.distance b = 1 := by
  constructor
  · rintro ⟨d, rfl⟩
    exact distance_neighbor a d
  · intro h
    have hne : a ≠ b := mt distance_eq_zero_iff.mpr (by omega)
    obtain ⟨d, hd⟩ := exists_closer hne
    exact ⟨d, (distance_eq_zero_iff.mp (by omega)).symm⟩

/-- A direction to a cell is found exactly if the cell is the neighbour there. -/
theorem directionTo?_eq_some_iff {a b : Hex} {d : Direction} :
    a.directionTo? b = some d ↔ b = a.neighbor d := by
  rw [neighbor, eq_add_iff, directionTo?]
  constructor
  · intro h
    simpa using List.find?_some h
  · intro h
    cases hfound : Direction.all.find? fun d => d.offset = b - a with
    | none => exact absurd (decide_eq_true h) (List.find?_eq_none.mp hfound d d.mem_all)
    | some d' =>
      have hoffset : d'.offset = b - a := by simpa using List.find?_some hfound
      rw [Direction.offset_injective (hoffset.trans h.symm)]

/-! ### Walks -/

@[simp] theorem walkEnd_nil (c : Hex) : c.walkEnd [] = c := rfl

@[simp] theorem walkEnd_cons (c : Hex) (d : Direction) (ds : List Direction) :
    c.walkEnd (d :: ds) = (c.neighbor d).walkEnd ds := rfl

/-- No walk is shorter than the distance of its ends. -/
theorem distance_walkEnd_le (a : Hex) (ds : List Direction) :
    a.distance (a.walkEnd ds) ≤ ds.length := by
  induction ds generalizing a with
  | nil => exact Nat.le_of_eq (distance_eq_zero_iff.mpr rfl)
  | cons d ds ih =>
    calc a.distance (a.walkEnd (d :: ds))
      _ ≤ a.distance (a.neighbor d) + (a.neighbor d).distance ((a.neighbor d).walkEnd ds) :=
        distance_triangle _ _ _
      _ ≤ 1 + ds.length := Nat.add_le_add (Nat.le_of_eq (distance_neighbor a d)) (ih _)
      _ = (d :: ds).length := Nat.add_comm _ _

/-- Some walk is as short as that. -/
theorem exists_walk (a b : Hex) : ∃ ds, ds.length = a.distance b ∧ a.walkEnd ds = b := by
  induction hn : a.distance b generalizing a with
  | zero => exact ⟨[], rfl, distance_eq_zero_iff.mp hn⟩
  | succ n ih =>
    have hne : a ≠ b := mt distance_eq_zero_iff.mpr (by omega)
    obtain ⟨d, hd⟩ := exists_closer hne
    obtain ⟨ds, hlength, hend⟩ := ih (a.neighbor d) (by omega)
    exact ⟨d :: ds, congrArg (· + 1) hlength, hend⟩

/-- **The distance of two cells is the length of a shortest walk from one to the other.**  It is a
metric, and nothing is lost when half of the sum is taken; the direction to a cell is the one in which
it is a neighbour, and there is one exactly if the distance is one. -/
theorem distance_geodesic (a b : Hex) :
    IsLeast {n | ∃ ds : List Direction, ds.length = n ∧ a.walkEnd ds = b} (a.distance b) ∧
      ((a.distance b = 0 ↔ a = b) ∧ a.distance b = b.distance a ∧
        ∀ c, a.distance c ≤ a.distance b + b.distance c) ∧
      (∀ c : Hex, 2 * c.length = c.q.natAbs + c.r.natAbs + c.s.natAbs) ∧
      (∀ d, a.directionTo? b = some d ↔ b = a.neighbor d) ∧
      ((∃ d, b = a.neighbor d) ↔ a.distance b = 1) := by
  refine ⟨⟨exists_walk a b, ?_⟩, ⟨distance_eq_zero_iff, distance_comm a b, distance_triangle a b⟩,
    two_mul_length, fun d => directionTo?_eq_some_iff, exists_neighbor_iff⟩
  rintro n ⟨ds, rfl, rfl⟩
  exact distance_walkEnd_le a ds

end Hex

end HexPulse
