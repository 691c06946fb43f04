import HexPulse.Proofs.Board.Reachable
import HexPulse.Proofs.Hex.Line
import HexPulse.Proofs.Scalar.Exact
import Mathlib.Data.List.GetD

/-!
# HexPulse — Proofs — Target — Spawning

Where targets appear, and how they come to their heart.  A choice among the cells of a ring is one of
them (`Draws.choice_lt`), so a target appears on a cell of the map; it takes the line to the heart,
which is a shortest route where arithmetic is exact, and does not leave the map
(`SpawnSettings.roll_arrives`).

* `Hex.lines_and_arrivals`: lines are shortest routes, and so are the paths of targets that appear.
-/

namespace HexPulse

/-! ### A roll -/

theorem Draws.choice_lt {α : Type} (d : Draws α) {n : Nat} (hn : 0 < n) : (d.choice n).1 < n := by
  rw [Draws.choice]
  split
  · next x _ _ =>
    have hlow := Int.emod_nonneg x (Int.natCast_ne_zero.mpr hn.ne')
    have hhigh := Int.emod_lt_of_pos x (Int.natCast_pos.mpr hn)
    dsimp only
    omega
  · exact Nat.mod_lt _ hn
  · exact hn

/-- A target that appeared around a heart: on a cell of the ring and of the map, with a shortest route
to the heart that does not leave the map. -/
structure Arrival (s : SpawnSettings ℚ) (l : Layout ℚ) (inBounds : Hex → Bool) (heart : Hex)
    (t : Target ℚ) (cell : Hex) : Prop where
  ring : cell ∈ heart.ring s.spawnRing
  inside : inBounds cell
  stands : l.centre cell = .ok t.position
  route : Hex.Route cell heart t.path
  shortest : t.path.length = cell.distance heart + 1
  within : ∀ c ∈ t.path, inBounds c

/-- A roll around a heart of a map meets no fault, and the target that it yields arrives. -/
theorem SpawnSettings.roll_arrives {β : Type} (s : SpawnSettings ℚ) (l : Layout ℚ) (m : Region β)
    {heart : Hex} (hheart : m.inBounds heart) (ts : Targets ℚ) (draws : Draws ℚ) :
    (s.roll l m.inBounds heart ts draws).fault = none ∧
      ∀ t, (s.roll l m.inBounds heart ts draws).state.spawned = some t →
        ∃ cell, Arrival s l m.inBounds heart t cell := by
  rw [SpawnSettings.roll]
  split
  · dsimp only
    split
    · exact ⟨rfl, nofun⟩
    · split
      · exact ⟨rfl, nofun⟩
      · next hring =>
        have hpos := List.length_pos_iff.mpr (mt List.isEmpty_iff.mpr hring)
        have hindex := draws.chance.2.choice_lt hpos
        -- the ring is not empty, so that the choice is one of its cells and never the heart
        obtain ⟨cell, hcell, hchosen⟩ : ∃ cell ∈ (heart.ring s.spawnRing).filter m.inBounds,
            ((heart.ring s.spawnRing).filter m.inBounds).getD (draws.chance.2.choice
              ((heart.ring s.spawnRing).filter m.inBounds).length).1 heart = cell :=
          ⟨_, List.getElem_mem hindex, List.getD_eq_getElem _ _ hindex⟩
        obtain ⟨hcell, hinside⟩ := List.mem_filter.mp hcell
        obtain ⟨path, hline, hroute, hlength⟩ := Hex.line_route cell heart
        obtain ⟨p, hp⟩ : ∃ p, l.centre cell = .ok p := ⟨_, rfl⟩
        simp only [hchosen, hline, Targets.addAt, hp, Bind.bind, Except.bind, Pure.pure, Except.pure,
          Progress.ofExcept]
        refine ⟨rfl, fun t ht => ?_⟩
        obtain rfl := Option.some.inj ht
        refine ⟨cell, hcell, hinside, hp, hroute, hlength, fun c hc => ?_⟩
        exact decide_eq_true (hroute.between hlength (of_decide_eq_true hinside)
          (of_decide_eq_true hheart) c hc)
  · exact ⟨rfl, nofun⟩

/-- A region of radius four, and a target that is sure to appear. -/
def outpost : Region Unit := .ofFn .origin 4 fun _ => ()

def besieging : SpawnSettings ℚ := { SpawnSettings.standard with spawnChance := 1.0, spawnRing := 4 }

/-- Hearts stand on the board. -/
theorem Board.Reachable.inBounds_heart {α : Type} [Scalar α] {catalogue : Catalogue}
    {settings : Settings α} {b : Board α} (h : b.Reachable catalogue settings) {v : Heart α}
    (hv : v ∈ b.hearts.values) : b.inBounds v.position = true := by
  have hdistance := h.distance_heart_le hv
  rw [← h.extent.1, ← h.extent.2] at hdistance
  exact decide_eq_true hdistance

/-- **Lines are shortest routes**, with the nudge and all ties, where arithmetic is exact: from
neighbour to neighbour, with as many steps as the distance, which no other route comes below; and they
leave no map that holds both ends.  So where a target appears around a heart of the map, its path
leads from a cell of the map to the heart without leaving the map. -/
theorem Hex.lines_and_arrivals :
    (∀ a b : Hex, ∃ path, Hex.line ℚ a b = .ok path ∧
      path.head? = some a ∧ path.getLast? = some b ∧ path.length = a.distance b + 1 ∧
      (path.IsChain fun c c' => c.distance c' = 1) ∧
      (∀ other, Hex.Route a b other → path.length ≤ other.length) ∧
      ∀ (β : Type) (m : Region β), m.inBounds a → m.inBounds b → ∀ c ∈ path, m.inBounds c) ∧
    (∀ (s : SpawnSettings ℚ) (l : Layout ℚ) (β : Type) (m : Region β) (heart : Hex)
      (ts : Targets ℚ) (draws : Draws ℚ), m.inBounds heart →
        (s.roll l m.inBounds heart ts draws).fault = none ∧
          ∀ t, (s.roll l m.inBounds heart ts draws).state.spawned = some t →
            ∃ cell, Arrival s l m.inBounds heart t cell) ∧
    ∀ (catalogue : Catalogue) (settings : Settings ℚ) (b : Board ℚ),
      b.Reachable catalogue settings → ∀ v ∈ b.hearts.values, b.inBounds v.position := by
  refine ⟨fun a b => ?_, fun s l β m heart ts draws hheart => s.roll_arrives l m hheart ts draws,
    fun catalogue settings b h v hv => h.inBounds_heart hv⟩
  obtain ⟨path, hline, hroute, hlength⟩ := Hex.line_route a b
  refine ⟨path, hline, hroute.head, hroute.last, hlength, hroute.chain, fun other hother => ?_,
    fun β m ha hb c hc => ?_⟩
  · rw [hlength]
    exact hother.distance_lt_length
  · exact decide_eq_true (hroute.between hlength (of_decide_eq_true ha) (of_decide_eq_true hb) c hc)

/-- A target that appears around a heart near the border, and comes along it. -/
theorem Hex.lines_and_arrivals_outpost :
    outpost.inBounds ⟨2, -1⟩ ∧ ∃ t cell,
      (besieging.roll ⟨1.0⟩ outpost.inBounds ⟨2, -1⟩ .empty ⟨[0.0], [3], .none⟩).state.spawned =
        some t ∧
      Arrival besieging ⟨1.0⟩ outpost.inBounds ⟨2, -1⟩ t cell := by
  have hheart : outpost.inBounds ⟨2, -1⟩ := by decide
  obtain ⟨t, ht⟩ := Option.isSome_iff_exists.mp (by decide +kernel :
    (besieging.roll ⟨1.0⟩ outpost.inBounds ⟨2, -1⟩ .empty ⟨[0.0], [3], .none⟩).state.spawned.isSome)
  obtain ⟨cell, hcell⟩ := (Hex.lines_and_arrivals.2.1 besieging ⟨1.0⟩ Unit outpost ⟨2, -1⟩ .empty
    ⟨[0.0], [3], .none⟩ hheart).2 t ht
  exact ⟨hheart, t, cell, ht, hcell⟩

end HexPulse
