import HexPulse.Proofs.Hex.Disc
import HexPulse.Proofs.Hex.Nearest
import HexPulse.Proofs.Hex.Ring
import HexPulse.Proofs.Outcome

/-!
# HexPulse — Proofs — Hex — Line

The cells on the straight line between two cells, where arithmetic is exact.  Each cell is found on
its own, from a point on the line, and a cell that contains a point is off by at most two thirds in
the height towards any side (`Hex.Contains.abs_rise_sub_le`).  Towards the side that is farthest out
the points come up by one with each step, up to the nudge, so the cells do (`Hex.Traced.height`).
Towards the next side they come up by one at most, and so do the cells (`Hex.Traced.next_height`).
Ties do not matter, and neither does the nudge, as long as it is small.

* `Hex.line_route`: a line is a shortest route.
* `Hex.Route.between`: a shortest route stays within every disc that holds both of its ends.
-/

namespace HexPulse

/-! ### Routes -/

namespace Hex

/-- A way from one cell to another, from neighbour to neighbour, both ends included. -/
structure Route (a b : Hex) (path : List Hex) : Prop where
  head : path.head? = some a
  last : path.getLast? = some b
  chain : path.IsChain fun c c' => c.distance c' = 1

namespace Route

variable {a b c : Hex} {path : List Hex}

/-- No route is shorter than the distance of its ends. -/
theorem distance_lt_length (h : Route a b path) : a.distance b < path.length := by
  induction path generalizing a with
  | nil => cases h.head
  | cons x rest ih =>
    obtain rfl := Option.some.inj h.head
    cases rest with
    | nil =>
      have hzero : x.distance b = 0 := distance_eq_zero_iff.mpr (Option.some.inj h.last)
      rw [hzero]
      exact Nat.one_pos
    | cons y rest =>
      obtain ⟨hstep, hchain⟩ := List.isChain_cons_cons.mp h.chain
      have hrest := ih ⟨rfl, List.getLast?_cons_cons ▸ h.last, hchain⟩
      have htriangle := distance_triangle x y b
      rw [List.length_cons]
      omega

/-- The two parts of a route. -/
theorem split {before after : List Hex} (h : Route a b (before ++ c :: after)) :
    Route a c (before ++ [c]) ∧ Route c b (c :: after) := by
  have hlast := h.last
  rw [List.getLast?_append_of_ne_nil _ (List.cons_ne_nil c after)] at hlast
  obtain ⟨hbefore, hafter, hjoin⟩ := List.isChain_append.mp h.chain
  refine ⟨⟨?_, List.getLast?_concat, ?_⟩, rfl, hlast, hafter⟩
  · have hhead := h.head
    cases before <;> exact hhead
  · refine List.isChain_append.mpr ⟨hbefore, List.isChain_singleton c, fun x hx y hy => ?_⟩
    exact hjoin x hx y hy

/-- On a shortest route no way is lost at any cell. -/
theorem distance_add (h : Route a b path) (hlength : path.length = a.distance b + 1)
    (hc : c ∈ path) : a.distance c + c.distance b = a.distance b := by
  obtain ⟨before, after, rfl⟩ := List.append_of_mem hc
  obtain ⟨hto, hfrom⟩ := h.split
  have hto := hto.distance_lt_length
  have hfrom := hfrom.distance_lt_length
  have htriangle := distance_triangle a c b
  simp only [List.length_append, List.length_cons, List.length_nil] at hlength hto hfrom
  omega

end Route

/-- Where no way is lost, none is lost in any of the three cube coordinates. -/
theorem natAbs_add_of_between {a b c : Hex} (h : a.distance c + c.distance b = a.distance b) :
    (a.q - c.q).natAbs + (c.q - b.q).natAbs = (a.q - b.q).natAbs ∧
      (a.r - c.r).natAbs + (c.r - b.r).natAbs = (a.r - b.r).natAbs ∧
      (a.s - c.s).natAbs + (c.s - b.s).natAbs = (a.s - b.s).natAbs := by
  have htwice (x y : Hex) : 2 * x.distance y =
      (x.q - y.q).natAbs + (x.r - y.r).natAbs + (x.s - y.s).natAbs := by
    rw [distance, two_mul_length, s_sub]
    rfl
  have htriangle (x y z : Int) : (x - y).natAbs ≤ (x - z).natAbs + (z - y).natAbs := by
    rw [← sub_add_sub_cancel x z y]
    exact Int.natAbs_add_le _ _
  have hac := htwice a c
  have hcb := htwice c b
  have hab := htwice a b
  have hq := htriangle a.q b.q c.q
  have hr := htriangle a.r b.r c.r
  have hs := htriangle a.s b.s c.s
  refine ⟨?_, ?_, ?_⟩ <;> linarith

/-- Discs are convex: where no way is lost, each cube coordinate stays between those of the ends. -/
theorem distance_le_of_between {a b c center : Hex} {n : Int}
    (h : a.distance c + c.distance b = a.distance b) (ha : (a.distance center : Int) ≤ n)
    (hb : (b.distance center : Int) ≤ n) : (c.distance center : Int) ≤ n := by
  have hbetween {x y z k : Int} (h : (x - z).natAbs + (z - y).natAbs = (x - y).natAbs)
      (hx : -n ≤ x - k ∧ x - k ≤ n) (hy : -n ≤ y - k ∧ y - k ≤ n) : -n ≤ z - k ∧ z - k ≤ n := by
    omega
  rw [distance_le_iff, s_sub] at ha hb ⊢
  obtain ⟨hq, hr, hthird⟩ := natAbs_add_of_between h
  exact ⟨hbetween hq ha.1 hb.1, hbetween hr ha.2.1 hb.2.1, hbetween hthird ha.2.2 hb.2.2⟩

/-- A shortest route stays within every disc that holds both of its ends. -/
theorem Route.between {a b center : Hex} {path : List Hex} (h : Route a b path)
    (hlength : path.length = a.distance b + 1) {n : Int} (ha : (a.distance center : Int) ≤ n)
    (hb : (b.distance center : Int) ≤ n) : ∀ c ∈ path, (c.distance center : Int) ≤ n :=
  fun _ hc => distance_le_of_between (h.distance_add hlength hc) ha hb

end Hex

/-! ### Heights of fractional coordinates -/

namespace Direction

/-- How far out a fractional coordinate lies towards the side that is walked in a direction. -/
def rise : Direction → ℚ → ℚ → ℚ
  | .north, q, _ => -q
  | .northEast, q, r => -q - r
  | .southEast, _, r => -r
  | .south, q, _ => q
  | .southWest, q, r => q + r
  | .northWest, _, r => r

theorem rise_next_next (d : Direction) (q r : ℚ) :
    d.next.next.rise q r = d.next.rise q r - d.rise q r := by
  cases d <;> simp only [next, rise] <;> ring

theorem abs_rise_le (d : Direction) {x : ℚ} (hx : 0 ≤ x) : |d.rise x x| ≤ 2 * x := by
  cases d <;> simp only [rise] <;> exact abs_le.mpr ⟨by linarith, by linarith⟩

end Direction

namespace Hex
open Direction

/-- The error in the height towards one side and the next together, for any side. -/
theorem Contains.abs_rise_add_le {c : Hex} {q r : ℚ} (h : c.Contains q r) (d : Direction) :
    |(d.rise q r - d.height c) + (d.next.rise q r - d.next.height c)| ≤ 1 := by
  have hqr := abs_le.mp h.qr
  have hrs := abs_le.mp h.rs
  have hsq := abs_le.mp h.sq
  rw [abs_le]
  cases d <;> simp only [next, rise, height] <;> push_cast <;> constructor <;> linarith

/-- A cell that contains a point is off by at most two thirds in any height. -/
theorem Contains.abs_rise_sub_le {c : Hex} {q r : ℚ} (h : c.Contains q r) (d : Direction) :
    |d.rise q r - d.height c| ≤ 2 / 3 := by
  have hfirst := abs_le.mp (h.abs_rise_add_le d)
  have hthird := abs_le.mp (h.abs_rise_add_le d.next.next)
  simp only [rise_next_next, height_next_next] at hthird
  push_cast at hthird
  exact abs_le.mpr ⟨by linarith, by linarith⟩

/-- A point that is almost at an integer height lies in a cell of this height. -/
theorem Contains.height_eq {c : Hex} {q r : ℚ} (h : c.Contains q r) {d : Direction} {k : Int}
    (hk : |d.rise q r - k| < 1 / 3) : d.height c = k := by
  have hheight := abs_le.mp (h.abs_rise_sub_le d)
  have hk := abs_lt.mp hk
  have hsmall : |((d.height c - k : Int) : ℚ)| < 1 := by
    push_cast
    exact abs_lt.mpr ⟨by linarith, by linarith⟩
  have hzero : |d.height c - k| < 1 := by exact_mod_cast hsmall
  exact sub_eq_zero.mp (Int.abs_lt_one_iff.mp hzero)

/-! ### The points of a line -/

/-- A coordinate of a point on a line, so many steps of so many from its first end. -/
def coordinate (x y : Int) (steps i : Nat) : ℚ :=
  (x + nudge) + ((y + nudge) - (x + nudge)) * i / steps

theorem line_eq {a b : Hex} (h : a.distance b ≠ 0) : line ℚ a b =
    (List.range (a.distance b + 1)).mapM fun i =>
      nearest (coordinate a.q b.q (a.distance b) i) (coordinate a.r b.r (a.distance b) i) := by
  have hsample (cell : Nat → Except Fault Hex) (count : Nat) :
      sample cell count 0 [] = (List.range count).mapM cell := by
    rw [sample_eq_mapM, List.range_eq_range']
    cases (List.range' 0 count).mapM cell <;> rfl
  rw [line, if_neg h]
  exact hsample _ _

theorem nudge_eq : (nudge : ℚ) = 1 / 1000000 := by
  rw [nudge]
  norm_num

theorem rise_coordinate (d : Direction) (a b : Hex) (n i : Nat) :
    d.rise (coordinate a.q b.q n i) (coordinate a.r b.r n i) =
      d.height a + d.height (b - a) * i / n + d.rise nudge nudge := by
  cases d <;> simp only [coordinate, rise, height, s, q_sub, r_sub] <;> push_cast <;> ring

/-- The nudge is too small to matter. -/
theorem abs_rise_nudge_lt (d : Direction) : |d.rise nudge nudge| < 1 / 3 := by
  have hnudge := d.abs_rise_le (x := nudge) (by rw [nudge_eq]; norm_num)
  rw [nudge_eq] at hnudge ⊢
  linarith

/-- Cells that contain the points on a line, one by one. -/
def Traced (a b : Hex) (cell : Nat → Hex) : Prop :=
  ∀ i, (cell i).Contains (coordinate a.q b.q (a.distance b) i)
    (coordinate a.r b.r (a.distance b) i)

theorem exists_traced {a b : Hex} (h : a.distance b ≠ 0) : ∃ cell, Traced a b cell ∧
    line ℚ a b = .ok ((List.range (a.distance b + 1)).map cell) := by
  choose cell hnearest hcontains using fun i : Nat => exists_nearest_contains
    (coordinate a.q b.q (a.distance b) i) (coordinate a.r b.r (a.distance b) i)
  refine ⟨cell, hcontains, ?_⟩
  rw [line_eq h, funext hnearest]
  exact List.mapM_pure

namespace Traced

variable {a b : Hex} {cell : Nat → Hex} (ht : Traced a b cell)
include ht

/-- Where the line is at an integer height, so is the cell. -/
theorem height_eq {d : Direction} {i : Nat} {k : Int}
    (hk : (d.height (b - a) * i / a.distance b : ℚ) = k) : d.height (cell i) = d.height a + k := by
  refine (ht i).height_eq ?_
  have hrise : d.rise (coordinate a.q b.q (a.distance b) i) (coordinate a.r b.r (a.distance b) i) -
      ((d.height a + k : Int) : ℚ) = d.rise nudge nudge := by
    rw [rise_coordinate, hk]
    push_cast
    ring
  rw [hrise]
  exact abs_rise_nudge_lt d

theorem first : cell 0 = a := by
  have hheight (d : Direction) : d.height (cell 0) = d.height a :=
    (ht.height_eq (k := 0) (by simp)).trans (add_zero _)
  exact eq_of_height_eq (hheight .north) (hheight _)

theorem last (hne : a.distance b ≠ 0) : cell (a.distance b) = b := by
  have hheight (d : Direction) : d.height (cell (a.distance b)) = d.height b := by
    have hn : ((a.distance b : Nat) : ℚ) ≠ 0 := by exact_mod_cast hne
    rw [ht.height_eq (mul_div_cancel_right₀ _ hn), ← height_add]
    exact congrArg d.height (eq_add_iff.mpr rfl).symm
  exact eq_of_height_eq (hheight .north) (hheight _)

/-- Towards a side that is as far out as the line is long, each cell is one higher than the last. -/
theorem height (hne : a.distance b ≠ 0) {d : Direction}
    (hd : d.height (b - a) = a.distance b) (i : Nat) :
    d.height (cell i) = d.height a + i := by
  have hn : ((a.distance b : Nat) : ℚ) ≠ 0 := by exact_mod_cast hne
  refine ht.height_eq ?_
  rw [hd]
  push_cast
  exact mul_div_cancel_left₀ _ hn

/-- A height on the line and that of the cell differ by a half at most, up to the nudge. -/
theorem abs_next_sub_le (hne : a.distance b ≠ 0) {d : Direction}
    (hd : d.height (b - a) = a.distance b) (i : Nat) :
    |2 * (d.next.height a + d.next.height (b - a) * i / a.distance b + d.next.rise nudge nudge -
      d.next.height (cell i)) - d.rise nudge nudge| ≤ 1 := by
  have hn : ((a.distance b : Nat) : ℚ) ≠ 0 := by exact_mod_cast hne
  have herror := (ht i).abs_rise_add_le d.next
  have hrise : (d.height (b - a) * i / a.distance b : ℚ) = i := by
    rw [hd]
    push_cast
    exact mul_div_cancel_left₀ _ hn
  rw [rise_next_next, height_next_next, ht.height hne hd, rise_coordinate, rise_coordinate,
    hrise] at herror
  push_cast at herror
  refine le_of_eq_of_le (congrArg abs ?_) herror
  ring

/-- Towards the next side a line comes up by one at most, and so do its cells.  Their heights are
known up to a half only, which leaves room for one step too many if the line stays at its height
there, or at that towards the side behind; but then the cells do as well. -/
theorem next_height (hne : a.distance b ≠ 0) {d : Direction}
    (hd : d.height (b - a) = a.distance b) (i : Nat) :
    d.next.height (cell (i + 1)) = d.next.height (cell i) ∨
      d.next.height (cell (i + 1)) = d.next.height (cell i) + 1 := by
  have hlength : (b - a).length = a.distance b := distance_comm b a
  have hnext := natAbs_height_le d.next (b - a)
  have hturn := natAbs_height_le d.next.next (b - a)
  rw [height_next_next, hd] at hturn
  -- a line along one of the sides of its sector keeps a height all the way; in between, the height
  -- rises by less than one in each step, and is known up to less than one
  obtain hlow | hhigh | hbetween : d.next.height (b - a) = 0 ∨
      d.next.height (b - a) = a.distance b ∨
      (0 < d.next.height (b - a) ∧ d.next.height (b - a) < a.distance b) := by omega
  · have hstay (j : Nat) : d.next.height (cell j) = d.next.height a + 0 :=
      ht.height_eq (by rw [hlow]; simp)
    exact .inl ((hstay (i + 1)).trans (hstay i).symm)
  · have hstay (j : Nat) : d.next.next.height (cell j) = d.next.next.height a + 0 :=
      ht.height_eq (by rw [height_next_next, hhigh, hd]; simp)
    have hi := hstay i
    have hsucc := hstay (i + 1)
    rw [height_next_next, ht.height hne hd] at hi hsucc
    push_cast at hsucc
    exact .inr (by omega)
  · have hn : (0 : ℚ) < a.distance b := by exact_mod_cast Nat.pos_of_ne_zero hne
    have hi := abs_le.mp (ht.abs_next_sub_le hne hd i)
    have hsucc := abs_le.mp (ht.abs_next_sub_le hne hd (i + 1))
    have hslope : 0 < (d.next.height (b - a) / a.distance b : ℚ) := by
      exact div_pos (by exact_mod_cast hbetween.1) hn
    have hslope' : (d.next.height (b - a) / a.distance b : ℚ) < 1 := by
      rw [div_lt_one hn]
      exact_mod_cast hbetween.2
    have hstep : (d.next.height (b - a) * (i + 1 : Nat) / a.distance b : ℚ) =
        d.next.height (b - a) * i / a.distance b + d.next.height (b - a) / a.distance b := by
      push_cast
      ring
    rw [hstep] at hsucc
    have hmore : ((d.next.height (cell i) - 1 : Int) : ℚ) < d.next.height (cell (i + 1)) := by
      push_cast
      linarith
    have hless : (d.next.height (cell (i + 1)) : ℚ) < (d.next.height (cell i) + 2 : Int) := by
      push_cast
      linarith
    have hmore := Int.cast_lt.mp hmore
    have hless := Int.cast_lt.mp hless
    omega

/-- Two cells in a row are neighbours. -/
theorem distance_succ (hne : a.distance b ≠ 0) (i : Nat) :
    (cell i).distance (cell (i + 1)) = 1 := by
  have hlength : (b - a).length = a.distance b := distance_comm b a
  obtain ⟨d, hd⟩ := exists_height_eq_length (b - a)
  rw [hlength] at hd
  have hheight : d.height (cell (i + 1)) = d.height (cell i) + 1 := by
    rw [ht.height hne hd, ht.height hne hd]
    push_cast
    ring
  -- one step up is one to the side's first corner, or to its last
  obtain hnext | hnext := ht.next_height hne hd i
  · have hcell : cell (i + 1) = (cell i).neighbor d.next.opposite := by
      refine eq_of_height_eq (d := d) ?_ ?_
      · rw [hheight, neighbor, height_add]
        exact congrArg _ (height_corner d).symm
      · rw [hnext, neighbor, height_add]
        exact (add_zero _).symm.trans (congrArg _ (next_height_corner d).symm)
    rw [hcell, distance_neighbor]
  · have hcell : cell (i + 1) = (cell i).neighbor d.next.next.opposite := by
      refine eq_of_height_eq (d := d) ?_ ?_
      · rw [hheight, neighbor, height_add]
        cases d <;> rfl
      · rw [hnext, neighbor, height_add]
        exact congrArg _ (height_corner d.next).symm
    rw [hcell, distance_neighbor]

theorem route (hne : a.distance b ≠ 0) :
    Route a b ((List.range (a.distance b + 1)).map cell) := by
  refine ⟨?_, ?_, ?_⟩
  · rw [List.range_succ_eq_map]
    exact congrArg some ht.first
  · rw [List.range_succ, List.map_append]
    exact List.getLast?_concat.trans (congrArg some (ht.last hne))
  · rw [List.isChain_map, List.isChain_range_succ]
    exact fun i _ => ht.distance_succ hne i

end Traced

/-- **A line is a shortest route**, wherever it goes. -/
theorem line_route (a b : Hex) : ∃ path, line ℚ a b = .ok path ∧ Route a b path ∧
    path.length = a.distance b + 1 := by
  by_cases h : a.distance b = 0
  · obtain rfl := distance_eq_zero_iff.mp h
    refine ⟨[a], if_pos h, ⟨rfl, rfl, List.isChain_singleton a⟩, ?_⟩
    rw [h]
    rfl
  · obtain ⟨cell, ht, hline⟩ := exists_traced h
    exact ⟨_, hline, ht.route h, by rw [List.length_map, List.length_range]⟩

end Hex

end HexPulse
