import HexPulse.Hex.Layout
import HexPulse.Proofs.Hex.Walk
import HexPulse.Proofs.Scalar.Continuum
import HexPulse.Proofs.Scalar.HalfEven
import Mathlib.Tactic.LinearCombination

/-!
# HexPulse — Proofs — Hex — Nearest

The cell of a fractional coordinate, where arithmetic is exact.  Three coordinates are rounded and
the one with the largest error is computed again; then no two errors are more than one apart
(`Hex.exists_nearest_contains`), and this is all that it takes for no centre to be closer
(`Hex.Contains.sqDistance_le`).  Ties in between do not matter.

Fractional coordinates are rational here.  World points are not, for the root of three; they are
real numbers (`Continuum`), and the squared distance of two is that of cells up to a factor
(`Layout.distance_pointOf`).
-/

namespace HexPulse

/-! ### Rounding three coordinates that sum up to zero -/

/-- Three errors of at most a half sum up to an integer.  If the largest of them takes this integer
on itself, no two errors are more than one apart. -/
theorem abs_sub_le_one_of_largest {x y z : ℚ} {t : Int} (hsum : x + y + z = t) (hx : |x| ≤ 1 / 2)
    (hy : |y| ≤ |x|) (hz : |z| ≤ |x|) :
    |y - z| ≤ 1 ∧ |y - (x - t)| ≤ 1 ∧ |z - (x - t)| ≤ 1 := by
  have hx' := abs_le.mp hx
  have hy' := abs_le.mp (hy.trans hx)
  have hz' := abs_le.mp (hz.trans hx)
  have hyz : |y - z| ≤ 1 := abs_le.mpr (by constructor <;> linarith)
  have hlow : -2 < t := by exact_mod_cast (by linarith : (-2 : ℚ) < t)
  have hhigh : t < 2 := by exact_mod_cast (by linarith : (t : ℚ) < 2)
  obtain rfl | rfl | rfl : t = -1 ∨ t = 0 ∨ t = 1 := by omega
  · rw [abs_of_nonpos (by push_cast at hsum; linarith : x ≤ 0)] at hy hz
    have hy := abs_le.mp hy
    have hz := abs_le.mp hz
    push_cast
    exact ⟨hyz, abs_le.mpr (by constructor <;> linarith), abs_le.mpr (by constructor <;> linarith)⟩
  · push_cast
    exact ⟨hyz, abs_le.mpr (by constructor <;> linarith), abs_le.mpr (by constructor <;> linarith)⟩
  · rw [abs_of_nonneg (by push_cast at hsum; linarith : 0 ≤ x)] at hy hz
    have hy := abs_le.mp hy
    have hz := abs_le.mp hz
    push_cast
    exact ⟨hyz, abs_le.mpr (by constructor <;> linarith), abs_le.mpr (by constructor <;> linarith)⟩

namespace Hex

/-- The fractional coordinate lies within the cell: seen from its centre, no two of the three cube
coordinates are more than one apart. -/
structure Contains (c : Hex) (q r : ℚ) : Prop where
  qr : |(q - c.q) - (r - c.r)| ≤ 1
  rs : |(r - c.r) - (-q - r - c.s)| ≤ 1
  sq : |(-q - r - c.s) - (q - c.q)| ≤ 1

/-- The squared distance of a fractional coordinate from the centre of a cell, that of neighbours
being one. -/
def sqDistance (c : Hex) (q r : ℚ) : ℚ :=
  (q - c.q) ^ 2 + (q - c.q) * (r - c.r) + (r - c.r) ^ 2

theorem Contains.of_errors {c : Hex} {q r x y z : ℚ} (hx : q - c.q = x) (hy : r - c.r = y)
    (hz : -q - r - c.s = z) (hxy : |x - y| ≤ 1) (hyz : |y - z| ≤ 1) (hzx : |z - x| ≤ 1) :
    c.Contains q r := by
  subst hx hy hz
  exact ⟨hxy, hyz, hzx⟩

theorem abs_eq (x : ℚ) : Scalar.abs x = |x| := by
  change (if x < 0 then -x else x) = |x|
  split
  · next h => exact (abs_of_neg h).symm
  · next h => exact (abs_of_nonneg (not_lt.mp h)).symm

/-- On rational numbers all three coordinates are rounded, and the cell is one of three. -/
theorem nearest_eq (q r : ℚ) :
    let nq := Scalar.nearest q
    let nr := Scalar.nearest r
    let ns := Scalar.nearest (-q - r)
    nearest q r = .ok (if |r - nr| < |q - nq| ∧ |-q - r - ns| < |q - nq| then ⟨-nr - ns, nr⟩
      else if |-q - r - ns| < |r - nr| then ⟨nq, -nq - ns⟩ else ⟨nq, nr⟩) := by
  intro nq nr ns
  rw [abs_sub_comm q, abs_sub_comm r, abs_sub_comm (-q - r), ← abs_eq, ← abs_eq, ← abs_eq,
    apply_ite Except.ok, apply_ite Except.ok]
  rfl

/-- **The cell of a fractional coordinate contains it.** -/
theorem exists_nearest_contains (q r : ℚ) : ∃ c, nearest q r = .ok c ∧ c.Contains q r := by
  refine ⟨_, nearest_eq q r, ?_⟩
  obtain ⟨hq, -⟩ := Scalar.halfEven_nearest q
  obtain ⟨hr, -⟩ := Scalar.halfEven_nearest r
  obtain ⟨hs, -⟩ := Scalar.halfEven_nearest (-q - r)
  generalize Scalar.nearest q = nq at *
  generalize Scalar.nearest r = nr at *
  generalize Scalar.nearest (-q - r) = ns at *
  obtain ⟨t, ht⟩ : ∃ t : Int, t = -nq - nr - ns := ⟨_, rfl⟩
  have hsum : (q - nq) + (r - nr) + (-q - r - ns) = t := by
    rw [ht]
    push_cast
    ring
  -- the coordinate with the largest error is made up from the other two; in each case this is the
  -- one that the lemma on errors puts first
  split_ifs with hfirst hsecond
  · obtain ⟨hrs, hrq, hsq⟩ := abs_sub_le_one_of_largest hsum hq hfirst.1.le hfirst.2.le
    rw [abs_sub_comm] at hrq
    refine .of_errors ?_ rfl ?_ hrq hrs hsq
    · rw [ht]
      push_cast
      ring
    · push_cast [s]
      ring
  · have hqr : |q - nq| ≤ |r - nr| := by
      by_contra! hlt
      exact hfirst ⟨hlt, hsecond.trans hlt⟩
    rw [add_comm (q - nq : ℚ)] at hsum
    obtain ⟨hqs, hqr, hsr⟩ := abs_sub_le_one_of_largest hsum hr hqr hsecond.le
    rw [abs_sub_comm] at hqs hsr
    refine .of_errors rfl ?_ ?_ hqr hsr hqs
    · rw [ht]
      push_cast
      ring
    · push_cast [s]
      ring
  · rw [not_lt] at hsecond
    have hqs : |q - nq| ≤ |-q - r - ns| := by
      by_contra! hlt
      exact hfirst ⟨hsecond.trans_lt hlt, hlt⟩
    rw [add_comm, ← add_assoc] at hsum
    obtain ⟨hqr, hqs, hrs⟩ := abs_sub_le_one_of_largest hsum hs hqs hsecond
    rw [abs_sub_comm] at hqs
    refine .of_errors rfl rfl ?_ hqr hrs hqs
    rw [ht]
    push_cast [s]
    ring

/-! ### No centre is closer -/

/-- A step is not longer than its square, so two that do not point against each other gain nothing
on a distance whose coordinates are at most one. -/
theorem mul_add_mul_le {m n : Int} {x y : ℚ} (hmn : 0 ≤ m * n) (hx : |x| ≤ 1) (hy : |y| ≤ 1) :
    m * x + n * y ≤ m ^ 2 + m * n + n ^ 2 := by
  have hstep {k : Int} {z : ℚ} (hz : |z| ≤ 1) : (k : ℚ) * z ≤ k ^ 2 := by
    calc (k : ℚ) * z
      _ ≤ |(k : ℚ)| * |z| := (le_abs_self _).trans (abs_mul _ _).le
      _ ≤ |(k : ℚ)| := mul_le_of_le_one_right (abs_nonneg _) hz
      _ ≤ k ^ 2 := by exact_mod_cast sq_abs k ▸ Int.le_self_sq |k|
  have hmn : (0 : ℚ) ≤ m * n := by exact_mod_cast hmn
  linarith [hstep (k := m) hx, hstep (k := n) hy]

/-- Of three integers that sum up to zero two have the same sign. -/
theorem exists_aligned (m n : Int) : 0 ≤ m * n ∨ 0 ≤ m * (-m - n) ∨ 0 ≤ n * (-m - n) := by
  by_contra! h
  have hneg := mul_neg_of_pos_of_neg (mul_pos_of_neg_of_neg h.1 h.2.1) h.2.2
  have hsquare : m * n * (m * (-m - n)) * (n * (-m - n)) = (m * n * (-m - n)) ^ 2 := by ring
  rw [hsquare] at hneg
  exact absurd (sq_nonneg _) (not_le.mpr hneg)

/-- **No centre is closer than that of a cell which contains the coordinate.** -/
theorem Contains.sqDistance_le {c : Hex} {q r : ℚ} (h : c.Contains q r) (c' : Hex) :
    c.sqDistance q r ≤ c'.sqDistance q r := by
  obtain ⟨hqr, hrs, hsq⟩ := h
  have hrq : |(r - c.r) - (q - c.q)| ≤ 1 := by rwa [abs_sub_comm]
  have hsr : |(-q - r - c.s) - (r - c.r)| ≤ 1 := by rwa [abs_sub_comm]
  have hqs : |(q - c.q) - (-q - r - c.s)| ≤ 1 := by rwa [abs_sub_comm]
  -- the way from one centre to the other goes along two of the three axes
  rcases exists_aligned (c'.q - c.q) (c'.r - c.r) with h | h | h
  · have := mul_add_mul_le h hqs hrs
    push_cast [sqDistance, s] at this ⊢
    linarith
  · have := mul_add_mul_le h hqr hsr
    push_cast [sqDistance, s] at this ⊢
    linarith
  · have := mul_add_mul_le h hrq hsq
    push_cast [sqDistance, s] at this ⊢
    linarith

theorem sqDistance_nonneg (c : Hex) (q r : ℚ) : 0 ≤ c.sqDistance q r := by
  rw [sqDistance]
  linarith [sq_nonneg ((q - c.q) + (r - c.r)), sq_nonneg (q - c.q), sq_nonneg (r - c.r)]

theorem sqDistance_self (c : Hex) : c.sqDistance c.q c.r = 0 := by
  simp [sqDistance]

theorem eq_of_sqDistance_le_zero {c c' : Hex} (h : c'.sqDistance c.q c.r ≤ 0) : c' = c := by
  rw [sqDistance] at h
  have hq : (c.q - c'.q : ℚ) ^ 2 ≤ 0 := by
    linarith [sq_nonneg ((c.q - c'.q : ℚ) + 2 * (c.r - c'.r))]
  have hr : (c.r - c'.r : ℚ) ^ 2 ≤ 0 := by
    linarith [sq_nonneg (2 * (c.q - c'.q : ℚ) + (c.r - c'.r))]
  have hq := sub_eq_zero.mp (pow_eq_zero_iff two_ne_zero |>.mp (hq.antisymm (sq_nonneg _)))
  have hr := sub_eq_zero.mp (pow_eq_zero_iff two_ne_zero |>.mp (hr.antisymm (sq_nonneg _)))
  exact Hex.ext (Int.cast_injective hq).symm (Int.cast_injective hr).symm

/-- The distance moves along with the coordinate. -/
theorem sqDistance_sub (c t : Hex) (q r : ℚ) :
    (c - t).sqDistance q r = c.sqDistance (q + t.q) (r + t.r) := by
  simp only [sqDistance, q_sub, r_sub]
  push_cast
  ring

/-- A centre is the centre of its own cell. -/
theorem nearest_self (c : Hex) : nearest (c.q : ℚ) c.r = .ok c := by
  obtain ⟨c', hnearest, hcontains⟩ := exists_nearest_contains c.q c.r
  have hle := hcontains.sqDistance_le c
  rw [sqDistance_self] at hle
  rw [hnearest, eq_of_sqDistance_le_zero hle]

/-- Where one cell is nearer than all others, it is found from everywhere. -/
theorem nearest_add {c : Hex} {q r : ℚ}
    (h : ∀ c', c' ≠ c → c.sqDistance q r < c'.sqDistance q r) (t : Hex) :
    nearest (q + t.q) (r + t.r) = .ok (c + t) := by
  obtain ⟨c', hnearest, hcontains⟩ := exists_nearest_contains (q + t.q) (r + t.r)
  have hadd : c + t - t = c := by
    simp only [Hex.ext_iff, q_add, r_add, q_sub, r_sub]
    omega
  have hsub : c' - t + t = c' := by
    simp only [Hex.ext_iff, q_add, r_add, q_sub, r_sub]
    omega
  have hle := hcontains.sqDistance_le (c + t)
  rw [← sqDistance_sub, ← sqDistance_sub, hadd] at hle
  have heq : c' - t = c := by
    by_contra hne
    exact absurd hle (not_le.mpr (h _ hne))
  rw [hnearest, ← heq, hsub]

end Hex

/-! ### The world -/

theorem Layout.pointOf_eq (l : Layout ℝ) (q r : ℝ) : @Layout.pointOf ℝ Continuum.reals l q r =
    ⟨l.hexSize * (3 / 2) * q, l.hexSize * √3 * (r + q / 2)⟩ := by
  have hthreeHalves : (1.5 : ℝ) = 3 / 2 := by norm_num
  have htwo : (2.0 : ℝ) = 2 := by norm_num
  rw [← hthreeHalves, ← htwo]
  rfl

section World
open scoped Continuum

theorem Point.distance_eq (a b : Point ℝ) :
    a.distance b = √((b.x - a.x) * (b.x - a.x) + (b.y - a.y) * (b.y - a.y)) := rfl

namespace Layout

variable (l : Layout ℝ)

theorem centre_eq (c : Hex) : l.centre c = .ok (l.pointOf c.q c.r) := rfl

/-- The squared distance in the world is that of cells, times three squares of the size. -/
theorem distance_pointOf (c : Hex) (q r : ℚ) :
    (l.pointOf q r).distance (l.pointOf c.q c.r) = √(3 * l.hexSize ^ 2 * c.sqDistance q r) := by
  have hroot : √3 * √3 = (3 : ℝ) := Real.mul_self_sqrt (by norm_num)
  rw [pointOf_eq, pointOf_eq, Point.distance_eq]
  congr 1
  push_cast [Hex.sqDistance]
  linear_combination (l.hexSize ^ 2 * (c.r - r + (c.q - q) / 2) ^ 2 : ℝ) * hroot

theorem distance_le_of_sqDistance_le {c c' : Hex} {q r : ℚ}
    (h : c.sqDistance q r ≤ c'.sqDistance q r) :
    (l.pointOf q r).distance (l.pointOf c.q c.r) ≤
      (l.pointOf q r).distance (l.pointOf c'.q c'.r) := by
  rw [distance_pointOf, distance_pointOf]
  refine Real.sqrt_le_sqrt (mul_le_mul_of_nonneg_left ?_ (by positivity))
  exact_mod_cast h

end Layout

/-- **The cell that is found for a fractional coordinate contains it, so no centre is closer**, in
cells as in the world, where the squared distance is that of cells up to a factor.  A centre is found
in its own cell, and where one cell is nearer than all others it is found from everywhere. -/
theorem Hex.nearest_closest (q r : ℚ) : ∃ c, Hex.nearest q r = .ok c ∧
    (|(q - c.q) - (r - c.r)| ≤ 1 ∧ |(r - c.r) - (-q - r - c.s)| ≤ 1 ∧
      |(-q - r - c.s) - (q - c.q)| ≤ 1) ∧
    (∀ c' : Hex, c.sqDistance q r ≤ c'.sqDistance q r) ∧
    (∀ (l : Layout ℝ) (c' : Hex), ∃ p p', l.centre c = .ok p ∧ l.centre c' = .ok p' ∧
      (l.pointOf q r).distance p ≤ (l.pointOf q r).distance p' ∧
      (l.pointOf q r).distance p' ^ 2 = 3 * l.hexSize ^ 2 * c'.sqDistance q r) ∧
    (∀ c' : Hex, Hex.nearest (c'.q : ℚ) c'.r = .ok c') ∧
    ((∀ c', c' ≠ c → c.sqDistance q r < c'.sqDistance q r) →
      ∀ t : Hex, Hex.nearest (q + t.q) (r + t.r) = .ok (c + t)) := by
  obtain ⟨c, hnearest, hcontains⟩ := Hex.exists_nearest_contains q r
  have hle := hcontains.sqDistance_le
  refine ⟨c, hnearest, ⟨hcontains.qr, hcontains.rs, hcontains.sq⟩, hle, fun l c' => ?_,
    Hex.nearest_self, Hex.nearest_add⟩
  refine ⟨_, _, l.centre_eq c, l.centre_eq c', l.distance_le_of_sqDistance_le (hle c'), ?_⟩
  have hnonneg : (0 : ℝ) ≤ c'.sqDistance q r := by exact_mod_cast c'.sqDistance_nonneg q r
  rw [l.distance_pointOf, Real.sq_sqrt (by positivity)]

end World

end HexPulse
