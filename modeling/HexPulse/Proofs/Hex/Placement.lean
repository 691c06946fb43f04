import HexPulse.Hex.Layout
import HexPulse.Proofs.Evaluation.Faults
import HexPulse.Proofs.Hex.Disc
import HexPulse.Proofs.Scalar.Bounds

/-!
# HexPulse — Proofs — Hex — Placement

Cells and points that are not too far out.  Between the two stands the size of a cell, of the order
`2 ^ order` (`Layout.Sized`): the centre of a modest cell is near, at some power of two relative to
this size, and a near point lies in a cell however small or large the cells are.

* `Layout.Sized.centre`, `Layout.Sized.cellAt`: centres of modest cells, and cells of near points.
* `Hex.line_spec`: lines between cells of a board hold modest cells only.
-/

namespace HexPulse

open Double

/-! ### Rounding to integers -/

/-- Rounding to an integer stays below a power of two. -/
theorem Double.Within.round {k : ℕ} {x : Float} (h : Within k x) :
    ∃ n, Double.round x = .ok n ∧ n.natAbs ≤ 2 ^ k := by
  obtain ⟨v, hv, hle⟩ := h
  obtain ⟨negative, m, e, hx, habs, -⟩ := hv.exists_finite
  refine ⟨if negative then -(Binary.roundScaled m e : ℤ) else Binary.roundScaled m e, ?_, ?_⟩
  · rw [Double.round, hx]
  · have hnear := (abs_lt.mp (Binary.roundScaled_near m e)).2
    rw [habs, zpow_natCast] at hle
    have hlt : (Binary.roundScaled m e : ℚ) < (2 ^ k : ℕ) + 1 := by
      push_cast
      linarith
    have hle : Binary.roundScaled m e ≤ 2 ^ k := Nat.lt_succ_iff.mp (by exact_mod_cast hlt)
    split <;> omega

/-! ### Cells -/

namespace Hex

/-- A cell whose coordinates have at most 150 decimal digits. -/
def Modest (c : Hex) : Prop := c.q.natAbs ≤ 10 ^ 150 ∧ c.r.natAbs ≤ 10 ^ 150

instance (c : Hex) : Decidable c.Modest := inferInstanceAs (Decidable (_ ∧ _))

theorem abs_cast_le {n : ℤ} {b : ℕ} {k : ℤ} (hk : 0 ≤ k) (hb : b ≤ 2 ^ k.toNat)
    (hn : n.natAbs ≤ b) : |(n : ℚ)| ≤ 2 ^ k := by
  obtain ⟨k, rfl⟩ := Int.eq_ofNat_of_zero_le hk
  rw [← Int.cast_abs, ← Nat.cast_natAbs, zpow_natCast]
  exact_mod_cast hn.trans hb

/-- Coordinates of 150 digits are within a power of two. -/
theorem abs_le_of_natAbs_le {n : ℤ} (h : n.natAbs ≤ 10 ^ 150) : |(n : ℚ)| ≤ 2 ^ (500 : ℤ) :=
  abs_cast_le (by norm_num) (by decide +kernel) h

/-- A fractional coordinate that is not too far out has a modest cell. -/
theorem exists_nearest {q r : Float} (hq : Within (130 : ℕ) q) (hr : Within (130 : ℕ) r)
    (hs : Within (132 : ℕ) (-q - r)) : ∃ c, nearest q r = .ok c ∧ c.Modest := by
  obtain ⟨nq, hnq, hq⟩ := hq.round
  obtain ⟨nr, hnr, hr⟩ := hr.round
  obtain ⟨ns, hns, hs⟩ := hs.round
  rw [nearest]
  change ∃ c, (Double.round q >>= _) = _ ∧ _
  rw [hnq]
  change ∃ c, (Double.round r >>= _) = _ ∧ _
  rw [hnr]
  change ∃ c, (Double.round (-q - r) >>= _) = _ ∧ _
  rw [hns]
  dsimp only [bind, Except.bind]
  split_ifs
  · exact ⟨_, rfl, by dsimp only; omega, by dsimp only; omega⟩
  · exact ⟨_, rfl, by dsimp only; omega, by dsimp only; omega⟩
  · exact ⟨_, rfl, by dsimp only; omega, by dsimp only; omega⟩

end Hex

/-! ### Layouts -/

namespace Layout

/-- The size of the cells is at least some power of two, and less than twice that. -/
structure Sized (l : Layout Float) (order : ℤ) : Prop where
  atLeast : AtLeast order l.hexSize
  within : Within (order + 1) l.hexSize
  least : -1074 ≤ order
  top : order ≤ 499

/-- Both coordinates of a point are within a power of two. -/
structure Near (k : ℤ) (p : Point Float) : Prop where
  x : Within k p.x
  y : Within k p.y

theorem Near.mono {j k : ℤ} {p : Point Float} (h : Near j p) (hjk : j ≤ k) : Near k p :=
  ⟨h.x.mono hjk, h.y.mono hjk⟩

/-- The power of two that the points on paths between modest cells stay within. -/
def reach (order : ℤ) : ℤ := order + 505

variable {l : Layout Float} {order : ℤ}

/-- A size above zero with at most 150 digits in front of the point. -/
theorem exists_sized (hpos : (0.0 : Float) < l.hexSize) (hle : l.hexSize ≤ 1e150) :
    ∃ order, l.Sized order := by
  have hlimit : Within (446 + 53) (1e150 : Float) :=
    within_of_exponent (by decide +kernel)
  obtain ⟨w, hw, hwle⟩ := hlimit
  obtain ⟨v, hv, hpos, hvw⟩ := hw.of_le hpos hle
  obtain ⟨order, hleast, hlow, hhigh⟩ := hv.exists_order hpos
  refine ⟨order, ⟨v, hv, hlow.trans (le_abs_self v)⟩, ⟨v, hv, ?_⟩, hleast, ?_⟩
  · rw [abs_of_pos hpos]
    exact hhigh.le
  · have hpow : (2 : ℚ) ^ order ≤ 2 ^ (446 + 53 : ℤ) :=
      hlow.trans (hvw.trans ((le_abs_self w).trans hwle))
    exact (zpow_le_zpow_iff_right₀ (by norm_num : (1 : ℚ) < 2)).mp hpow

namespace Sized

/-- A modest cell has a centre, and it is not too far out. -/
theorem centre (h : l.Sized order) {c : Hex} (hc : c.Modest) :
    ∃ p, l.centre c = .ok p ∧ Near (order + 503) p := by
  have hleast := h.least
  have htop := h.top
  have hq := Hex.abs_le_of_natAbs_le hc.1
  have hr := Hex.abs_le_of_natAbs_le hc.2
  have hqw : Within 500 (Binary.ofInt c.q) := ofInt_within (by norm_num) (by norm_num) hq
  have hrw : Within 500 (Binary.ofInt c.r) := ofInt_within (by norm_num) (by norm_num) hr
  have hthreeHalves : Within (-52 + 53) (1.5 : Float) := within_of_exponent (by decide +kernel)
  have hroot : Within (-52 + 53) sqrtThree := within_of_exponent (by decide +kernel)
  have htwo : AtLeast (-51 + 52) (2.0 : Float) :=
    atLeast_of_exponent (by decide +kernel) (by norm_num)
  refine ⟨l.pointOf (Binary.ofInt c.q) (Binary.ofInt c.r), ?_, ?_, ?_⟩
  · rw [Layout.centre, convert_eq (hq.trans (two_zpow_le (by norm_num))),
      convert_eq (hr.trans (two_zpow_le (by norm_num)))]
    rfl
  · refine (((h.within.mul hthreeHalves ?_ ?_).mul hqw ?_ ?_).mono ?_) <;> omega
  · have hsum := hrw.add ((hqw.div htwo (by norm_num) (by norm_num)).mono (by norm_num))
      (by norm_num) (by norm_num)
    refine (((h.within.mul hroot ?_ ?_).mul hsum ?_ ?_).mono ?_) <;> omega

theorem ne_zero (h : l.Sized order) : (l.hexSize == 0.0) = false := by
  obtain ⟨v, hv, hle⟩ := h.atLeast
  rw [Bool.eq_false_iff, Ne, hv.beq_iff denotes_zero]
  rintro rfl
  exact absurd (hle.trans_eq abs_zero) (not_le.mpr (two_zpow_pos order))

/-- Division by the size of the cells meets no fault. -/
theorem divide_hexSize (h : l.Sized order) (x : Float) :
    Scalar.divide x l.hexSize = .ok (x / l.hexSize) :=
  if_neg (by rw [h.ne_zero]; exact Bool.false_ne_true)

/-- A near point lies in a cell. -/
theorem cellAt (h : l.Sized order) {p : Point Float} (hp : Near (reach order) p) :
    ∃ c, l.cellAt p = .ok c := by
  have hleast := h.least
  have htop := h.top
  have htwoThirds : Within (-53 + 53) (2.0 / 3.0 : Float) := within_of_exponent (by decide +kernel)
  have hthird : Within (-54 + 53) (-1.0 / 3.0 : Float) := within_of_exponent (by decide +kernel)
  have hroot : Within (-53 + 53) (sqrtThree / 3.0) := within_of_exponent (by decide +kernel)
  have hx := hp.x
  have hy := hp.y
  rw [reach] at hx hy
  have hq : Within 507 (2.0 / 3.0 * p.x / l.hexSize) := by
    refine (((htwoThirds.mul hx ?_ ?_).div h.atLeast ?_ ?_).mono ?_) <;> omega
  have hr : Within 507 ((-1.0 / 3.0 * p.x + sqrtThree / 3.0 * p.y) / l.hexSize) := by
    have hsum : Within (order + 506) (-1.0 / 3.0 * p.x + sqrtThree / 3.0 * p.y) := by
      refine ((((hthird.mul hx ?_ ?_).mono ?_).add (hroot.mul hy ?_ ?_) ?_ ?_).mono ?_) <;> omega
    refine ((hsum.div h.atLeast ?_ ?_).mono ?_) <;> omega
  have hs := hq.neg.sub hr (by norm_num) (by norm_num)
  obtain ⟨c, hc⟩ := Hex.nearest_eq_ok_iff.mpr ⟨hq.isFinite, hr.isFinite, hs.isFinite⟩
  refine ⟨c, ?_⟩
  have hcoordinates : l.coordinates p = .ok (2.0 / 3.0 * p.x / l.hexSize,
      (-1.0 / 3.0 * p.x + sqrtThree / 3.0 * p.y) / l.hexSize) := by
    rw [coordinates, h.divide_hexSize, h.divide_hexSize]
    rfl
  rw [Layout.cellAt, hcoordinates]
  exact hc

end Sized

end Layout

/-! ### Lines -/

namespace Hex

/-- The cell lies on a board of radius `2 ^ 61`. -/
def Close (c : Hex) : Prop := (c.distance .origin : ℤ) ≤ 2 ^ 61

variable {a b : Hex}

theorem Close.bounds (h : a.Close) : (-2 ^ 61 ≤ a.q ∧ a.q ≤ 2 ^ 61) ∧
    (-2 ^ 61 ≤ a.r ∧ a.r ≤ 2 ^ 61) ∧ -2 ^ 61 ≤ a.s ∧ a.s ≤ 2 ^ 61 := by
  have h := distance_le_iff.mp h
  simp only [origin, s, q_sub, r_sub] at h ⊢
  omega

theorem Close.modest (h : a.Close) : a.Modest := by
  obtain ⟨hq, hr, -⟩ := h.bounds
  constructor
  · omega
  · omega

theorem Close.distance_le (ha : a.Close) (hb : b.Close) : (a.distance b : ℤ) ≤ 2 ^ 62 := by
  have ha := ha.bounds
  have hb := hb.bounds
  rw [distance_le_iff]
  simp only [s, q_sub, r_sub] at ha hb ⊢
  omega

/-- A coordinate of a point on a line. -/
theorem within_line (m n i : ℤ) {steps : ℤ} (hm : m.natAbs ≤ 2 ^ 61) (hn : n.natAbs ≤ 2 ^ 61)
    (hi : i.natAbs ≤ 2 ^ 62) (hpos : 1 ≤ steps) (hsteps : steps.natAbs ≤ 2 ^ 62) :
    Within 130 (Binary.ofInt m + nudge + (Binary.ofInt n + nudge - (Binary.ofInt m + nudge)) *
      Binary.ofInt i / Binary.ofInt steps) := by
  have hnudge : Within (-72 + 53) (nudge : Float) := within_of_exponent (by decide +kernel)
  have hend {k : ℤ} (hk : k.natAbs ≤ 2 ^ 61) : Within (61 + 1) (Binary.ofInt k + nudge) :=
    (ofInt_within (by norm_num) (by norm_num) (abs_cast_le (by norm_num) le_rfl hk)).add
      (hnudge.mono (by norm_num)) (by norm_num) (by norm_num)
  have hplace : Within 62 (Binary.ofInt i) :=
    ofInt_within (by norm_num) (by norm_num) (abs_cast_le (by norm_num) le_rfl hi)
  have hsize : |(steps : ℚ)| ≤ 2 ^ (62 : ℤ) := abs_cast_le (by norm_num) le_rfl hsteps
  have hcount : AtLeast 0 (Binary.ofInt steps) :=
    ofInt_atLeast hpos (hsize.trans (two_zpow_le (by norm_num)))
  have hoffset := (((hend hn).sub (hend hm) (by norm_num) (by norm_num)).mul hplace (by norm_num)
    (by norm_num)).div hcount (by norm_num) (by norm_num)
  exact (((hend hm).mono (by norm_num)).add hoffset (by norm_num) (by norm_num)).mono (by norm_num)

/-- **Lines on a board hold modest cells only**, and not more of them than can be asked for. -/
theorem line_spec (ha : a.Close) (hb : b.Close) {path : List Hex}
    (h : line Float a b = .ok path) : path.length ≤ 2 ^ 63 ∧ ∀ c ∈ path, c.Modest := by
  have haq := ha.bounds
  have hbq := hb.bounds
  have hsteps := ha.distance_le hb
  rw [line] at h
  split at h
  · obtain rfl := Except.ok.inj h
    exact ⟨by simp, by simpa using ha.modest⟩
  · next hne =>
    have hconvert {n : ℤ} (hn : n.natAbs ≤ 2 ^ 62) :
        (Scalar.convert n : Except Fault Float) = .ok (Binary.ofInt n) :=
      convert_eq ((abs_cast_le (by norm_num : (0 : ℤ) ≤ 62) le_rfl hn).trans
        (two_zpow_le (by norm_num)))
    rw [hconvert (by omega), hconvert (by omega), hconvert (by omega), hconvert (by omega),
      hconvert (by omega)] at h
    dsimp only [bind, Except.bind] at h
    rw [sample_eq_mapM] at h
    obtain ⟨cells, hcells, rfl⟩ := exists_of_map_eq_ok h
    rw [List.reverse_nil, List.nil_append]
    refine ⟨?_, fun c hc => ?_⟩
    · rw [length_of_mapM hcells, List.length_range']
      omega
    · obtain ⟨i, hi, hci⟩ := exists_of_mem_mapM hcells hc
      rw [List.mem_range'_1] at hi
      have hq : Within 130 _ := within_line a.q b.q i (by omega) (by omega) (by omega)
        (by omega : 1 ≤ (a.distance b : ℤ)) (by omega)
      have hr : Within 130 _ := within_line a.r b.r i (by omega) (by omega) (by omega)
        (by omega : 1 ≤ (a.distance b : ℤ)) (by omega)
      have hs := (hq.neg.sub hr (by norm_num) (by norm_num)).mono (by norm_num : (_ : ℤ) ≤ 132)
      obtain ⟨c', hc', hmodest⟩ := exists_nearest hq hr hs
      obtain rfl := Except.ok.inj (hci.symm.trans hc')
      exact hmodest

end Hex

end HexPulse
