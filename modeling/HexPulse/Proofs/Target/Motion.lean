import HexPulse.Proofs.Hex.Placement
import HexPulse.Target

/-!
# HexPulse — Proofs — Target — Motion

Walking in rounded arithmetic.  A step towards a waypoint is the distance divided by its length and
stretched by the step, each rounded.  Rounding errors are relative to the length of the way, and
with them a target may miss its waypoint, over and over; but far from all waypoints every step goes
inwards, as rounding keeps signs.  So a target never leaves the reach of its path
(`Target.Roams.walk`), and walking meets no fault.
-/

namespace HexPulse

open Double

/-! ### A step along one axis -/

/-- The place, the goal and the rounded numbers of a step along one axis: the way to the goal, and
the share of it in the distance.  The progress of the step is the share, stretched by the step and
rounded once more. -/
structure Stride (k : ℤ) (x g way d share s : ℚ) : Prop where
  place : |x| ≤ 2 ^ k
  goal : |g| ≤ 2 ^ (k - 2)
  way_rounds : Rounds (g - x) way
  leg : |way| ≤ d
  share_rounds : Rounds (way / d) share
  pos : 0 < d
  far : d ≤ 2 ^ (k + 3)
  nonneg : 0 ≤ s
  le : s ≤ d

namespace Stride

variable {k : ℤ} {x g way d share s progress : ℚ}

/-- A step seen in a mirror. -/
theorem neg (h : Stride k x g way d share s) : Stride k (-x) (-g) (-way) d (-share) s where
  place := by rw [abs_neg]; exact h.place
  goal := by rw [abs_neg]; exact h.goal
  way_rounds := by
    rw [show -g - -x = -(g - x) by ring]
    exact h.way_rounds.neg
  leg := by rw [abs_neg]; exact h.leg
  share_rounds := by
    rw [neg_div]
    exact h.share_rounds.neg
  pos := h.pos
  far := h.far
  nonneg := h.nonneg
  le := h.le

/-- The share in the distance is at most one. -/
theorem abs_share_le (h : Stride k x g way d share s) : |way / d| ≤ 1 := by
  rw [abs_div, abs_of_pos h.pos, div_le_one h.pos]
  exact h.leg

/-- A step is no longer than the distance may be. -/
theorem abs_stretched_le (h : Stride k x g way d share s) :
    |share * s| ≤ 2 ^ (k + 3) := by
  have hshare : |share| ≤ 2 ^ (0 : ℤ) :=
    h.share_rounds.abs_le_zpow (by norm_num) (by rw [zpow_zero]; exact h.abs_share_le)
  rw [zpow_zero] at hshare
  rw [abs_mul, abs_of_nonneg h.nonneg]
  exact (mul_le_of_le_one_left h.nonneg hshare).trans (h.le.trans h.far)

/-- Rounding keeps signs, so a step goes towards its goal. -/
theorem progress_nonneg (h : Stride k x g way d share s) (hp : Rounds (share * s) progress)
    (hx : x ≤ g) : 0 ≤ progress := by
  have hway : 0 ≤ way := h.way_rounds.nonneg (sub_nonneg.mpr hx)
  have hshare : 0 ≤ share := h.share_rounds.nonneg (div_nonneg hway h.pos.le)
  exact hp.nonneg (mul_nonneg hshare h.nonneg)

/-- The place after a step misses a place on the straight way by a fraction of the reach. -/
theorem near_straight (h : Stride k x g way d share s) (hp : Rounds (share * s) progress)
    (hk : -1070 ≤ k) :
    |x + progress - (x + (g - x) * (s / d))| ≤ 3 * 2 ^ (k - 4) := by
  have hunit := two_zpow_pos (k - 4)
  -- the three roundings
  have hway : |way - (g - x)| ≤ 2 ^ (k - 4) := by
    refine h.way_rounds.abs_sub_le_zpow (by omega) ((abs_sub g x).trans ?_)
    have hgoal := h.goal
    have hplace := h.place
    rw [show k - 2 = k - 4 + (2 : ℕ) by push_cast; ring, two_zpow_add_natCast] at hgoal
    rw [show k = k - 4 + (4 : ℕ) by push_cast; ring, two_zpow_add_natCast] at hplace
    have hlarge : (2 : ℚ) ^ 5 * 2 ^ (k - 4) ≤ 2 ^ (k - 4 + 53) := by
      rw [← two_zpow_add_natCast]
      exact two_zpow_le (by omega)
    linarith
  have hshare : |share - way / d| ≤ 2 ^ (-7 : ℤ) :=
    h.share_rounds.abs_sub_le_zpow (by norm_num) (h.abs_share_le.trans (by norm_num))
  have hprogress : |progress - share * s| ≤ 2 ^ (k - 4) :=
    hp.abs_sub_le_zpow (by omega) (h.abs_stretched_le.trans (two_zpow_le (by omega)))
  -- each of them, as far as it shows in the end
  have hratio : 0 ≤ s / d ∧ s / d ≤ 1 :=
    ⟨div_nonneg h.nonneg h.pos.le, (div_le_one h.pos).mpr h.le⟩
  have hfirst : |(way - (g - x)) * (s / d)| ≤ 2 ^ (k - 4) := by
    rw [abs_mul, abs_of_nonneg hratio.1]
    exact (mul_le_of_le_one_right (abs_nonneg _) hratio.2).trans hway
  have hsecond : |(share - way / d) * s| ≤ 2 ^ (k - 4) := by
    rw [abs_mul, abs_of_nonneg h.nonneg]
    calc |share - way / d| * s
      _ ≤ 2 ^ (-7 : ℤ) * 2 ^ (k + 3) :=
        mul_le_mul hshare (h.le.trans h.far) h.nonneg (two_zpow_pos _).le
      _ = 2 ^ (k - 4) := by
        rw [← two_zpow_add]
        congr 1
        ring
  have hsplit : x + progress - (x + (g - x) * (s / d)) =
      (way - (g - x)) * (s / d) + (share - way / d) * s + (progress - share * s) := by
    ring
  rw [hsplit]
  refine (abs_add_three _ _ _).trans ?_
  linarith

/-- A step does not lead out of the bounds on the near side. -/
theorem neg_le_add (h : Stride k x g way d share s) (hp : Rounds (share * s) progress)
    (hk : -1070 ≤ k) : -2 ^ k ≤ x + progress := by
  have hunit := two_zpow_pos (k - 4)
  have hplace := (abs_le.mp h.place).1
  have hgoal := (abs_le.mp h.goal).1
  by_cases hx : x ≤ g
  · exact hplace.trans (le_add_of_nonneg_right (h.progress_nonneg hp hx))
  · -- the goal is farther inwards, and so is the straight way
    have hratio : s / d ≤ 1 := (div_le_one h.pos).mpr h.le
    have hstraight : g ≤ x + (g - x) * (s / d) := by
      have := mul_le_mul_of_nonpos_left hratio (sub_nonpos.mpr (not_le.mp hx).le)
      linarith
    have hnear := (abs_le.mp (h.near_straight hp hk)).1
    rw [show k - 2 = k - 4 + (2 : ℕ) by push_cast; ring, two_zpow_add_natCast] at hgoal
    rw [show k = k - 4 + (4 : ℕ) by push_cast; ring, two_zpow_add_natCast]
    linarith

/-- **A step does not leave the reach**, whatever is lost in rounding. -/
theorem abs_add_le (h : Stride k x g way d share s) (hp : Rounds (share * s) progress)
    (hk : -1070 ≤ k) : |x + progress| ≤ 2 ^ k := by
  have hlow := h.neg_le_add hp hk
  have hhigh := h.neg.neg_le_add (neg_mul share s ▸ hp.neg) hk
  rw [abs_le]
  constructor
  · exact hlow
  · linarith

end Stride

/-- A step along one axis, in doubles. -/
theorem within_stride {k : ℤ} {x g distance step : Float} {d s : ℚ} (hlow : -1070 ≤ k)
    (hhigh : k ≤ 1010) (hx : Within k x) (hg : Within (k - 2) g) (hd : Denotes distance d)
    (hpos : 0 < d) (hfar : d ≤ 2 ^ (k + 3)) (hleg : ∀ v, Denotes (g - x) v → |v| ≤ d)
    (hs : Denotes step s) (hnonneg : 0 ≤ s) (hle : s ≤ d) :
    Within k (x + (g - x) / distance * step) := by
  obtain ⟨vx, hvx, hplace⟩ := hx
  obtain ⟨vg, hvg, hgoal⟩ := hg
  have hlength : |vg - vx| ≤ 2 ^ (k + 1) := by
    rw [two_zpow_add, zpow_one, mul_two]
    exact (abs_sub vg vx).trans (add_le_add (hgoal.trans (two_zpow_le (by omega))) hplace)
  obtain ⟨way, hway, hwayRounds⟩ := hvg.sub hvx (hlength.trans (two_zpow_le (by omega)))
  have hquotient : |way / d| ≤ 2 ^ (0 : ℤ) := by
    rw [abs_div, abs_of_pos hpos, zpow_zero, div_le_one hpos]
    exact hleg way hway
  obtain ⟨share, hshare, hshareRounds⟩ :=
    hway.div hd hpos.ne' (hquotient.trans (two_zpow_le (by norm_num)))
  have hstride : Stride k vx vg way d share s :=
    ⟨hplace, hgoal, hwayRounds, hleg way hway, hshareRounds, hpos, hfar, hnonneg, hle⟩
  obtain ⟨progress, hprogress, hrounds⟩ :=
    hshare.mul hs (hstride.abs_stretched_le.trans (two_zpow_le (by omega)))
  have hend := hstride.abs_add_le hrounds hlow
  exact (hvx.add hprogress (hend.trans (two_zpow_le (by omega)))).within (by omega) hend

namespace Target

variable {l : Layout Float} {order : ℤ} {t : Target Float}

/-- The target is within reach of its path, and its path can be walked to the end. -/
structure Roams (order : ℤ) (t : Target Float) : Prop where
  waypoint : 0 ≤ t.waypoint
  short : t.path.length ≤ 2 ^ 63
  modest : ∀ c ∈ t.path, c.Modest
  near : Layout.Near (Layout.reach order) t.position

theorem near_moved (h : l.Sized order) (ht : Layout.Near (Layout.reach order) t.position)
    {goal : Point Float} (hgoal : Layout.Near (order + 503) goal) {budget : Float}
    (hbudget : (0.0 : Float) < budget) (hfar : ¬ t.position.distance goal < arrival) :
    Layout.Near (Layout.reach order) (t.moved goal (t.position.distance goal)
      (Scalar.lesser budget (t.position.distance goal))).position := by
  have hleast := h.least
  have htop := h.top
  have hreach : Layout.reach order = order + 505 := rfl
  -- the way to the goal and its length
  have hx := (hgoal.x.mono (by omega)).sub ht.x (by omega) (by omega)
  have hy := (hgoal.y.mono (by omega)).sub ht.y (by omega) (by omega)
  obtain ⟨wx, hwx, hxle⟩ := hx
  obtain ⟨wy, hwy, hyle⟩ := hy
  obtain ⟨d, hd, hxd, hyd, hdle⟩ := hwx.hypot hwy hxle hyle (by omega) (by omega)
  replace hd : Denotes (t.position.distance goal) d := hd
  generalize t.position.distance goal = distance at hfar hd ⊢
  obtain ⟨a, ha, -⟩ : Within (-56 + 53) (0.1 : Float) := within_of_exponent (by decide +kernel)
  have hpos : 0 < d :=
    ((denotes_zero.lt_iff ha).mp (by decide +kernel)).trans_le
      (not_lt.mp fun hlt => hfar ((hd.lt_iff ha).mpr hlt))
  -- the step is the whole way, or a budget that does not go that far
  obtain ⟨s, hs, hnonneg, hsd⟩ :
      ∃ s, Denotes (Scalar.lesser budget distance) s ∧ 0 ≤ s ∧ s ≤ d := by
    rw [Scalar.lesser]
    split
    · exact ⟨d, hd, hpos.le, le_rfl⟩
    · next hnot =>
      obtain ⟨s, hs, hpos, hsd⟩ := hd.of_not_lt hbudget hnot
      exact ⟨s, hs, hpos.le, hsd⟩
  constructor
  · exact within_stride (by omega) (by omega) ht.x (hgoal.x.mono (by omega)) hd hpos
      (hdle.trans (two_zpow_le (by omega))) (fun v hv => hwx.unique hv ▸ hxd) hs hnonneg hsd
  · exact within_stride (by omega) (by omega) ht.y (hgoal.y.mono (by omega)) hd hpos
      (hdle.trans (two_zpow_le (by omega))) (fun v hv => hwy.unique hv ▸ hyd) hs hnonneg hsd

theorem Roams.exists_cellOnPath (ht : t.Roams order) (h : t.waypoint < t.path.length) :
    ∃ c ∈ t.path, t.cellOnPath t.waypoint = .ok c := by
  have hwaypoint := ht.waypoint
  have hshort := ht.short
  have hlt : t.waypoint.toNat < t.path.length := by omega
  refine ⟨t.path[t.waypoint.toNat], List.getElem_mem hlt, ?_⟩
  rw [cellOnPath, memberAt, widestIndex, if_neg (by omega)]
  dsimp only
  rw [if_neg (not_lt.mpr hwaypoint), if_neg (not_lt.mpr hwaypoint), List.getElem?_eq_getElem hlt]

/-- **Walking meets no fault, and does not lead out of reach.** -/
theorem Roams.walk (h : l.Sized order) (rounds : Nat) (budget : Float) (ht : t.Roams order) :
    (t.walk l rounds budget).fault = none ∧ (t.walk l rounds budget).state.Roams order := by
  induction rounds generalizing budget t with
  | zero => exact ⟨rfl, ht⟩
  | succ rounds ih =>
    rw [Target.walk]
    split
    · next hgoing =>
      obtain ⟨hbudget, hplace⟩ := hgoing
      obtain ⟨c, hc, hcell⟩ := ht.exists_cellOnPath hplace
      obtain ⟨goal, hcentre, hgoal⟩ := h.centre (ht.modest c hc)
      have hnext : (t.cellOnPath t.waypoint >>= l.centre) = .ok goal := by
        rw [hcell]
        exact hcentre
      rw [hnext]
      dsimp only
      split
      · exact ih _ ⟨Int.le_add_one ht.waypoint, ht.short, ht.modest, ht.near⟩
      · next hfar =>
        exact ih _ ⟨ht.waypoint, ht.short, ht.modest, near_moved h ht.near hgoal hbudget hfar⟩
    · exact ⟨rfl, ht⟩

theorem Roams.follow (h : l.Sized order) (dt : Float) (ht : t.Roams order) :
    (t.follow l dt).fault = none ∧ (t.follow l dt).state.Roams order :=
  ht.walk h _ _

end Target

end HexPulse
