import Mathlib.Algebra.Order.Field.Power
import Mathlib.Algebra.Order.Floor.Ring
import Mathlib.Data.Rat.Floor
import Mathlib.Tactic.Linarith
import Mathlib.Tactic.Ring

/-!
# HexPulse — Proofs — Scalar — Grid

The numbers that doubles stand for, as rational numbers: 53 binary digits, and none of them behind
the 1074th place (`Double.OnGrid`).  How large a number may be is left out here.  A number rounds to
another one if no number of the grid lies between the two (`Double.Rounds`); this bounds the result
as tightly as the proofs about boards need it, and leaves open which of two neighbours is taken.

* `Double.Rounds.abs_le_zpow`, `Double.Rounds.abs_sub_le_zpow`: powers of two bound the result and
  the error.
* `Double.rounds_of_near`: a multiple of a power of two that is less than one step away is a
  rounding, where the grid is no finer than these steps.
-/

namespace HexPulse.Double

/-- The number has 53 binary digits at most, and none of them behind the 1074th place. -/
def OnGrid (d : ℚ) : Prop := ∃ m e : ℤ, |m| < 2 ^ 53 ∧ -1074 ≤ e ∧ d = m * 2 ^ e

theorem two_zpow_pos (k : ℤ) : (0 : ℚ) < 2 ^ k := zpow_pos (by norm_num) k

theorem two_zpow_add (j k : ℤ) : (2 : ℚ) ^ (j + k) = 2 ^ j * 2 ^ k := zpow_add₀ (by norm_num) j k

theorem two_zpow_le {j k : ℤ} (h : j ≤ k) : (2 : ℚ) ^ j ≤ 2 ^ k :=
  zpow_le_zpow_right₀ (by norm_num) h

theorem two_zpow_add_natCast (k : ℤ) (j : ℕ) : (2 : ℚ) ^ (k + j) = 2 ^ j * 2 ^ k := by
  rw [two_zpow_add, zpow_natCast, mul_comm]

/-- A multiple of a power of two is one of every lower power. -/
theorem mul_two_zpow (q : ℚ) {e low : ℤ} (h : low ≤ e) :
    q * 2 ^ e = q * 2 ^ (e - low).toNat * 2 ^ low := by
  have he : e = low + (e - low).toNat := by omega
  conv_lhs => rw [he, two_zpow_add_natCast, ← mul_assoc]

namespace OnGrid

variable {d : ℚ}

theorem neg (h : OnGrid d) : OnGrid (-d) := by
  obtain ⟨m, e, hm, he, rfl⟩ := h
  exact ⟨-m, e, by rwa [abs_neg], he, by push_cast; ring⟩

/-- Multiples of a power of two, as far as 53 digits reach. -/
theorem mul_zpow {n k : ℤ} (hn : |n| ≤ 2 ^ 53) (hk : -1074 ≤ k) : OnGrid (n * 2 ^ k) := by
  rcases hn.lt_or_eq with hn | hn
  · exact ⟨n, k, hn, hk, rfl⟩
  · -- the digits of the last one are all zeros, and one of them moves into the exponent
    have hdigits (s : ℤ) (hs : |s| = 1) : OnGrid ((s * 2 ^ 53 : ℤ) * 2 ^ k) := by
      refine ⟨s * 2 ^ 52, k + 1, ?_, by omega, ?_⟩
      · rw [abs_mul, hs]
        norm_num
      · rw [two_zpow_add]
        push_cast
        ring
    rcases abs_choice n with h | h
    · have := hdigits 1 abs_one
      rwa [one_mul, ← hn, h] at this
    · have := hdigits (-1) (by rw [abs_neg, abs_one])
      rwa [neg_one_mul, ← hn, h, neg_neg] at this

theorem zpow {k : ℤ} (hk : -1074 ≤ k) : OnGrid (2 ^ k) := by
  have h := mul_zpow (n := 1) (by norm_num) hk
  rwa [Int.cast_one, one_mul] at h

theorem zero : OnGrid 0 := ⟨0, 0, by norm_num, by norm_num, by norm_num⟩

/-- Above the 53rd place of a power of two all numbers of the grid are multiples of it; of the
least power, all are. -/
theorem exists_multiple (h : OnGrid d) {u : ℤ} (hd : u = -1074 ∨ 2 ^ (u + 52) ≤ d) :
    ∃ j : ℤ, d = j * 2 ^ u := by
  obtain ⟨m, e, hm, he, rfl⟩ := h
  have hu : u ≤ e := by
    rcases hd with rfl | hd
    · exact he
    · have hm : (m : ℚ) < 2 ^ (53 : ℤ) := by exact_mod_cast (le_abs_self m).trans_lt hm
      have hpow : (2 : ℚ) ^ (u + 52) < 2 ^ (53 + e) := by
        rw [two_zpow_add 53 e]
        exact hd.trans_lt (mul_lt_mul_of_pos_right hm (two_zpow_pos e))
      have := (zpow_lt_zpow_iff_right₀ (by norm_num : (1 : ℚ) < 2)).mp hpow
      omega
  refine ⟨m * 2 ^ (e - u).toNat, ?_⟩
  rw [mul_two_zpow _ hu]
  push_cast
  rfl

end OnGrid

/-- A number rounds to another one: no number of the grid lies between the two. -/
structure Rounds (q v : ℚ) : Prop where
  le : ∀ d, OnGrid d → q ≤ d → v ≤ d
  ge : ∀ d, OnGrid d → d ≤ q → d ≤ v

namespace Rounds

variable {q v : ℚ}

theorem neg (h : Rounds q v) : Rounds (-q) (-v) := by
  refine ⟨fun d hd hq => ?_, fun d hd hq => ?_⟩
  · exact neg_le.mpr (h.ge (-d) hd.neg (neg_le.mpr hq))
  · exact le_neg.mpr (h.le (-d) hd.neg (le_neg.mpr hq))

theorem nonneg (h : Rounds q v) (hq : 0 ≤ q) : 0 ≤ v := h.ge 0 .zero hq

/-- Rounding stays below a power of two. -/
theorem abs_le_zpow {k : ℤ} (h : Rounds q v) (hk : -1074 ≤ k) (hq : |q| ≤ 2 ^ k) : |v| ≤ 2 ^ k := by
  obtain ⟨hlow, hhigh⟩ := abs_le.mp hq
  exact abs_le.mpr ⟨h.ge _ (OnGrid.zpow hk).neg hlow, h.le _ (.zpow hk) hhigh⟩

/-- The error of rounding is at most one step of the 53rd place. -/
theorem abs_sub_le_zpow {k : ℤ} (h : Rounds q v) (hk : -1074 ≤ k) (hq : |q| ≤ 2 ^ (k + 53)) :
    |v - q| ≤ 2 ^ k := by
  have hpos := two_zpow_pos k
  have hquotient : |q / 2 ^ k| ≤ 2 ^ 53 := by
    rw [abs_div, abs_of_pos hpos, div_le_iff₀ hpos]
    rwa [two_zpow_add, mul_comm] at hq
  obtain ⟨hlow, hhigh⟩ := abs_le.mp hquotient
  -- the two multiples next to the number are on the grid
  have hfloor : OnGrid (⌊q / 2 ^ k⌋ * 2 ^ k) := by
    refine .mul_zpow (abs_le.mpr ⟨Int.le_floor.mpr ?_, ?_⟩) hk
    · exact_mod_cast hlow
    · exact_mod_cast (Int.floor_le _).trans hhigh
  have hceil : OnGrid (⌈q / 2 ^ k⌉ * 2 ^ k) := by
    refine .mul_zpow (abs_le.mpr ⟨?_, Int.ceil_le.mpr ?_⟩) hk
    · exact_mod_cast hlow.trans (Int.le_ceil _)
    · exact_mod_cast hhigh
  have hbelow : (⌊q / 2 ^ k⌋ : ℚ) * 2 ^ k ≤ v :=
    h.ge _ hfloor ((le_div_iff₀ hpos).mp (Int.floor_le _))
  have habove : v ≤ (⌈q / 2 ^ k⌉ : ℚ) * 2 ^ k :=
    h.le _ hceil ((div_le_iff₀ hpos).mp (Int.le_ceil _))
  have hq : q / 2 ^ k * 2 ^ k = q := div_mul_cancel₀ q hpos.ne'
  have hstep := mul_lt_mul_of_pos_right (Int.lt_floor_add_one (q / 2 ^ k)) hpos
  have hstep' := mul_lt_mul_of_pos_right (Int.ceil_lt_add_one (q / 2 ^ k)) hpos
  rw [abs_le]
  constructor
  · linarith
  · linarith

end Rounds

/-- **A multiple of a power of two rounds a number if it is less than one step away**, and the grid
around the number is no finer than these steps. -/
theorem rounds_of_near {q : ℚ} {n u : ℤ} (hq : u = -1074 ∨ 2 ^ (u + 52) ≤ q)
    (hn : |n - q / 2 ^ u| < 1) : Rounds q (n * 2 ^ u) := by
  have hpos := two_zpow_pos u
  obtain ⟨hlow, hhigh⟩ := abs_lt.mp hn
  refine ⟨fun d hd hqd => ?_, fun d hd hdq => ?_⟩
  · obtain ⟨j, rfl⟩ := hd.exists_multiple (hq.imp_right fun h => h.trans hqd)
    have hj : q / 2 ^ u ≤ j := (div_le_iff₀ hpos).mpr hqd
    have : n < j + 1 := by exact_mod_cast (by linarith : (n : ℚ) < j + 1)
    exact mul_le_mul_of_nonneg_right (by exact_mod_cast Int.lt_add_one_iff.mp this) hpos.le
  · by_cases hfine : u = -1074 ∨ 2 ^ (u + 52) ≤ d
    · obtain ⟨j, rfl⟩ := hd.exists_multiple hfine
      have hj : (j : ℚ) ≤ q / 2 ^ u := (le_div_iff₀ hpos).mpr hdq
      have : j < n + 1 := by exact_mod_cast (by linarith : (j : ℚ) < n + 1)
      exact mul_le_mul_of_nonneg_right (by exact_mod_cast Int.lt_add_one_iff.mp this) hpos.le
    · -- the grid is finer at `d`, but there is a multiple between `d` and the number
      obtain ⟨hne, hlt⟩ := not_or.mp hfine
      have hlarge := hq.resolve_left hne
      rw [add_comm, two_zpow_add] at hlarge
      have hquotient : (2 : ℚ) ^ (52 : ℤ) ≤ q / 2 ^ u := (le_div_iff₀ hpos).mpr hlarge
      have : (2 : ℤ) ^ 52 < n + 1 := by
        exact_mod_cast (by push_cast at hquotient ⊢; linarith : ((2 : ℤ) ^ 52 : ℚ) < (n + 1 : ℤ))
      calc d
        _ ≤ 2 ^ (u + 52) := (not_le.mp hlt).le
        _ = 2 ^ (52 : ℤ) * 2 ^ u := by rw [add_comm, two_zpow_add]
        _ ≤ n * 2 ^ u :=
          mul_le_mul_of_nonneg_right (by exact_mod_cast Int.lt_add_one_iff.mp this) hpos.le

end HexPulse.Double
