import HexPulse.Proofs.Scalar.Nearest
import Mathlib.Algebra.Order.Archimedean.Basic

/-!
# HexPulse — Proofs — Scalar — Bounds

Doubles between powers of two.  `Double.Within k x` says that `x` is finite and at most `2 ^ k` in
magnitude, `Double.AtLeast k x` that it is finite and at least that much; both are followed through
the operations, so that an expression is seen to be finite from the bounds of its parts.
-/

open Float.Model Float.Model.UnpackedFloat

namespace HexPulse

/-- The exponent of a finite number. -/
def Binary.exponent? : Binary → Option Int
  | .finite _ _ e => some e
  | _ => none

namespace Double

open Binary

/-- A finite number of at most some power of two in magnitude. -/
def Within (k : ℤ) (x : Float) : Prop := ∃ v, Denotes x v ∧ |v| ≤ 2 ^ k

/-- A finite number of at least some power of two in magnitude. -/
def AtLeast (k : ℤ) (x : Float) : Prop := ∃ v, Denotes x v ∧ 2 ^ k ≤ |v|

variable {x y : Float} {v w q : ℚ} {j k : ℤ}

/-- Rounding does not lead beyond a power of two. -/
theorem Yields.within (h : Yields x q) (hk : -1074 ≤ k) (hq : |q| ≤ 2 ^ k) : Within k x :=
  let ⟨v, hv, hround⟩ := h
  ⟨v, hv, hround.abs_le_zpow hk hq⟩

namespace Within

theorem isFinite (h : Within k x) : isFinite x = true :=
  let ⟨v, hv, _⟩ := h
  isFinite_iff.mpr ⟨v, hv⟩

theorem mono (h : Within j x) (hjk : j ≤ k) : Within k x :=
  let ⟨v, hv, hle⟩ := h
  ⟨v, hv, hle.trans (two_zpow_le hjk)⟩

theorem neg (h : Within k x) : Within k (-x) :=
  let ⟨v, hv, hle⟩ := h
  ⟨-v, hv.neg, by rwa [abs_neg]⟩

/-- A sum is within twice the bound of both. -/
theorem add (hx : Within k x) (hy : Within k y) (hlow : -1075 ≤ k) (hhigh : k ≤ 1022) :
    Within (k + 1) (x + y) := by
  obtain ⟨v, hv, hvle⟩ := hx
  obtain ⟨w, hw, hwle⟩ := hy
  have hsum : |v + w| ≤ 2 ^ (k + 1) := by
    rw [two_zpow_add, zpow_one, mul_two]
    exact (abs_add_le v w).trans (add_le_add hvle hwle)
  exact (hv.add hw (hsum.trans (two_zpow_le (by omega)))).within (by omega) hsum

theorem sub (hx : Within k x) (hy : Within k y) (hlow : -1075 ≤ k) (hhigh : k ≤ 1022) :
    Within (k + 1) (x - y) := by
  obtain ⟨v, hv, hvle⟩ := hx
  obtain ⟨w, hw, hwle⟩ := hy
  have hdifference : |v - w| ≤ 2 ^ (k + 1) := by
    rw [two_zpow_add, zpow_one, mul_two]
    exact (abs_sub v w).trans (add_le_add hvle hwle)
  exact (hv.sub hw (hdifference.trans (two_zpow_le (by omega)))).within (by omega) hdifference

/-- A product is within the product of the bounds. -/
theorem mul (hx : Within j x) (hy : Within k y) (hlow : -1074 ≤ j + k) (hhigh : j + k ≤ 1023) :
    Within (j + k) (x * y) := by
  obtain ⟨v, hv, hvle⟩ := hx
  obtain ⟨w, hw, hwle⟩ := hy
  have hproduct : |v * w| ≤ 2 ^ (j + k) := by
    rw [two_zpow_add, abs_mul]
    exact mul_le_mul hvle hwle (abs_nonneg w) (two_zpow_pos j).le
  exact (hv.mul hw (hproduct.trans (two_zpow_le hhigh))).within hlow hproduct

/-- A quotient is within the quotient of the bounds. -/
theorem div (hx : Within j x) (hy : AtLeast k y) (hlow : -1074 ≤ j - k) (hhigh : j - k ≤ 1023) :
    Within (j - k) (x / y) := by
  obtain ⟨v, hv, hvle⟩ := hx
  obtain ⟨w, hw, hle⟩ := hy
  have hpos : 0 < |w| := (two_zpow_pos k).trans_le hle
  have hquotient : |v / w| ≤ 2 ^ (j - k) := by
    rw [abs_div, div_le_iff₀ hpos]
    calc |v|
      _ ≤ 2 ^ j := hvle
      _ = 2 ^ (j - k) * 2 ^ k := by rw [← two_zpow_add, sub_add_cancel]
      _ ≤ 2 ^ (j - k) * |w| := mul_le_mul_of_nonneg_left hle (two_zpow_pos _).le
  exact (hv.div hw (abs_pos.mp hpos) (hquotient.trans (two_zpow_le hhigh))).within hlow hquotient

end Within

/-- An integer that is converted stays within its bound. -/
theorem ofInt_within {n : Int} (hlow : -1074 ≤ k) (hhigh : k ≤ 1023) (h : |(n : ℚ)| ≤ 2 ^ k) :
    Within k (Binary.ofInt n) :=
  (ofInt_yields (h.trans (two_zpow_le hhigh))).within hlow h

theorem ofInt_atLeast {n : Int} (hlow : 1 ≤ n) (hhigh : |(n : ℚ)| ≤ 2 ^ (1023 : ℤ)) :
    AtLeast 0 (Binary.ofInt n) := by
  obtain ⟨v, hv, hround⟩ := ofInt_yields hhigh
  have hone : (2 : ℚ) ^ (0 : ℤ) ≤ n := by
    rw [zpow_zero]
    exact_mod_cast hlow
  exact ⟨v, hv, (hround.ge _ (.zpow (by norm_num)) hone).trans (le_abs_self v)⟩

/-! ### Numbers that are written out -/

/-- The digits of a finite double with some exponent. -/
theorem exists_digits_of_exponent {e : Int} (h : (ofFloat x).exponent? = some e) :
    ∃ v, ∃ m : Nat, Denotes x v ∧ |v| = m * 2 ^ e ∧ m < 2 ^ 53 ∧ (2 ^ 52 ≤ m ∨ e = -1074) := by
  have hcanonical := canonical_unpack x.toModel.toBits.toBitVec
  rw [ofFloat_eq_ofUnpacked] at h
  cases hu : x.toModel.unpack with
  | notANumber => rw [hu] at h; cases h
  | infinity s => rw [hu] at h; cases h
  | zero s =>
    rw [hu] at h
    obtain rfl := Option.some.inj h
    exact ⟨0, 0, denotes_iff.mpr (by simp [hu, value?]), by simp, by norm_num,
      .inr rfl⟩
  | finite s m e' hm =>
    have hc : Canonical (.finite s m e' hm) := hu ▸ hcanonical
    rw [hu] at h
    obtain rfl := Option.some.inj h
    refine ⟨valueOf s m e', m, denotes_iff.mpr (by rw [hu]; rfl), ?_, hc.1, hc.2.2.2⟩
    rw [valueOf, abs_signed, abs_of_nonneg (mul_nonneg (Nat.cast_nonneg m) (two_zpow_pos e').le)]

/-- The exponent of a double bounds it from above. -/
theorem within_of_exponent {e : Int} (h : (ofFloat x).exponent? = some e) : Within (e + 53) x := by
  obtain ⟨v, m, hv, habs, hm, -⟩ := exists_digits_of_exponent h
  refine ⟨v, hv, ?_⟩
  rw [habs, add_comm, two_zpow_add]
  exact mul_le_mul_of_nonneg_right (by exact_mod_cast hm.le) (two_zpow_pos e).le

/-- The exponent of a double bounds it from below, unless it is the least one. -/
theorem atLeast_of_exponent {e : Int} (h : (ofFloat x).exponent? = some e) (he : e ≠ -1074) :
    AtLeast (e + 52) x := by
  obtain ⟨v, m, hv, habs, -, hm⟩ := exists_digits_of_exponent h
  refine ⟨v, hv, ?_⟩
  rw [habs, add_comm, two_zpow_add]
  exact mul_le_mul_of_nonneg_right (by exact_mod_cast hm.resolve_right he) (two_zpow_pos e).le

/-- A number above zero lies between a power of two and the next one. -/
theorem Denotes.exists_order (h : Denotes x v) (hpos : 0 < v) :
    ∃ k : ℤ, -1074 ≤ k ∧ 2 ^ k ≤ v ∧ v < 2 ^ (k + 1) := by
  obtain ⟨k, hlow, hhigh⟩ := exists_mem_Ico_zpow hpos (by norm_num : (1 : ℚ) < 2)
  refine ⟨k, ?_, hlow, hhigh⟩
  obtain ⟨-, -, -, -, -, m, e, -, he, hv⟩ := h.exists_finite
  rw [abs_of_pos hpos] at hv
  have hm : (1 : ℚ) ≤ m := by
    have : 0 < m := by exact_mod_cast pos_of_mul_pos_left (hv ▸ hpos) (two_zpow_pos e).le
    exact_mod_cast this
  have hlt : (2 : ℚ) ^ (-1074 : ℤ) < 2 ^ (k + 1) := by
    calc (2 : ℚ) ^ (-1074 : ℤ)
      _ ≤ 2 ^ e := two_zpow_le he
      _ ≤ m * 2 ^ e := le_mul_of_one_le_left (two_zpow_pos e).le hm
      _ < 2 ^ (k + 1) := hv ▸ hhigh
  have := (zpow_lt_zpow_iff_right₀ (by norm_num : (1 : ℚ) < 2)).mp hlt
  omega

end Double

end HexPulse
