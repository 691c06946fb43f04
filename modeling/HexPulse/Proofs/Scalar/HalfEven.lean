import HexPulse.Proofs.Scalar.Exact
import Mathlib.Algebra.Order.Field.Rat
import Mathlib.Tactic.Linarith
import Mathlib.Tactic.Ring

/-!
# HexPulse — Proofs — Scalar — HalfEven

Rounding of rational numbers.  `HalfEven x n` says that the integer `n` is at most a half away from
`x`, and even if it is as far away as that; there is one such integer (`HalfEven.unique`), and it is
what rational scalars are rounded to (`Scalar.round_eq_ok_iff`).
-/

namespace HexPulse

/-- The integer is the nearest to a number, and the even one of two that are equally near. -/
def HalfEven (x : ℚ) (n : Int) : Prop := |x - n| ≤ 1 / 2 ∧ (|x - n| = 1 / 2 → Even n)

namespace HalfEven

/-- The nearest integer is what is rounded to. -/
theorem of_lt {x : ℚ} {n : Int} (h : |x - n| < 1 / 2) : HalfEven x n :=
  ⟨h.le, fun he => absurd he h.ne⟩

/-- Of two integers that are as near, the even one is what is rounded to. -/
theorem of_even {x : ℚ} {n : Int} (h : |x - n| ≤ 1 / 2) (he : Even n) : HalfEven x n :=
  ⟨h, fun _ => he⟩

theorem neg {x : ℚ} {n : Int} (h : HalfEven x n) : HalfEven (-x) (-n) := by
  have habs : |-x - (-n : Int)| = |x - n| := by
    rw [Int.cast_neg, neg_sub_neg, abs_sub_comm]
  exact ⟨habs ▸ h.1, fun he => (h.2 (habs ▸ he)).neg⟩

theorem unique {x : ℚ} {n n' : Int} (h : HalfEven x n) (h' : HalfEven x n') : n = n' := by
  by_contra hne
  have happart : (1 : ℚ) ≤ |(n : ℚ) - n'| := by
    exact_mod_cast Int.one_le_abs (sub_ne_zero.mpr hne)
  have hsum : |(n : ℚ) - n'| ≤ |x - n| + |x - n'| := by
    rw [abs_sub_comm x n]
    exact abs_sub_le _ x _
  have hle := h.1
  have hle' := h'.1
  -- both are a half away, and neighbours; but then one of them is odd
  obtain ⟨a, ha⟩ := h.2 (by linarith)
  obtain ⟨b, hb⟩ := h'.2 (by linarith)
  have hnear : |n - n'| ≤ 1 := by exact_mod_cast (by linarith : |(n : ℚ) - n'| ≤ 1)
  have := abs_le.mp hnear
  omega

end HalfEven

/-! ### Rational scalars -/

/-- A quotient of naturals is rounded to the nearest one, ties to even. -/
theorem Binary.halfEven_roundQuotient (m : Nat) {n : Nat} (hn : 0 < n) :
    HalfEven (m / n) (Binary.roundQuotient m n) := by
  have hpos : (0 : ℚ) < n := Nat.cast_pos.mpr hn
  obtain ⟨rest, hrest⟩ : ∃ rest : ℚ, rest = (m % n : Nat) / n := ⟨_, rfl⟩
  have hsplit : (m : ℚ) / n = (m / n : Nat) + rest := by
    rw [hrest, add_div' _ _ _ hpos.ne', div_left_inj' hpos.ne', mul_comm]
    exact_mod_cast (Nat.div_add_mod m n).symm
  have hnonneg : 0 ≤ rest := hrest ▸ by positivity
  have hbelow : rest < 1 := by
    rw [hrest, div_lt_one hpos]
    exact_mod_cast Nat.mod_lt m hn
  have hcast : 2 * rest * n = (2 * (m % n) : Nat) := by
    rw [hrest, mul_assoc, div_mul_cancel₀ _ hpos.ne']
    push_cast
    rfl
  -- the comparison of twice the remainder with the divisor is one of the rest with a half
  rw [Binary.roundQuotient, hsplit]
  generalize m / n = whole
  have hlow : |(whole : ℚ) + rest - (whole : Int)| = rest := by
    rw [Int.cast_natCast, add_sub_cancel_left, abs_of_nonneg hnonneg]
  have hhigh : |(whole : ℚ) + rest - (whole + 1 : Nat)| = 1 - rest := by
    rw [Nat.cast_add_one, add_sub_add_left_eq_sub, abs_of_nonpos (by linarith), neg_sub]
  cases hcompare : compare (2 * (m % n)) n with
  | lt =>
    have hlt : 2 * rest * n < 1 * n := by
      rw [hcast, one_mul]
      exact_mod_cast compare_lt_iff_lt.mp hcompare
    have hhalf := lt_of_mul_lt_mul_right hlt hpos.le
    exact .of_lt (hlow.trans_lt (by linarith))
  | gt =>
    have hlt : 1 * n < 2 * rest * n := by
      rw [hcast, one_mul]
      exact_mod_cast compare_gt_iff_gt.mp hcompare
    have hhalf := lt_of_mul_lt_mul_right hlt hpos.le
    exact .of_lt (hhigh.trans_lt (by linarith))
  | eq =>
    have heq : 2 * rest * n = 1 * n := by
      rw [hcast, one_mul]
      exact_mod_cast compare_eq_iff_eq.mp hcompare
    have hhalf := mul_right_cancel₀ hpos.ne' heq
    dsimp only
    split
    · next heven =>
      have heven : Even whole := Nat.even_iff.mpr heven
      exact .of_even (hlow.trans_le (by linarith)) (by exact_mod_cast heven)
    · next hodd =>
      have heven : Even (whole + 1) := (Nat.not_even_iff_odd.mp (mt Nat.even_iff.mp hodd)).add_one
      exact .of_even (hhigh.trans_le (by linarith)) (by exact_mod_cast heven)

namespace Scalar

/-- Rational numbers are rounded to the nearest integer, a half to the even neighbour. -/
theorem halfEven_nearest (x : ℚ) : HalfEven x (nearest x) := by
  have hquotient := Binary.halfEven_roundQuotient x.num.natAbs x.den_pos
  have habs : (x.num.natAbs : ℚ) / x.den = |x| := by
    rw [Nat.cast_natAbs, Int.cast_abs, ← Nat.abs_cast x.den, ← abs_div, Rat.num_div_den]
  rw [habs] at hquotient
  rw [nearest]
  split
  · next hneg =>
    have := hquotient.neg
    rwa [abs_of_neg hneg, neg_neg] at this
  · next hpos => rwa [abs_of_nonneg (not_lt.mp hpos)] at hquotient

/-- **Rationals are rounded half to even.** -/
theorem round_eq_ok_iff {x : ℚ} {n : Int} : Scalar.round x = .ok n ↔ HalfEven x n := by
  constructor
  · intro h
    obtain rfl := Except.ok.inj h
    exact halfEven_nearest x
  · intro h
    exact congrArg Except.ok ((halfEven_nearest x).unique h)

end Scalar

end HexPulse
