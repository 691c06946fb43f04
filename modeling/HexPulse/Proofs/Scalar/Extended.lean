import HexPulse.Proofs.Scalar.Reading
import Mathlib.Data.EReal.Operations

/-!
# HexPulse — Proofs — Scalar — Extended

Doubles in order, the infinite ones included.  `Double.Stands x v` says that `x` stands for the
extended number `v`; a double that is no number stands for nothing.  Doubles compare as what they
stand for (`Stands.lt_iff`), and so do integers with doubles (`Stands.compareInt_eq`).
-/

open Float.Model Float.Model.UnpackedFloat

namespace HexPulse

namespace Binary

/-- The extended number that a double stands for. -/
noncomputable def extended? : Binary → Option EReal
  | .nan => none
  | .infinity negative => some (if negative then ⊥ else ⊤)
  | .finite negative m e => some (signed negative (m * 2 ^ e) : ℝ)

end Binary

namespace Double

open Binary

/-- An integer as an extended number. -/
abbrev extended (k : ℤ) : EReal := (k : ℝ)

theorem extended_add_one (k : ℤ) : extended (k + 1) = extended k + 1 := by
  rw [extended, Int.cast_add, Int.cast_one, EReal.coe_add, EReal.coe_one]

/-- A double stands for a number or for an infinity. -/
def Stands (x : Float) (v : EReal) : Prop := (ofFloat x).extended? = some v

variable {x y : Float} {v w : EReal}

theorem Stands.unique (h : Stands x v) (h' : Stands x w) : v = w := Option.some.inj (h.symm.trans h')

/-- A finite double stands for the real number that it denotes. -/
theorem Denotes.stands {q : ℚ} (h : Denotes x q) : Stands x (q : ℝ) := by
  rw [Denotes] at h
  rw [Stands]
  cases hx : ofFloat x with
  | nan => rw [hx] at h; cases h
  | infinity negative => rw [hx] at h; cases h
  | finite negative m e =>
    rw [hx, value?, Option.some_inj] at h
    rw [extended?, h]

/-- What stands for an extended number is finite, or infinite on one side. -/
theorem Stands.cases (h : Stands x v) : (∃ q, Denotes x q ∧ v = (q : ℝ)) ∨
    (x.toModel.unpack = .infinity .positive ∧ v = ⊤) ∨
      x.toModel.unpack = .infinity .negative ∧ v = ⊥ := by
  rcases denotes_or x with ⟨q, hq⟩ | hx | ⟨s, hx⟩
  · exact .inl ⟨q, hq, h.unique hq.stands⟩
  · rw [Stands, ofFloat_eq_ofUnpacked, hx] at h
    cases h
  · rw [Stands, ofFloat_eq_ofUnpacked, hx] at h
    cases s with
    | positive => exact .inr (.inl ⟨hx, (Option.some.inj h).symm⟩)
    | negative => exact .inr (.inr ⟨hx, (Option.some.inj h).symm⟩)

/-- Every double stands for something, or is no number. -/
theorem stands_or (x : Float) : (∃ v, Stands x v) ∨ x.toModel.unpack = .notANumber := by
  rcases denotes_or x with ⟨q, hq⟩ | hx | ⟨s, hx⟩
  · exact .inl ⟨_, hq.stands⟩
  · exact .inr hx
  · refine .inl ⟨if s == .negative then ⊥ else ⊤, ?_⟩
    rw [Stands, ofFloat_eq_ofUnpacked, hx]
    rfl

/-- What is no number stands for nothing. -/
theorem isNaN_eq_false_iff : x.isNaN = false ↔ ∃ v, Stands x v := by
  have hnan : x.isNaN = x.toModel.unpack.isNaN := rfl
  rcases stands_or x with ⟨v, hv⟩ | hx
  · refine ⟨fun _ => ⟨v, hv⟩, fun _ => ?_⟩
    rcases hv.cases with ⟨q, hq, -⟩ | ⟨hx, -⟩ | ⟨hx, -⟩
    · rw [denotes_iff] at hq
      rw [hnan]
      cases hx : x.toModel.unpack with
      | notANumber => rw [hx] at hq; cases hq
      | _ => rfl
    · rw [hnan, hx]
      rfl
    · rw [hnan, hx]
      rfl
  · rw [hnan, hx]
    refine ⟨nofun, fun ⟨v, hv⟩ => ?_⟩
    rw [Stands, ofFloat_eq_ofUnpacked, hx] at hv
    cases hv

/-- An integer compares with a finite double as with the number that it denotes. -/
theorem Denotes.compareInt_eq {q : ℚ} (h : Denotes x q) (k : ℤ) :
    compareInt k (ofFloat x) = some (compare (k : ℚ) q) := by
  rw [Denotes] at h
  cases hx : ofFloat x with
  | nan => rw [hx] at h; cases h
  | infinity negative => rw [hx] at h; cases h
  | finite negative m e =>
    rw [hx, value?, Option.some_inj] at h
    rw [compareInt, Option.some_inj]
    -- the number is the mantissa with its sign, times a quotient of two powers of two
    have hpower : (2 : ℚ) ^ e * 2 ^ (-e).toNat = 2 ^ e.toNat := by
      rw [← zpow_natCast, ← zpow_natCast, ← zpow_add₀ (by norm_num)]
      congr 1
      omega
    have hq : q * (2 ^ (-e).toNat : ℕ) =
        ((if negative then -(m : ℤ) else m : ℤ) : ℚ) * (2 ^ e.toNat : ℕ) := by
      push_cast
      rw [← hpower, ← h, signed]
      cases negative <;> simp <;> ring
    have hpos : (0 : ℚ) < (2 ^ (-e).toNat : ℕ) := by positivity
    rcases lt_trichotomy (k : ℚ) q with hlt | heq | hgt
    · rw [compare_lt_iff_lt.mpr hlt, compare_lt_iff_lt]
      rw [← mul_lt_mul_iff_left₀ hpos, hq] at hlt
      exact_mod_cast hlt
    · rw [compare_eq_iff_eq.mpr heq, compare_eq_iff_eq]
      rw [← heq] at hq
      exact_mod_cast hq
    · rw [compare_gt_iff_gt.mpr hgt, compare_gt_iff_gt]
      rw [← mul_lt_mul_iff_left₀ hpos, hq] at hgt
      exact_mod_cast hgt

/-- What is no number is neither less than anything nor greater. -/
theorem not_lt_of_notANumber (hx : x.toModel.unpack = .notANumber) (y : Float) :
    ¬ y < x ∧ ¬ x < y := by
  rw [lt_iff_compare, lt_iff_compare, hx]
  cases y.toModel.unpack <;> exact ⟨nofun, nofun⟩

theorem stands_one : Stands 1.0 1 := by
  have hone : ofFloat 1.0 = .finite false (2 ^ 52) (-52) := by decide +kernel
  have hdenotes : Denotes 1.0 1 := by
    rw [Denotes, hone]
    norm_num [value?, signed]
  simpa using hdenotes.stands

theorem compare_cast (q r : ℚ) : compare ((q : ℝ) : EReal) (r : ℝ) = compare q r := by
  rcases lt_trichotomy q r with h | rfl | h
  · rw [compare_lt_iff_lt.mpr h, compare_lt_iff_lt]
    exact_mod_cast h
  · rw [compare_eq_iff_eq.mpr rfl, compare_eq_iff_eq.mpr rfl]
  · rw [compare_gt_iff_gt.mpr h, compare_gt_iff_gt]
    exact_mod_cast h

namespace Stands

/-- **Doubles compare as what they stand for.** -/
theorem compare_eq (hx : Stands x v) (hy : Stands y w) :
    UnpackedFloat.compare x.toModel.unpack y.toModel.unpack = some (compare v w) := by
  rcases hx.cases with ⟨q, hq, rfl⟩ | ⟨hux, rfl⟩ | ⟨hux, rfl⟩
  · rcases hy.cases with ⟨r, hr, rfl⟩ | ⟨huy, rfl⟩ | ⟨huy, rfl⟩
    · rw [hq.compare_eq hr, compare_cast]
    · rw [huy, (hq.compare_infinity .positive).1, compare_lt_iff_lt.mpr (EReal.coe_lt_top _)]
      rfl
    · rw [huy, (hq.compare_infinity .negative).1, compare_gt_iff_gt.mpr (EReal.bot_lt_coe _)]
      rfl
  · rcases hy.cases with ⟨r, hr, rfl⟩ | ⟨huy, rfl⟩ | ⟨huy, rfl⟩
    · rw [hux, (hr.compare_infinity .positive).2, compare_gt_iff_gt.mpr (EReal.coe_lt_top _)]
      rfl
    · rw [hux, huy, compare_eq_iff_eq.mpr rfl]
      rfl
    · rw [hux, huy, compare_gt_iff_gt.mpr bot_lt_top]
      rfl
  · rcases hy.cases with ⟨r, hr, rfl⟩ | ⟨huy, rfl⟩ | ⟨huy, rfl⟩
    · rw [hux, (hr.compare_infinity .negative).2, compare_lt_iff_lt.mpr (EReal.bot_lt_coe _)]
      rfl
    · rw [hux, huy, compare_lt_iff_lt.mpr bot_lt_top]
      rfl
    · rw [hux, huy, compare_eq_iff_eq.mpr rfl]
      rfl

/-- Numbers are ordered as what they stand for. -/
theorem lt_iff (hx : Stands x v) (hy : Stands y w) : x < y ↔ v < w := by
  rw [lt_iff_compare, hx.compare_eq hy, Option.some_inj, compare_lt_iff_lt]

theorem le_iff (hx : Stands x v) (hy : Stands y w) : x ≤ y ↔ v ≤ w := by
  rw [le_iff_compare, hx.compare_eq hy, Option.any_some, ← compare_le_iff_le,
    Ordering.isLE_iff_ne_gt]

theorem beq_iff (hx : Stands x v) (hy : Stands y w) : (x == y) = true ↔ v = w := by
  have hbeq : (x == y) =
    (UnpackedFloat.compare x.toModel.unpack y.toModel.unpack == some .eq) := rfl
  rw [hbeq, hx.compare_eq hy, beq_iff_eq, Option.some_inj, compare_eq_iff_eq]

/-- The smaller of two doubles stands for the minimum. -/
theorem lesser (hx : Stands x v) (hy : Stands y w) : Stands (Scalar.lesser x y) (min v w) := by
  rw [Scalar.lesser]
  split
  · next h => rwa [min_eq_right ((hy.lt_iff hx).mp h).le]
  · next h => rwa [min_eq_left (not_lt.mp fun hlt => h ((hy.lt_iff hx).mpr hlt))]

/-- The greater of two doubles stands for the maximum. -/
theorem greater (hx : Stands x v) (hy : Stands y w) : Stands (Scalar.greater x y) (max v w) := by
  rw [Scalar.greater]
  split
  · next h => rwa [max_eq_right ((hx.lt_iff hy).mp h).le]
  · next h => rwa [max_eq_left (not_lt.mp fun hlt => h ((hx.lt_iff hy).mpr hlt))]

/-- **An integer compares with a double as with what it stands for.** -/
theorem compareInt_eq (hx : Stands x v) (k : ℤ) :
    compareInt k (ofFloat x) = some (compare (extended k) v) := by
  rcases hx.cases with ⟨q, hq, rfl⟩ | ⟨hux, rfl⟩ | ⟨hux, rfl⟩
  · have hcast : extended k = (((k : ℚ) : ℝ) : EReal) := by
      rw [extended, Rat.cast_intCast]
    rw [hq.compareInt_eq, hcast, compare_cast]
  · rw [ofFloat_eq_ofUnpacked, hux, compare_lt_iff_lt.mpr (EReal.coe_lt_top _)]
    rfl
  · rw [ofFloat_eq_ofUnpacked, hux, compare_gt_iff_gt.mpr (EReal.bot_lt_coe _)]
    rfl

/-- An integer is less than a double if it is less than what the double stands for. -/
theorem intLt_iff (hx : Stands x v) {k : ℤ} : Scalar.intLt k x = true ↔ extended k < v := by
  have hlt : Scalar.intLt k x = (compareInt k (ofFloat x)).any (· == .lt) := rfl
  rw [hlt, hx.compareInt_eq, Option.any_some, beq_iff_eq, compare_lt_iff_lt]

theorem intLe_iff (hx : Stands x v) {k : ℤ} : Scalar.intLe k x = true ↔ extended k ≤ v := by
  have hle : Scalar.intLe k x = (compareInt k (ofFloat x)).any (· != .gt) := rfl
  rw [hle, hx.compareInt_eq, Option.any_some, bne_iff_ne, ← compare_le_iff_le]

end Stands

/-- Doubles that compare one way do not compare the other way. -/
theorem not_lt_of_le (h : x ≤ y) : ¬ y < x := by
  rcases stands_or x with ⟨v, hv⟩ | hx
  · rcases stands_or y with ⟨w, hw⟩ | hy
    · rw [hw.lt_iff hv, not_lt, ← hv.le_iff hw]
      exact h
    · exact (not_lt_of_notANumber hy x).2
  · exact (not_lt_of_notANumber hx y).1

end Double

end HexPulse
