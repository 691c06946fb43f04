import HexPulse.Proofs.Scalar.Reading

/-!
# HexPulse — Proofs — Scalar — Rounding

The four operations on doubles.  Each takes the exact result, cuts it off behind some digit and
rounds it with the help of two bits for what was cut off.  The result is a rounding of the exact
number (`Double.Yields`), as long as this one is not beyond the largest double.

* `Double.roundWithAccuracy_rounding`: the rounding step that all operations end with.
* `Double.Denotes.add`, `sub`, `mul`, `div`, `neg`: the operations.
-/

open Float.Model Float.Model.UnpackedFloat

namespace HexPulse

namespace Binary

/-- An unpacked number fits into a word and stands for a number. -/
def HasValue (u : UnpackedFloat) (v : ℚ) : Prop := Canonical u ∧ (ofUnpacked u).value? = some v

/-- The number of an unpacked sign, mantissa and exponent. -/
def valueOf (s : Sign) (m : Nat) (e : Int) : ℚ := signed (s == .negative) (m * 2 ^ e)

variable {u : UnpackedFloat} {v : ℚ}

theorem HasValue.zero (s : Sign) : HasValue (.zero s) 0 :=
  ⟨trivial, by simp [value?]⟩

theorem HasValue.finite {s : Sign} {m : Nat} {e : Int} {hm : 0 < m}
    (h : Canonical (.finite s m e hm)) : HasValue (.finite s m e hm) (valueOf s m e) := ⟨h, rfl⟩

theorem HasValue.cases (h : HasValue u v) : (∃ s, u = .zero s ∧ v = 0) ∨
    ∃ s m e hm, u = .finite s m e hm ∧ Canonical (.finite s m e hm) ∧ v = valueOf s m e := by
  obtain ⟨hu, hv⟩ := h
  cases u with
  | notANumber => cases hv
  | infinity s => cases hv
  | zero s => exact .inl ⟨s, rfl, by simpa [value?, eq_comm] using hv⟩
  | finite s m e hm => exact .inr ⟨s, m, e, hm, rfl, hu, (Option.some.inj hv).symm⟩

theorem HasValue.neg (h : HasValue u v) : HasValue u.neg (-v) := by
  obtain ⟨s, rfl, rfl⟩ | ⟨s, m, e, hm, rfl, hc, rfl⟩ := h.cases
  · rw [neg_zero]
    exact .zero _
  · have hneg : -valueOf s m e = valueOf (-s) m e := by
      cases s
      · exact neg_neg _
      · rfl
    rw [hneg]
    exact .finite hc

theorem signed_mul (b c : Bool) (p q : ℚ) : signed b p * signed c q = signed (b != c) (p * q) := by
  cases b <;> cases c <;> simp [signed]

theorem signed_div (b c : Bool) (p q : ℚ) : signed b p / signed c q = signed (b != c) (p / q) := by
  cases b <;> cases c <;> simp [signed, neg_div, div_neg]

end Binary

namespace Double

open Binary

variable {x y : Float} {u : UnpackedFloat} {q v w : ℚ}

/-- A double denotes the value that it unpacks to. -/
theorem hasValue_unpack_iff : HasValue x.toModel.unpack v ↔ Denotes x v :=
  (and_iff_right (canonical_unpack _)).trans denotes_iff.symm

theorem Rounds.signed (h : Rounds q v) (negative : Bool) :
    Rounds (Binary.signed negative q) (Binary.signed negative v) := by
  cases negative
  · exact h
  · exact h.neg

/-! ### Cutting off -/

/-- A mantissa is the integral part of a number; its two residual bits tell whether anything is
left over. -/
def Truncates (em : ExtendedMantissa) (x : ℚ) : Prop :=
  if em.roundBit || em.stickyBit then em.mantissa < x ∧ x < em.mantissa + 1 else x = em.mantissa

namespace Truncates

variable {em : ExtendedMantissa} {x : ℚ}

theorem exact (m : Nat) : Truncates (.ofMantissaAndAccuracy m .exact) m := rfl

theorem le (h : Truncates em x) : em.mantissa ≤ x := by
  unfold Truncates at h
  split at h
  · exact h.1.le
  · exact h.ge

theorem lt (h : Truncates em x) : x < em.mantissa + 1 := by
  unfold Truncates at h
  split at h
  · exact h.2
  · rw [h]
    exact lt_add_one _

/-- However a tie is broken, the result of rounding is next to the number. -/
theorem near (h : Truncates em x) : |em.roundedMantissa - x| < 1 := by
  obtain ⟨m, round, sticky⟩ := em
  cases hbits : round || sticky with
  | false =>
    obtain ⟨rfl, rfl⟩ := Bool.or_eq_false_iff.mp hbits
    obtain rfl : x = m := h
    change |(m : ℚ) - m| < 1
    simp
  | true =>
    obtain ⟨hlow, hhigh⟩ : m < x ∧ x < m + 1 := by simpa [Truncates, hbits] using h
    have hrounded : ∃ d : Nat, d ≤ 1 ∧
        (ExtendedMantissa.mk m round sticky).roundedMantissa = m + d := by
      cases round <;> cases sticky
      · exact ⟨0, Nat.zero_le 1, rfl⟩
      · exact ⟨0, Nat.zero_le 1, rfl⟩
      · exact ⟨m % 2, Nat.lt_succ_iff.mp (Nat.mod_lt m two_pos), rfl⟩
      · exact ⟨1, le_rfl, rfl⟩
    obtain ⟨d, hd, hrounded⟩ := hrounded
    have hnonneg : (0 : ℚ) ≤ d := Nat.cast_nonneg d
    have hle : (d : ℚ) ≤ 1 := by exact_mod_cast hd
    rw [hrounded, Nat.cast_add, abs_lt]
    constructor
    · linarith
    · linarith

theorem shiftRightOne (h : Truncates em x) : Truncates em.shiftRightOne (x / 2) := by
  obtain ⟨m, round, sticky⟩ := em
  have hle := h.le
  have hlt := h.lt
  have hm : (m : ℚ) = 2 * (m / 2 : Nat) + (m % 2 : Nat) := by
    exact_mod_cast (Nat.div_add_mod m 2).symm
  simp only [Truncates, ExtendedMantissa.shiftRightOne] at h hle hlt ⊢
  rcases Nat.mod_two_eq_zero_or_one m with hmod | hmod
  · rw [hmod, Nat.cast_zero, add_zero] at hm
    simp only [hmod, bne_self_eq_false, Bool.false_or]
    cases hbits : round || sticky with
    | false =>
      simp only [hbits, Bool.false_eq_true, if_false] at h ⊢
      linarith
    | true =>
      simp only [hbits, if_true] at h ⊢
      constructor
      · linarith [h.1]
      · linarith
  · rw [hmod, Nat.cast_one] at hm
    simp only [hmod, show ((1 : Nat) != 0) = true from rfl, Bool.true_or, if_true]
    constructor
    · linarith
    · linarith

theorem shiftRight (h : Truncates em x) (n : Nat) : Truncates (em >>> n) (x / 2 ^ n) := by
  induction n with
  | zero => rwa [pow_zero, div_one]
  | succ n ih =>
    rw [pow_succ, ← div_div]
    exact ih.shiftRightOne

end Truncates

/-! ### Rounding -/

/-- An unpacked number rounds a number. -/
def Rounding (u : UnpackedFloat) (q : ℚ) : Prop := ∃ v, HasValue u v ∧ Rounds q v

/-- A double is finite and rounds a number. -/
def Yields (x : Float) (q : ℚ) : Prop := ∃ v, Denotes x v ∧ Rounds q v

theorem Rounding.yields (h : Rounding u q) : Yields ⟨Float.Model.pack u⟩ q := by
  obtain ⟨v, ⟨hu, hv⟩, hq⟩ := h
  exact ⟨v, (denotes_pack_iff hu).mpr hv, hq⟩

theorem targetExponent_eq (e : Int) :
    Format.binary64.targetExponent e = max (e - 53) (-1074) := rfl

/-- Nothing is cut off from a mantissa with 53 digits. -/
theorem shiftToTargetExponent_of_lt {n : Nat} {t : Int} (hn : n < 2 ^ 53) (ht : -1074 ≤ t) :
    shiftToTargetExponent .binary64 n t .exact = (⟨n, false, false⟩, t) := by
  have hlog : n.log2 ≤ 52 := by
    by_cases h : n = 0
    · simp [h]
    · exact Nat.lt_succ_iff.mp ((Nat.log2_lt h).mpr hn)
  have hshift : (Format.binary64.targetExponent (totalExponent n t) - t).toNat = 0 := by
    rw [targetExponent_eq, totalExponent]
    omega
  rw [shiftToTargetExponent, shiftToExponent, hshift]
  simp [HShiftRight.hShiftRight, Nat.repeat, ExtendedMantissa.ofMantissaAndAccuracy]

/-- If rounding up carries through all 53 digits, one zero is cut off. -/
theorem shiftToTargetExponent_carry {t : Int} (ht : -1074 ≤ t) :
    shiftToTargetExponent .binary64 (2 ^ 53) t .exact = (⟨2 ^ 52, false, false⟩, t + 1) := by
  have hshift : (Format.binary64.targetExponent (totalExponent (2 ^ 53) t) - t).toNat = 1 := by
    rw [targetExponent_eq, totalExponent, Nat.log2_two_pow]
    omega
  rw [shiftToTargetExponent, shiftToExponent, hshift]
  rfl

/-- The place of the last digit and the digits in front of it, as they come out of rounding. -/
structure Digits (n : Nat) (t : Int) : Prop where
  le : n ≤ 2 ^ 53
  least : -1074 ≤ t
  normal : 2 ^ 52 ≤ n ∨ t = -1074

namespace Digits

variable {n : Nat} {t : Int}

/-- The digits in front of a place that is left of the 53rd digit, or the last place of all. -/
theorem of_near {x : ℚ} (hn : |n - x| < 1) (hfew : x < 2 ^ 53) (ht : -1074 ≤ t)
    (hx : 2 ^ 52 ≤ x ∨ t = -1074) : Digits n t := by
  obtain ⟨hbelow, habove⟩ := abs_lt.mp hn
  refine ⟨?_, ht, hx.imp_left fun hx => ?_⟩
  · have : (n : ℚ) < 2 ^ 53 + 1 := by linarith
    exact Nat.lt_succ_iff.mp (by exact_mod_cast this)
  · have : (2 ^ 52 : ℚ) < n + 1 := by linarith
    exact Nat.lt_succ_iff.mp (by exact_mod_cast this)

/-- Digits that are less than one step away are a rounding. -/
theorem rounds {x : ℚ} (hn : |n - x| < 1) (hx : 2 ^ 52 ≤ x ∨ t = -1074) :
    Rounds (x * 2 ^ t) (n * 2 ^ t) := by
  have hunit : x * 2 ^ t / 2 ^ t = x := mul_div_cancel_right₀ x (two_zpow_pos t).ne'
  have hlarge : t = -1074 ∨ 2 ^ (t + 52) ≤ x * 2 ^ t := by
    refine hx.symm.imp_right fun hx => ?_
    rw [add_comm, two_zpow_add]
    exact mul_le_mul_of_nonneg_right (by exact_mod_cast hx) (two_zpow_pos t).le
  have hn : |((n : ℤ) : ℚ) - x * 2 ^ t / 2 ^ t| < 1 := by rwa [hunit, Int.cast_natCast]
  exact_mod_cast rounds_of_near hlarge hn

/-- The exponent of a number that is not beyond the largest double. -/
theorem le_top (h : Digits n t) (hq : (n : ℚ) * 2 ^ t ≤ 2 ^ (1023 : ℤ)) : t ≤ 971 := by
  rcases h.normal with hn | rfl
  · have hpow : (2 : ℚ) ^ (52 + t) ≤ 2 ^ (1023 : ℤ) := by
      rw [two_zpow_add]
      exact (mul_le_mul_of_nonneg_right (by exact_mod_cast hn) (two_zpow_pos t).le).trans hq
    have := (zpow_le_zpow_iff_right₀ (by norm_num : (1 : ℚ) < 2)).mp hpow
    omega
  · norm_num

theorem carry_eq (t : Int) :
    ((2 ^ 53 : Nat) : ℚ) * 2 ^ t = ((2 ^ 52 : Nat) : ℚ) * 2 ^ (t + 1) := by
  rw [two_zpow_add]
  push_cast
  ring

theorem carry_le_top (h : Digits (2 ^ 53) t)
    (hq : ((2 ^ 53 : Nat) : ℚ) * 2 ^ t ≤ 2 ^ (1023 : ℤ)) : t + 1 ≤ 971 := by
  refine (Digits.mk (n := 2 ^ 52) (by norm_num) ?_ (.inl le_rfl)).le_top ?_
  · have := h.least
    omega
  · rwa [← carry_eq]

/-- The second shift makes digits fit into a word after a carry. -/
theorem hasValue (h : Digits n t) (hq : (n : ℚ) * 2 ^ t ≤ 2 ^ (1023 : ℤ)) (s : Sign)
    {em : ExtendedMantissa} {e : Int}
    (hshift : shiftToTargetExponent .binary64 n t .exact = (em, e)) :
    HasValue (if hm : em.mantissa = 0 then .zero s
      else .finite s em.mantissa e (Nat.pos_of_ne_zero hm)) (valueOf s n t) := by
  rcases h.le.lt_or_eq with hlt | rfl
  · rw [shiftToTargetExponent_of_lt hlt h.least] at hshift
    obtain ⟨rfl, rfl⟩ := Prod.mk.inj hshift
    by_cases hzero : n = 0
    · rw [dif_pos hzero, valueOf, hzero, Nat.cast_zero, zero_mul, signed_zero]
      exact .zero s
    · rw [dif_neg hzero]
      exact .finite ⟨hlt, h.least, h.le_top hq, h.normal⟩
  · rw [shiftToTargetExponent_carry h.least] at hshift
    obtain ⟨rfl, rfl⟩ := Prod.mk.inj hshift
    have hleast := h.least
    rw [valueOf, carry_eq, dif_neg (by norm_num)]
    exact .finite ⟨by norm_num, by omega, h.carry_le_top hq, .inl le_rfl⟩

end Digits

/-- The first shift cuts a number off behind its 53rd digit. -/
theorem exists_digits {m : Nat} {e : Int} {a : Accuracy} {x : ℚ}
    (hx : Truncates (.ofMantissaAndAccuracy m a) x) (hready : 52 ≤ m.log2 ∨ e ≤ -1074) :
    ∃ em t, shiftToTargetExponent .binary64 m e a = (em, t) ∧ Digits em.roundedMantissa t ∧
      Rounds (x * 2 ^ e) (em.roundedMantissa * 2 ^ t) := by
  obtain ⟨k, t, ht, htarget, hshift⟩ : ∃ (k : Nat) (t : Int), t = e + k ∧
      t = max (m.log2 + e - 52) (-1074) ∧ shiftToTargetExponent .binary64 m e a =
        (ExtendedMantissa.ofMantissaAndAccuracy m a >>> k, t) := by
    refine ⟨(Format.binary64.targetExponent (totalExponent m e) - e).toNat, _, rfl, ?_, rfl⟩
    rw [targetExponent_eq, totalExponent]
    omega
  have hvalue : x * 2 ^ e = x / 2 ^ k * 2 ^ t := by
    rw [ht, two_zpow_add_natCast, ← mul_assoc, div_mul_cancel₀ _ (by positivity)]
  have hmantissa : (ExtendedMantissa.ofMantissaAndAccuracy m a).mantissa = m := by
    cases a with
    | exact => rfl
    | inexact o => cases o <;> rfl
  have hlow := hx.le
  have hhigh := hx.lt
  rw [hmantissa] at hlow hhigh
  -- the shift leaves 53 digits, or fewer at the least exponent
  have hfew : x / 2 ^ k < 2 ^ 53 := by
    have hlog : m + 1 ≤ 2 ^ (m.log2 + 1) := Nat.lt_log2_self
    have hpow : 2 ^ (m.log2 + 1) ≤ 2 ^ (53 + k) := Nat.pow_le_pow_right two_pos (by omega)
    rw [div_lt_iff₀ (by positivity), ← pow_add]
    exact hhigh.trans_le (by exact_mod_cast hlog.trans hpow)
  have hlarge : 2 ^ 52 ≤ x / 2 ^ k ∨ t = -1074 := by
    refine or_iff_not_imp_right.mpr fun hne => ?_
    have hpos : m ≠ 0 := by
      rintro rfl
      rw [Nat.log2_zero] at hready htarget
      omega
    have hlog : 2 ^ m.log2 ≤ m := Nat.log2_self_le hpos
    have hpow : 52 + k = m.log2 := by omega
    rw [le_div_iff₀ (by positivity), ← pow_add, hpow]
    exact le_trans (by exact_mod_cast hlog) hlow
  have hnear := (hx.shiftRight k).near
  rw [hvalue]
  exact ⟨_, t, hshift, .of_near hnear hfew (by omega) hlarge, Digits.rounds hnear hlarge⟩

/-- **Rounding keeps the promise of its two bits**: from a mantissa that truncates a number and has
all the digits that are needed, it makes a rounding of this number. -/
theorem roundWithAccuracy_rounding {m : Nat} {e : Int} {a : Accuracy} {x : ℚ} (s : Sign)
    (hx : Truncates (.ofMantissaAndAccuracy m a) x) (hready : 52 ≤ m.log2 ∨ e ≤ -1074)
    (hle : x * 2 ^ e ≤ 2 ^ (1023 : ℤ)) :
    Rounding (roundWithAccuracy .binary64 s m e a) (signed (s == .negative) (x * 2 ^ e)) := by
  obtain ⟨em, t, hshift, hdigits, hrounds⟩ := exists_digits hx hready
  refine ⟨valueOf s em.roundedMantissa t, ?_, hrounds.signed _⟩
  rw [roundWithAccuracy, hshift]
  exact hdigits.hasValue (hrounds.le _ (.zpow (by norm_num)) hle) s rfl

/-- Digits are added to a mantissa that has too few. -/
theorem exists_round_eq (s : Sign) {m : Nat} {e : Int} (hm : m ≠ 0) (he : -1074 ≤ e) : ∃ k : Nat,
    (52 ≤ (m * 2 ^ k).log2 ∨ e - k ≤ -1074) ∧
      ((m * 2 ^ k : Nat) : ℚ) * 2 ^ (e - k) = m * 2 ^ e ∧
      UnpackedFloat.round .binary64 s m e =
        roundWithAccuracy .binary64 s (m * 2 ^ k) (e - k) .exact := by
  obtain ⟨k, hk, hround⟩ : ∃ k : Nat,
      (k : ℤ) = (e - max (m.log2 + e - 52) (-1074)).toNat ∧
      UnpackedFloat.round .binary64 s m e =
        roundWithAccuracy .binary64 s (m * 2 ^ k) (e - k) .exact := by
    refine ⟨(e - Format.binary64.targetExponent (totalExponent m e)).toNat, ?_, ?_⟩
    · rw [targetExponent_eq, totalExponent]
      omega
    · rw [← Nat.shiftLeft_eq]
      rfl
  have hvalue : ((m * 2 ^ k : Nat) : ℚ) * 2 ^ (e - k) = m * 2 ^ e := by
    have he : e = e - k + k := by omega
    conv_rhs => rw [he, two_zpow_add_natCast, ← mul_assoc]
    push_cast
    rfl
  have hlog : (m * 2 ^ k).log2 = m.log2 + k := by
    have hpos : m * 2 ^ k ≠ 0 := mul_ne_zero hm (by positivity)
    refine (Nat.log2_eq_iff hpos).mpr ⟨?_, ?_⟩
    · rw [pow_add]
      exact Nat.mul_le_mul_right _ (Nat.log2_self_le hm)
    · rw [add_right_comm, pow_add]
      exact Nat.mul_lt_mul_of_pos_right Nat.lt_log2_self (by positivity)
  exact ⟨k, by omega, hvalue, hround⟩

theorem round_rounding {m : Nat} {e : Int} (s : Sign) (hm : m ≠ 0) (he : -1074 ≤ e)
    (hle : (m : ℚ) * 2 ^ e ≤ 2 ^ (1023 : ℤ)) :
    Rounding (UnpackedFloat.round .binary64 s m e) (valueOf s m e) := by
  obtain ⟨k, hready, hvalue, hround⟩ := exists_round_eq s hm he
  rw [hround, valueOf, ← hvalue]
  exact roundWithAccuracy_rounding s (.exact _) hready (hvalue.trans_le hle)

/-! ### Operations -/

variable {a b : UnpackedFloat}

theorem Rounding.of_hasValue (h : HasValue u v) : Rounding u v :=
  ⟨v, h, fun _ _ h => h, fun _ _ h => h⟩

theorem valueOf_eq (s : Sign) (m : Nat) (e : Int) : valueOf s m e = (s.apply m : ℤ) * 2 ^ e := by
  cases s with
  | positive => rfl
  | negative =>
    change -((m : ℚ) * 2 ^ e) = ((-m : ℤ) : ℚ) * 2 ^ e
    push_cast
    ring

/-- Adding zeros behind a mantissa leaves the number as it is. -/
theorem valueOf_decreaseExponent (s : Sign) (m : Nat) {e f : Int} (h : f ≤ e) :
    ((s.apply (decreaseExponent m e f).1 : ℤ) : ℚ) * 2 ^ f = valueOf s m e := by
  rw [← valueOf_eq, valueOf, valueOf, decreaseExponent, mul_two_zpow _ h]
  dsimp only
  rw [Nat.shiftLeft_eq]
  push_cast
  rfl

theorem normalize_apply (s zeroSign : Sign) {m : Nat} (hm : m ≠ 0) (e : Int) :
    UnpackedFloat.normalize .binary64 (s.apply m) e zeroSign =
      UnpackedFloat.round .binary64 s m e := by
  have hpos : (0 : Int) < m := by omega
  cases s with
  | positive =>
    change UnpackedFloat.normalize .binary64 m e zeroSign = _
    rw [UnpackedFloat.normalize, compare_gt_iff_gt.mpr hpos]
    dsimp only
    rw [Int.toNat_natCast]
  | negative =>
    change UnpackedFloat.normalize .binary64 (-m) e zeroSign = _
    rw [UnpackedFloat.normalize, Int.compare_eq_lt.mpr (neg_lt_zero.mpr hpos)]
    dsimp only
    rw [neg_neg, Int.toNat_natCast]

theorem normalize_rounding {m : Int} {e : Int} (s : Sign) (he : -1074 ≤ e)
    (hle : |(m : ℚ) * 2 ^ e| ≤ 2 ^ (1023 : ℤ)) :
    Rounding (UnpackedFloat.normalize .binary64 m e s) (m * 2 ^ e) := by
  have hsigned : m = 0 ∨ ∃ (t : Sign) (k : Nat), k ≠ 0 ∧ m = t.apply k := by
    rcases lt_trichotomy m 0 with hm | hm | hm
    · exact .inr ⟨.negative, m.natAbs, by omega, show m = -(m.natAbs : Int) by omega⟩
    · exact .inl hm
    · exact .inr ⟨.positive, m.natAbs, by omega, show m = (m.natAbs : Int) by omega⟩
  obtain rfl | ⟨t, k, hk, rfl⟩ := hsigned
  · rw [UnpackedFloat.normalize, compare_eq_iff_eq.mpr rfl, Int.cast_zero, zero_mul]
    exact .of_hasValue (.zero s)
  · rw [← valueOf_eq, valueOf, abs_signed, abs_of_nonneg (by positivity)] at hle
    rw [normalize_apply t s hk, ← valueOf_eq]
    exact round_rounding t hk he hle

theorem add_rounding (ha : HasValue a v) (hb : HasValue b w) (hle : |v + w| ≤ 2 ^ (1023 : ℤ)) :
    Rounding (UnpackedFloat.add .binary64 a b) (v + w) := by
  obtain ⟨s, rfl, rfl⟩ | ⟨s, m, e, hm, rfl, hc, rfl⟩ := ha.cases
  · obtain ⟨t, rfl, rfl⟩ | ⟨t, n, f, hn, rfl, hd, rfl⟩ := hb.cases
    · rw [add_zero]
      change Rounding (if s == t then .zero s else .zero .positive) 0
      split
      · exact .of_hasValue (.zero _)
      · exact .of_hasValue (.zero _)
    · rw [zero_add]
      exact .of_hasValue hb
  · obtain ⟨t, rfl, rfl⟩ | ⟨t, n, f, hn, rfl, hd, rfl⟩ := hb.cases
    · rw [add_zero]
      exact .of_hasValue ha
    · -- the mantissas are aligned at the smaller exponent and added
      have hsum : valueOf s m e + valueOf t n f =
          ((s.apply (decreaseExponent m e (min e f)).1 +
            t.apply (decreaseExponent n f (min e f)).1 : ℤ) : ℚ) * 2 ^ min e f := by
        rw [← valueOf_decreaseExponent s m (min_le_left e f),
          ← valueOf_decreaseExponent t n (min_le_right e f)]
        push_cast
        ring
      rw [hsum] at hle ⊢
      exact normalize_rounding .positive (le_min hc.2.1 hd.2.1) hle

/-- A difference is the sum with the opposite number, zeros and infinities included. -/
theorem sub_eq_add (a b : UnpackedFloat) :
    UnpackedFloat.sub .binary64 a b = UnpackedFloat.add .binary64 a b.neg := by
  cases a with
  | finite s m e hm =>
    cases b with
    | finite t n f hn =>
      have hneg (k : Int) : (-t).apply k = -t.apply k := by
        cases t
        · exact (neg_neg k).symm
        · rfl
      have hmantissa : s.apply (decreaseExponent m e (min e f)).1 -
          t.apply (decreaseExponent n f (min e f)).1 =
          s.apply (decreaseExponent m e (min e f)).1 +
            (-t).apply (decreaseExponent n f (min e f)).1 := by
        rw [hneg, Int.sub_eq_add_neg]
      exact congrArg (fun k => normalize .binary64 k (min e f) .positive) hmantissa
    | _ => rfl
  | _ => cases b <;> rfl

theorem valueOf_mul (s t : Sign) (m n : Nat) (e f : Int) :
    valueOf s m e * valueOf t n f = valueOf (s * t) (m * n) (e + f) := by
  have hsign : (s * t == .negative) = ((s == .negative) != (t == .negative)) := by
    cases s <;> cases t <;> rfl
  rw [valueOf, valueOf, valueOf, signed_mul, hsign, mul_mul_mul_comm, ← two_zpow_add, Nat.cast_mul]

theorem mul_rounding (ha : HasValue a v) (hb : HasValue b w) (hle : |v * w| ≤ 2 ^ (1023 : ℤ)) :
    Rounding (UnpackedFloat.mul .binary64 a b) (v * w) := by
  obtain ⟨s, rfl, rfl⟩ | ⟨s, m, e, hm, rfl, hc, rfl⟩ := ha.cases
  · rw [zero_mul]
    obtain ⟨t, rfl, -⟩ | ⟨t, n, f, hn, rfl, -, -⟩ := hb.cases
    · exact .of_hasValue (.zero _)
    · exact .of_hasValue (.zero _)
  · obtain ⟨t, rfl, rfl⟩ | ⟨t, n, f, hn, rfl, hd, rfl⟩ := hb.cases
    · rw [mul_zero]
      exact .of_hasValue (.zero _)
    · have hready : 52 ≤ (m * n).log2 ∨ e + f ≤ -1074 := by
        have hlog (h : 2 ^ 52 ≤ m * n) : 52 ≤ (m * n).log2 :=
          (Nat.le_log2 (mul_pos hm hn).ne').mpr h
        rcases hc.2.2.2 with h | rfl
        · exact .inl (hlog (h.trans (Nat.le_mul_of_pos_right m hn)))
        · rcases hd.2.2.2 with h | rfl
          · exact .inl (hlog (h.trans (Nat.le_mul_of_pos_left n hm)))
          · exact .inr (by norm_num)
      rw [valueOf_mul] at hle ⊢
      refine roundWithAccuracy_rounding (s * t) (.exact _) hready ?_
      rwa [valueOf, abs_signed, abs_of_nonneg (by positivity)] at hle

/-- The quotient of two mantissas, cut off to a natural number. -/
theorem truncates_quotient (m : Nat) {n : Nat} (hn : 0 < n) :
    Truncates (.ofMantissaAndAccuracy (m / n) (accuracyOfFraction (m % n) n)) (m / n : ℚ) := by
  have hpos : (0 : ℚ) < n := by exact_mod_cast hn
  have hdiv : (m : ℚ) / n = (m / n : Nat) + (m % n : Nat) / n := by
    rw [div_eq_iff hpos.ne', add_mul, div_mul_cancel₀ _ hpos.ne']
    exact_mod_cast (Nat.div_add_mod' m n).symm
  have hlt : ((m % n : Nat) : ℚ) / n < 1 :=
    (div_lt_one hpos).mpr (by exact_mod_cast Nat.mod_lt m hn)
  rw [hdiv, accuracyOfFraction]
  split
  · next hzero =>
    rw [hzero, Nat.cast_zero, zero_div, add_zero]
    exact .exact _
  · next hne =>
    have hgt : (0 : ℚ) < (m % n : Nat) / n :=
      div_pos (by exact_mod_cast Nat.pos_of_ne_zero hne) hpos
    have hbits : ∀ o, Truncates (.ofMantissaAndAccuracy (m / n) (.inexact o))
        ((m / n : Nat) + (m % n : Nat) / n) := by
      have h : ((m / n : Nat) : ℚ) < (m / n : Nat) + (m % n : Nat) / n ∧
          ((m / n : Nat) : ℚ) + (m % n : Nat) / n < (m / n : Nat) + 1 := by
        constructor
        · linarith
        · linarith
      rintro (_ | _ | _) <;> exact h
    exact hbits _

theorem le_log2_quotient {m n k : Nat} (hm : 0 < m) (hn : 0 < n)
    (h : n.log2 + 53 ≤ m.log2 + k) : 52 ≤ (m * 2 ^ k / n).log2 := by
  have hlarge : 2 ^ 52 ≤ m * 2 ^ k / n := by
    rw [Nat.le_div_iff_mul_le hn]
    calc 2 ^ 52 * n
      _ ≤ 2 ^ 52 * 2 ^ (n.log2 + 1) := Nat.mul_le_mul_left _ Nat.lt_log2_self.le
      _ = 2 ^ (n.log2 + 53) := by ring
      _ ≤ 2 ^ (m.log2 + k) := Nat.pow_le_pow_right two_pos h
      _ = 2 ^ m.log2 * 2 ^ k := pow_add 2 _ _
      _ ≤ m * 2 ^ k := Nat.mul_le_mul_right _ (Nat.log2_self_le hm.ne')
  exact (Nat.le_log2 (by omega)).mpr hlarge

theorem valueOf_div (s t : Sign) (m : Nat) {n k : Nat} {e f g : Int} (hn : 0 < n)
    (h : e - f = k + g) : valueOf s m e / valueOf t n f =
      signed (s / t == .negative) (((m * 2 ^ k : Nat) : ℚ) / n * 2 ^ g) := by
  have hsign : (s / t == .negative) = ((s == .negative) != (t == .negative)) := by
    cases s <;> cases t <;> rfl
  have hexponent : (2 : ℚ) ^ e = 2 ^ k * 2 ^ g * 2 ^ f := by
    rw [← zpow_natCast, ← two_zpow_add, ← two_zpow_add]
    congr 1
    omega
  have hf := (two_zpow_pos f).ne'
  have hn : (n : ℚ) ≠ 0 := by exact_mod_cast hn.ne'
  rw [valueOf, valueOf, signed_div, hsign, hexponent]
  congr 1
  push_cast
  field_simp

/-- The dividend gets zeros enough for a quotient of 53 digits. -/
theorem div_eq (s t : Sign) {m n : Nat} (hm : 0 < m) (hn : 0 < n) (e f : Int) :
    ∃ (k : Nat) (g : Int), e - f = k + g ∧ (n.log2 + 53 ≤ m.log2 + k ∨ g ≤ -1074) ∧
      UnpackedFloat.div .binary64 (.finite s m e hm) (.finite t n f hn) =
        roundWithAccuracy .binary64 (s / t) (m * 2 ^ k / n) g
          (accuracyOfFraction (m * 2 ^ k % n) n) := by
  refine ⟨(e - f - min (e - f) (Format.binary64.targetExponent
    (totalExponent m e - totalExponent n f))).toNat, min (e - f)
      (Format.binary64.targetExponent (totalExponent m e - totalExponent n f)), ?_, ?_, ?_⟩
  · omega
  · rw [targetExponent_eq, totalExponent, totalExponent]
    omega
  · rw [← Nat.shiftLeft_eq]
    rfl

/-- **Quotients are rounded.** -/
theorem div_rounding (ha : HasValue a v) (hb : HasValue b w) (hw : w ≠ 0)
    (hle : |v / w| ≤ 2 ^ (1023 : ℤ)) : Rounding (UnpackedFloat.div .binary64 a b) (v / w) := by
  obtain ⟨t, rfl, rfl⟩ | ⟨t, n, f, hn, rfl, hd, rfl⟩ := hb.cases
  · exact absurd rfl hw
  · obtain ⟨s, rfl, rfl⟩ | ⟨s, m, e, hm, rfl, hc, rfl⟩ := ha.cases
    · rw [zero_div]
      exact .of_hasValue (.zero _)
    · obtain ⟨k, g, hg, hready, hdiv⟩ := div_eq s t hm hn e f
      have hquotient := valueOf_div s t m hn hg
      rw [hdiv, hquotient]
      refine roundWithAccuracy_rounding (s / t) (truncates_quotient _ hn)
        (hready.imp_left (le_log2_quotient hm hn)) ?_
      have hnonneg : (0 : ℚ) ≤ ((m * 2 ^ k : Nat) : ℚ) / n * 2 ^ g :=
        mul_nonneg (div_nonneg (Nat.cast_nonneg _) (Nat.cast_nonneg _)) (two_zpow_pos g).le
      rw [hquotient, abs_signed, abs_of_nonneg hnonneg] at hle
      exact hle

/-! ### Doubles -/

theorem Denotes.neg (hx : Denotes x v) : Denotes (-x) (-v) :=
  let ⟨hu, hv⟩ := (hasValue_unpack_iff.mpr hx).neg
  (denotes_pack_iff hu).mpr hv

/-- The sum of two doubles is the rounded sum of their values. -/
theorem Denotes.add (hx : Denotes x v) (hy : Denotes y w) (h : |v + w| ≤ 2 ^ (1023 : ℤ)) :
    Yields (x + y) (v + w) :=
  (add_rounding (hasValue_unpack_iff.mpr hx) (hasValue_unpack_iff.mpr hy) h).yields

theorem Denotes.sub (hx : Denotes x v) (hy : Denotes y w) (h : |v - w| ≤ 2 ^ (1023 : ℤ)) :
    Yields (x - y) (v - w) := by
  have hsub : x - y =
      ⟨Float.Model.pack (UnpackedFloat.sub .binary64 x.toModel.unpack y.toModel.unpack)⟩ := rfl
  rw [sub_eq_add_neg] at h ⊢
  rw [hsub, sub_eq_add]
  exact (add_rounding (hasValue_unpack_iff.mpr hx) (hasValue_unpack_iff.mpr hy).neg h).yields

/-- The product of two doubles is the rounded product of their values. -/
theorem Denotes.mul (hx : Denotes x v) (hy : Denotes y w) (h : |v * w| ≤ 2 ^ (1023 : ℤ)) :
    Yields (x * y) (v * w) :=
  (mul_rounding (hasValue_unpack_iff.mpr hx) (hasValue_unpack_iff.mpr hy) h).yields

/-- The quotient of two doubles is the rounded quotient of their values. -/
theorem Denotes.div (hx : Denotes x v) (hy : Denotes y w) (hw : w ≠ 0)
    (h : |v / w| ≤ 2 ^ (1023 : ℤ)) : Yields (x / y) (v / w) :=
  (div_rounding (hasValue_unpack_iff.mpr hx) (hasValue_unpack_iff.mpr hy) hw h).yields

end Double

end HexPulse
