import HexPulse.Proofs.Scalar.Rounding
import Mathlib.Data.Nat.Sqrt

/-!
# HexPulse — Proofs — Scalar — Nearest

Numbers that are computed exactly and rounded once: integers as doubles, and hypotenuses.  Newton's
steps find the integral square root (`Binary.floorSqrt_eq`); the digit that stands for what is left
over does not lift the root above the next integer, so the hypotenuse is at least as long as its
legs (`Double.Denotes.hypot`).
-/

open Float.Model Float.Model.UnpackedFloat

namespace HexPulse

namespace Binary

theorem twoTo_eq (n : Nat) : twoTo n = 2 ^ n := rfl

/-! ### Integral square roots -/

/-- A step of Newton's from a guess that is not too small leads to another such. -/
theorem sqrt_le_next {n guess : Nat} (hpos : 0 < guess) (h : n.sqrt ≤ guess) :
    n.sqrt ≤ (guess + n / guess) / 2 := by
  obtain ⟨d, rfl⟩ := Nat.exists_eq_add_of_le h
  have hbelow : n.sqrt - d ≤ n / (n.sqrt + d) := by
    rw [Nat.le_div_iff_mul_le hpos]
    calc (n.sqrt - d) * (n.sqrt + d)
      _ = n.sqrt * n.sqrt - d * d := by rw [mul_comm, Nat.mul_self_sub_mul_self_eq]
      _ ≤ n.sqrt * n.sqrt := Nat.sub_le _ _
      _ ≤ n := Nat.sqrt_le n
  omega

/-- A guess that is too large is at least twice as close after a step. -/
theorem div_le_sqrt {n guess : Nat} (h : n.sqrt < guess) : n / guess ≤ n.sqrt := by
  refine Nat.lt_succ_iff.mp ((Nat.div_lt_iff_lt_mul (by omega)).mpr ?_)
  exact (Nat.lt_succ_sqrt n).trans_le (Nat.mul_le_mul_left _ h)

theorem descend_eq {n : Nat} (hn : n ≠ 0) {fuel guess : Nat} (hlow : n.sqrt ≤ guess)
    (hhigh : guess < n.sqrt + 2 ^ fuel) : floorSqrt.descend n fuel guess = n.sqrt := by
  induction fuel generalizing guess with
  | zero =>
    rw [floorSqrt.descend]
    omega
  | succ fuel ih =>
    have hpos : 0 < guess := (Nat.sqrt_pos.mpr (Nat.pos_of_ne_zero hn)).trans_le hlow
    have hnext := sqrt_le_next hpos hlow
    rw [floorSqrt.descend]
    split
    · next hdescends =>
      refine ih hnext ?_
      have hclose := div_le_sqrt (hnext.trans_lt hdescends)
      rw [pow_succ] at hhigh
      omega
    · next hstays =>
      have hdiv : guess ≤ n / guess := by omega
      exact le_antisymm (Nat.le_sqrt.mpr ((Nat.le_div_iff_mul_le hpos).mp hdiv)) hlow

/-- **Newton's steps end at the integral square root.** -/
theorem floorSqrt_eq (n : Nat) : floorSqrt n = n.sqrt := by
  rw [floorSqrt]
  split
  · next hn => rw [hn, Nat.sqrt_zero]
  · next hn =>
    have hpow : n < 2 ^ (n.log2 / 2 + 1) * 2 ^ (n.log2 / 2 + 1) := by
      rw [← pow_add]
      exact Nat.lt_log2_self.trans_le (Nat.pow_le_pow_right two_pos (by omega))
    have hfuel : 2 ^ (n.log2 / 2 + 1) < 2 ^ (n.log2 + 64) :=
      Nat.pow_lt_pow_right (by norm_num) (by omega)
    rw [twoTo_eq]
    exact descend_eq hn (Nat.sqrt_lt.mpr hpow).le (hfuel.trans_le (Nat.le_add_left _ _))

/-! ### Rounding to natural numbers -/

/-- Quotients of natural numbers are rounded as mantissas are. -/
theorem roundQuotient_eq (m : Nat) {n : Nat} (hn : 0 < n) :
    roundQuotient m n = (ExtendedMantissa.ofMantissaAndAccuracy (m / n)
      (accuracyOfFraction (m % n) n)).roundedMantissa := by
  rw [roundQuotient, accuracyOfFraction]
  by_cases hzero : m % n = 0
  · rw [if_pos hzero, hzero, mul_zero, compare_lt_iff_lt.mpr hn]
    rfl
  · rw [if_neg hzero]
    cases compare (2 * (m % n)) n with
    | lt => rfl
    | gt => rfl
    | eq =>
      change (if m / n % 2 = 0 then m / n else m / n + 1) = m / n + m / n % 2
      split <;> omega

theorem roundQuotient_near (m : Nat) {n : Nat} (hn : 0 < n) :
    |(roundQuotient m n : ℚ) - m / n| < 1 := by
  rw [roundQuotient_eq m hn]
  exact (Double.truncates_quotient m hn).near

theorem roundScaled_near (m : Nat) (e : Int) : |(roundScaled m e : ℚ) - m * 2 ^ e| < 1 := by
  rw [roundScaled]
  split
  · next h =>
    have he : (e.toNat : ℤ) = e := Int.toNat_of_nonneg h
    have hexact : ((m * twoTo e.toNat : Nat) : ℚ) = m * 2 ^ e := by
      rw [twoTo_eq, ← he, zpow_natCast, Int.toNat_natCast]
      push_cast
      rfl
    rw [hexact, sub_self, abs_zero]
    exact zero_lt_one
  · next h =>
    have he : e = -((-e).toNat : ℤ) := by omega
    have hquotient : (m : ℚ) * 2 ^ e = m / (twoTo (-e).toNat : Nat) := by
      conv_lhs => rw [he, zpow_neg, zpow_natCast]
      rw [twoTo_eq, div_eq_mul_inv]
      push_cast
      rfl
    rw [hquotient]
    exact roundQuotient_near m (Nat.two_pow_pos _)

/-! ### The nearest double -/

/-- The word of some digits without its sign, as it is computed: the digit in front is counted
into the exponent. -/
def wordOf (n : Nat) (t : Int) : Nat := (t + 1075).toNat * leastMantissa + n - leastMantissa

/-- A carry through all digits goes into the exponent. -/
theorem wordOf_carry {t : Int} (ht : -1074 ≤ t) : wordOf (2 ^ 53) t = wordOf (2 ^ 52) (t + 1) := by
  rw [wordOf, wordOf, leastMantissa]
  omega

theorem wordOf_lt {n : Nat} {t : Int} (hn : n < 2 ^ 53) (ht : -1074 ≤ t) (htop : t ≤ 971) :
    wordOf n t < 0x7FF * leastMantissa := by
  rw [wordOf, leastMantissa]
  omega

theorem value?_ofWord_wordOf {n : Nat} {t : Int} (h : Double.Digits n t) (hn : n < 2 ^ 53)
    (htop : t ≤ 971) (sign : Nat) :
    (ofWord (sign * 2 ^ 63 + wordOf n t)).value? = some (signed (sign == 1) (n * 2 ^ t)) := by
  have hleast := h.least
  by_cases hnormal : 2 ^ 52 ≤ n
  · have hword : wordOf n t = (t + 1075).toNat * 2 ^ 52 + (n - 2 ^ 52) := by
      rw [wordOf, leastMantissa]
      omega
    have hmantissa : leastMantissa + (n - 2 ^ 52) = n := by
      rw [leastMantissa]
      omega
    have hexponent : ((t + 1075).toNat : ℤ) - 1075 = t := by omega
    rw [hword, ← add_assoc, ofWord_fields (by omega) (by omega), ofFields, if_neg (by omega),
      if_neg (by omega), hmantissa, hexponent]
    rfl
  · obtain rfl : t = -1074 := h.normal.resolve_left hnormal
    have hword : wordOf n (-1074) = 0 * 2 ^ 52 + n := by
      rw [wordOf, leastMantissa]
      omega
    rw [hword, ← add_assoc, ofWord_fields (by norm_num) (by omega)]
    rfl

/-- The double of a word; a word beyond the largest finite one stands for infinity. -/
def ofWordOf (negative : Bool) (word : Nat) : Float :=
  let infinite := 0x7FF * leastMantissa
  let word := if infinite ≤ word then infinite else word
  let word := if negative then 0x8000000000000000 + word else word
  Float.ofBits (UInt64.ofNat word)

theorem ofFloat_ofWordOf {word : Nat} (h : word < 0x7FF * leastMantissa) (negative : Bool) :
    ofFloat (ofWordOf negative word) = ofWord (negative.toNat * 2 ^ 63 + word) := by
  rw [ofWordOf, if_neg (not_le.mpr h), ofFloat_ofBits]
  rw [leastMantissa] at h
  cases negative with
  | false =>
    rw [if_neg Bool.false_ne_true, Bool.toNat_false, zero_mul, zero_add,
      UInt64.toNat_ofNat_of_lt' (by rw [UInt64.size]; omega)]
  | true =>
    rw [if_pos rfl, Bool.toNat_true, one_mul,
      UInt64.toNat_ofNat_of_lt' (by rw [UInt64.size]; omega)]
    norm_num

theorem denotes_ofWordOf {n : Nat} {t : Int} (h : Double.Digits n t)
    (hq : (n : ℚ) * 2 ^ t ≤ 2 ^ (1023 : ℤ)) (negative : Bool) :
    Double.Denotes (ofWordOf negative (wordOf n t)) (signed negative (n * 2 ^ t)) := by
  have hsign : (negative.toNat == 1) = negative := by cases negative <;> rfl
  have hfinite {n : Nat} {t : Int} (h : Double.Digits n t) (hn : n < 2 ^ 53) (htop : t ≤ 971) :
      Double.Denotes (ofWordOf negative (wordOf n t)) (signed negative (n * 2 ^ t)) := by
    have hword := value?_ofWord_wordOf h hn htop negative.toNat
    rwa [hsign, ← ofFloat_ofWordOf (wordOf_lt hn h.least htop)] at hword
  rcases h.le.lt_or_eq with hn | rfl
  · exact hfinite h hn (h.le_top hq)
  · have hleast := h.least
    rw [wordOf_carry hleast, Double.Digits.carry_eq]
    exact hfinite ⟨by norm_num, by omega, .inl le_rfl⟩ (by norm_num) (h.carry_le_top hq)

theorem nearest_eq (negative : Bool) {m : Nat} {e t : Int} (hm : m ≠ 0)
    (ht : t = if e + (m.log2 : ℤ) < -1022 then -1074 else e + (m.log2 : ℤ) - 52) :
    nearest negative m e = ofWordOf negative (wordOf (roundScaled m (e - t)) t) := by
  rw [nearest, if_neg hm, ht]
  rfl

/-- The place of the last digit is chosen so that there are 53 in front of it. -/
theorem scaled_bounds {m : Nat} {e t : Int} (hm : m ≠ 0)
    (ht : t = if e + (m.log2 : ℤ) < -1022 then -1074 else e + (m.log2 : ℤ) - 52) :
    (m : ℚ) * 2 ^ (e - t) < 2 ^ 53 ∧ (2 ^ 52 ≤ (m : ℚ) * 2 ^ (e - t) ∨ t = -1074) ∧
      -1074 ≤ t := by
  have hlow : (2 : ℚ) ^ (m.log2 : ℤ) ≤ m := by exact_mod_cast Nat.log2_self_le hm
  have hhigh : (m : ℚ) < 2 ^ (m.log2 + 1 : ℤ) := by exact_mod_cast Nat.lt_log2_self
  refine ⟨?_, ?_, by omega⟩
  · calc (m : ℚ) * 2 ^ (e - t)
      _ < 2 ^ (m.log2 + 1 : ℤ) * 2 ^ (e - t) :=
        mul_lt_mul_of_pos_right hhigh (Double.two_zpow_pos _)
      _ = 2 ^ (m.log2 + 1 + (e - t)) := (Double.two_zpow_add _ _).symm
      _ ≤ 2 ^ (53 : ℤ) := Double.two_zpow_le (by omega)
      _ = 2 ^ 53 := by norm_num
  · refine or_iff_not_imp_right.mpr fun hne => ?_
    calc (2 : ℚ) ^ 52
      _ = 2 ^ (m.log2 + (e - t)) := by
        rw [show (m.log2 : ℤ) + (e - t) = (52 : ℕ) by omega, zpow_natCast]
      _ = 2 ^ (m.log2 : ℤ) * 2 ^ (e - t) := Double.two_zpow_add _ _
      _ ≤ m * 2 ^ (e - t) := mul_le_mul_of_nonneg_right hlow (Double.two_zpow_pos _).le

/-- **The nearest double is a rounding.** -/
theorem nearest_yields (negative : Bool) {m : Nat} {e : Int}
    (hle : (m : ℚ) * 2 ^ e ≤ 2 ^ (1023 : ℤ)) :
    Double.Yields (nearest negative m e) (signed negative (m * 2 ^ e)) := by
  by_cases hm : m = 0
  · have hzero : signed negative ((m : ℚ) * 2 ^ e) = 0 := by
      rw [hm, Nat.cast_zero, zero_mul, signed_zero]
    rw [hzero, nearest, if_pos hm]
    refine ⟨0, ?_, fun _ _ h => h, fun _ _ h => h⟩
    cases negative with
    | false => exact Double.denotes_zero
    | true => simpa using Double.denotes_zero.neg
  · obtain ⟨t, ht⟩ : ∃ t, t = if e + (m.log2 : ℤ) < -1022 then -1074 else e + (m.log2 : ℤ) - 52 :=
      ⟨_, rfl⟩
    have hvalue : (m : ℚ) * 2 ^ e = m * 2 ^ (e - t) * 2 ^ t := by
      rw [mul_assoc, ← Double.two_zpow_add, sub_add_cancel]
    obtain ⟨hfew, hlarge, hleast⟩ := scaled_bounds hm ht
    have hnear := roundScaled_near m (e - t)
    have hrounds := Double.Digits.rounds hnear hlarge
    rw [← hvalue] at hrounds
    rw [nearest_eq negative hm ht]
    exact ⟨_, denotes_ofWordOf (.of_near hnear hfew hleast hlarge)
      (hrounds.le _ (.zpow (by norm_num)) hle) negative, hrounds.signed negative⟩

/-! ### Square roots -/

/-- **The root that is rounded lies between every natural number below the square root and the next
one above it.** -/
theorem nearestSqrt_yields {s : Nat} {h : Int} (hs : s ≠ 0)
    (hle : ((s.sqrt : ℚ) + 1) * 2 ^ h ≤ 2 ^ (1023 : ℤ)) :
    ∃ q, Double.Yields (nearestSqrt s h) q ∧ (∀ c : Nat, c * c ≤ s → (c : ℚ) * 2 ^ h ≤ q) ∧
      q ≤ ((s.sqrt : ℚ) + 1) * 2 ^ h := by
  obtain ⟨extra, root, sticky, hroot, hsticky, heq⟩ : ∃ extra root sticky : Nat,
      root = (s * 2 ^ (2 * extra)).sqrt ∧ sticky ≤ 1 ∧
        nearestSqrt s h = nearest false (2 * root + sticky) (h - extra - 1) := by
    refine ⟨60 - s.log2 / 2, _, if floorSqrt (s * twoTo (2 * (60 - s.log2 / 2))) *
      floorSqrt (s * twoTo (2 * (60 - s.log2 / 2))) = s * twoTo (2 * (60 - s.log2 / 2))
      then 0 else 1, floorSqrt_eq _, ?_, ?_⟩
    · split <;> norm_num
    · rw [nearestSqrt, if_neg hs]
      rfl
  -- the root is taken with more digits than a double has, and one bit says whether it is exact
  have hscale (c : Nat) : (c : ℚ) * 2 ^ h = (2 * (c * 2 ^ extra) : Nat) * 2 ^ (h - extra - 1) := by
    have hexponent : h = extra + 1 + (h - extra - 1) := by omega
    conv_lhs => rw [hexponent, Double.two_zpow_add, Double.two_zpow_add, zpow_natCast]
    push_cast
    ring
  have hpos := (Double.two_zpow_pos (h - extra - 1)).le
  have hsquare (c : Nat) : c * 2 ^ extra * (c * 2 ^ extra) = c * c * 2 ^ (2 * extra) := by ring
  have hbelow (c : Nat) (hc : c * c ≤ s) :
      (c : ℚ) * 2 ^ h ≤ (2 * root + sticky : Nat) * 2 ^ (h - extra - 1) := by
    have hle : c * 2 ^ extra ≤ root := by
      rw [hroot, Nat.le_sqrt, hsquare]
      exact Nat.mul_le_mul_right _ hc
    rw [hscale]
    exact mul_le_mul_of_nonneg_right (by exact_mod_cast (by omega)) hpos
  have habove : ((2 * root + sticky : Nat) : ℚ) * 2 ^ (h - extra - 1) ≤
      ((s.sqrt : ℚ) + 1) * 2 ^ h := by
    have hlt : root < (s.sqrt + 1) * 2 ^ extra := by
      rw [hroot, Nat.sqrt_lt, hsquare]
      exact Nat.mul_lt_mul_of_pos_right (Nat.lt_succ_sqrt s) (Nat.two_pow_pos _)
    rw [← Nat.cast_add_one, hscale]
    exact mul_le_mul_of_nonneg_right (by exact_mod_cast (by omega)) hpos
  rw [heq]
  exact ⟨_, nearest_yields false (habove.trans hle), hbelow, habove⟩

end Binary

namespace Double

open Binary

variable {x y : Float} {v w : ℚ}

/-! ### Integers -/

/-- An integer that is not beyond the largest double. -/
theorem ofInt_yields {n : Int} (h : |(n : ℚ)| ≤ 2 ^ (1023 : ℤ)) : Yields (Binary.ofInt n) n := by
  have hvalue : signed (n < 0) (n.natAbs * 2 ^ (0 : ℤ)) = n := by
    rw [zpow_zero, mul_one, signed, Nat.cast_natAbs, Int.cast_abs]
    by_cases hn : n < 0
    · have hneg : (n : ℚ) < 0 := by exact_mod_cast hn
      rw [if_pos (decide_eq_true hn), abs_of_neg hneg, neg_neg]
    · have hnonneg : (0 : ℚ) ≤ n := by exact_mod_cast not_lt.mp hn
      rw [if_neg (by simpa using hn), abs_of_nonneg hnonneg]
  have hyields := nearest_yields (n < 0) (m := n.natAbs) (e := 0)
  rw [hvalue, zpow_zero, mul_one, Nat.cast_natAbs, Int.cast_abs] at hyields
  exact hyields h

theorem Yields.isFinite {q : ℚ} (h : Yields x q) : isFinite x = true :=
  let ⟨v, hv, _⟩ := h
  isFinite_iff.mpr ⟨v, hv⟩

theorem convert_eq {n : Int} (h : |(n : ℚ)| ≤ 2 ^ (1023 : ℤ)) :
    (Scalar.convert n : Except Fault Float) = .ok (Binary.ofInt n) :=
  if_pos (ofInt_yields h).isFinite

/-- An integer of at most 53 digits is converted exactly. -/
theorem denotes_of_convert {n : Int} (hn : |n| ≤ 2 ^ 53) (h : Scalar.convert n = .ok x) :
    Denotes x n := by
  have hgrid : OnGrid n := by
    have := OnGrid.mul_zpow (k := 0) hn (by norm_num)
    rwa [zpow_zero, mul_one] at this
  have hsmall : |(n : ℚ)| ≤ 2 ^ (1023 : ℤ) := by
    have hcast : |(n : ℚ)| ≤ 2 ^ (53 : ℤ) := by
      rw [zpow_ofNat]
      exact_mod_cast hn
    exact hcast.trans (two_zpow_le (by norm_num))
  obtain rfl := Except.ok.inj ((convert_eq hsmall).symm.trans h)
  obtain ⟨v, hv, hround⟩ := ofInt_yields hsmall
  rwa [le_antisymm (hround.le _ hgrid le_rfl) (hround.ge _ hgrid le_rfl)] at hv

/-! ### Hypotenuses -/

/-- A finite double by its digits. -/
theorem Denotes.exists_finite (h : Denotes x v) : ∃ negative m e,
    ofFloat x = .finite negative m e ∧ |v| = m * 2 ^ e ∧ OnGrid |v| := by
  obtain ⟨s, hu, rfl⟩ | ⟨s, m, e, hm, hu, hc, rfl⟩ := (hasValue_unpack_iff.mpr h).cases
  · refine ⟨s == .negative, 0, -1074, ?_, by simp, by simpa using OnGrid.zero⟩
    rw [ofFloat_eq_ofUnpacked, hu, ofUnpacked_zero]
  · have habs : |valueOf s m e| = m * 2 ^ e := by
      rw [valueOf, abs_signed, abs_of_nonneg (mul_nonneg (Nat.cast_nonneg m) (two_zpow_pos e).le)]
    refine ⟨s == .negative, m, e, ?_, habs, m, e, ?_, hc.2.1, habs⟩
    · rw [ofFloat_eq_ofUnpacked, hu, ofUnpacked_finite]
    · rw [Nat.abs_cast]
      exact_mod_cast hc.1

/-- Two legs as multiples of the same power of two. -/
theorem Denotes.exists_legs (hx : Denotes x v) (hy : Denotes y w) : ∃ (low : ℤ) (a b : ℕ),
    |v| = a * 2 ^ low ∧ |w| = b * 2 ^ low ∧
      Scalar.hypot x y = nearestSqrt (a * a + b * b) low := by
  obtain ⟨_, m, e, hxf, hvm, -⟩ := hx.exists_finite
  obtain ⟨_, n, f, hyf, hwn, -⟩ := hy.exists_finite
  have halign (m : ℕ) {e low : ℤ} (h : low ≤ e) :
      (m : ℚ) * 2 ^ e = (m * twoTo (e - low).toNat : ℕ) * 2 ^ low := by
    rw [mul_two_zpow _ h, twoTo_eq]
    push_cast
    rfl
  refine ⟨min e f, _, _, hvm.trans (halign m (min_le_left e f)),
    hwn.trans (halign n (min_le_right e f)), ?_⟩
  change Binary.hypot (ofFloat x) (ofFloat y) = _
  rw [hxf, hyf]
  rfl

/-- The next number above a hypotenuse is at most four times as long as the legs may be. -/
theorem sqrt_succ_le {a b : ℕ} {low k : ℤ} (hs : a * a + b * b ≠ 0)
    (ha : (a : ℚ) * 2 ^ low ≤ 2 ^ k) (hb : (b : ℚ) * 2 ^ low ≤ 2 ^ k) :
    (((a * a + b * b).sqrt : ℚ) + 1) * 2 ^ low ≤ 2 ^ (k + 2) := by
  have hpos := two_zpow_pos low
  have hroot : (a * a + b * b).sqrt ≤ a + b := by
    have hsquare : a * a + b * b ≤ (a + b) * (a + b) := by nlinarith only
    simpa using Nat.sqrt_le_sqrt hsquare
  -- one of the legs is at least as long as the power
  have hunit : (2 : ℚ) ^ low ≤ 2 ^ k := by
    have hleg {c : ℕ} (hc : c ≠ 0) (hle : (c : ℚ) * 2 ^ low ≤ 2 ^ k) : (2 : ℚ) ^ low ≤ 2 ^ k :=
      (le_mul_of_one_le_left hpos.le (by exact_mod_cast Nat.one_le_iff_ne_zero.mpr hc)).trans hle
    by_cases hzero : a = 0
    · exact hleg (by rintro rfl; exact hs (by rw [hzero])) hb
    · exact hleg hzero ha
  calc (((a * a + b * b).sqrt : ℚ) + 1) * 2 ^ low
    _ ≤ ((a + b : ℕ) + 1) * 2 ^ low :=
      mul_le_mul_of_nonneg_right (add_le_add_left (by exact_mod_cast hroot) 1) hpos.le
    _ = a * 2 ^ low + b * 2 ^ low + 2 ^ low := by
      push_cast
      ring
    _ ≤ 2 ^ k + 2 ^ k + 2 ^ k := add_le_add (add_le_add ha hb) hunit
    _ ≤ 2 ^ (k + 2) := by
      rw [two_zpow_add]
      linarith [two_zpow_pos k]

/-- **The hypotenuse is at least as long as its legs**, and finite where they are not too long. -/
theorem Denotes.hypot {k : ℤ} (hx : Denotes x v) (hy : Denotes y w) (hv : |v| ≤ 2 ^ k)
    (hw : |w| ≤ 2 ^ k) (hlow : -1076 ≤ k) (hhigh : k ≤ 1021) :
    ∃ d, Denotes (Scalar.hypot x y) d ∧ |v| ≤ d ∧ |w| ≤ d ∧ d ≤ 2 ^ (k + 2) := by
  obtain ⟨low, a, b, hva, hwb, heq⟩ := hx.exists_legs hy
  obtain ⟨_, _, _, -, -, hvgrid⟩ := hx.exists_finite
  obtain ⟨_, _, _, -, -, hwgrid⟩ := hy.exists_finite
  by_cases hs : a * a + b * b = 0
  · obtain ⟨rfl, rfl⟩ : a = 0 ∧ b = 0 := by simpa using hs
    rw [Nat.cast_zero, zero_mul] at hva hwb
    rw [hva, hwb, heq, nearestSqrt, if_pos hs]
    exact ⟨0, denotes_zero, le_rfl, le_rfl, (two_zpow_pos _).le⟩
  · have hbound := sqrt_succ_le hs (hva ▸ hv) (hwb ▸ hw)
    obtain ⟨q, ⟨d, hd, hq⟩, hlegs, hle⟩ :=
      nearestSqrt_yields hs (hbound.trans (two_zpow_le (by omega)))
    refine ⟨d, heq ▸ hd, hq.ge _ hvgrid ?_, hq.ge _ hwgrid ?_,
      hq.le _ (.zpow (by omega)) (hle.trans hbound)⟩
    · rw [hva]
      exact hlegs a (Nat.le_add_right _ _)
    · rw [hwb]
      exact hlegs b (Nat.le_add_left _ _)

end Double

end HexPulse
