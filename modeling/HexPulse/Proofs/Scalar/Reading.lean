import HexPulse.Proofs.Scalar.Grid
import HexPulse.Scalar.Double

/-!
# HexPulse — Proofs — Scalar — Reading

What the bits of a double stand for.  The arithmetic of doubles is explained on their unpacked form,
a sign, a mantissa and an exponent; `Binary.ofFloat` reads the fields of the word.  The two readings
agree (`Binary.ofFloat_eq_ofUnpacked`), and packing keeps every canonical number
(`Binary.ofFloat_pack`).

`Double.Denotes x v` says that `x` is finite and stands for the number `v`.

* `Double.Denotes.lt_iff`, `Double.Denotes.le_iff`: doubles compare as their numbers do.
-/

open Float.Model Float.Model.UnpackedFloat

namespace HexPulse

namespace Binary

/-! ### Words -/

/-- The number that the fields of a word stand for. -/
def ofFields (negative : Bool) (field fraction : Nat) : Binary :=
  if field = 0x7FF then if fraction = 0 then .infinity negative else .nan
  else if field = 0 then .finite negative fraction (-1074)
  else .finite negative (leastMantissa + fraction) ((field : Int) - 1075)

/-- The number that a word stands for. -/
def ofWord (w : Nat) : Binary := ofFields (w / 2 ^ 63 == 1) (w / 2 ^ 52 % 2 ^ 11) (w % 2 ^ 52)

theorem ofFloat_eq_ofWord (x : Float) : ofFloat x = ofWord x.toBits.toNat := by
  have hsign : (x.toBits >>> 63 == 1) = (x.toBits.toNat / 2 ^ 63 == 1) := by
    rw [Bool.eq_iff_iff, beq_iff_eq, beq_iff_eq, ← UInt64.toNat_inj]
    simp [Nat.shiftRight_eq_div_pow]
  have hfield : ((x.toBits >>> 52) &&& 0x7FF).toNat = x.toBits.toNat / 2 ^ 52 % 2 ^ 11 := by
    rw [UInt64.toNat_and, UInt64.toNat_shiftRight]
    exact (Nat.and_two_pow_sub_one_eq_mod _ 11).trans (by rw [Nat.shiftRight_eq_div_pow]; rfl)
  have hfraction : (x.toBits &&& 0xFFFFFFFFFFFFF).toNat = x.toBits.toNat % 2 ^ 52 := by
    rw [UInt64.toNat_and]
    exact Nat.and_two_pow_sub_one_eq_mod _ 52
  rw [ofFloat, ofWord, ofFields]
  simp only [hsign, hfield, hfraction]

theorem ofWord_fields {sign field fraction : Nat} (hfield : field < 2 ^ 11)
    (hfraction : fraction < 2 ^ 52) :
    ofWord (sign * 2 ^ 63 + field * 2 ^ 52 + fraction) = ofFields (sign == 1) field fraction := by
  have hsign : (sign * 2 ^ 63 + field * 2 ^ 52 + fraction) / 2 ^ 63 = sign := by omega
  have hexponent : (sign * 2 ^ 63 + field * 2 ^ 52 + fraction) / 2 ^ 52 % 2 ^ 11 = field := by
    omega
  have hmantissa : (sign * 2 ^ 63 + field * 2 ^ 52 + fraction) % 2 ^ 52 = fraction := by omega
  rw [ofWord, hsign, hexponent, hmantissa]

/-! ### Unpacked numbers -/

/-- An unpacked number; a zero keeps its sign. -/
def ofUnpacked : UnpackedFloat → Binary
  | .notANumber => .nan
  | .infinity s => .infinity (s == .negative)
  | .zero s => .finite (s == .negative) 0 (-1074)
  | .finite s m e _ => .finite (s == .negative) m e

@[simp] theorem ofUnpacked_zero (s : Sign) :
    ofUnpacked (.zero s) = .finite (s == .negative) 0 (-1074) := rfl

@[simp] theorem ofUnpacked_finite (s : Sign) (m : Nat) (e : Int) (hm : 0 < m) :
    ofUnpacked (.finite s m e hm) = .finite (s == .negative) m e := rfl

theorem ofUnpacked_unpack (b : BitVec Format.binary64.numBits) :
    ofUnpacked (UnpackedFloat.unpack .binary64 b) = ofWord b.toNat := by
  have hbits : b.toNat < 2 ^ 64 := b.isLt
  -- the three fields of the word as quotients and remainders of its number
  have hsign : (Sign.ofBitVec (unpackSign b) == .negative) = (b.toNat / 2 ^ 63 == 1) := by
    have hbit : (unpackSign b).toNat = b.toNat / 2 ^ 63 := by
      delta unpackSign
      simp only [BitVec.extractLsb, BitVec.toNat_cast, BitVec.extractLsb'_toNat,
        Nat.shiftRight_eq_div_pow]
      omega
    rw [Sign.ofBitVec, ← hbit]
    generalize unpackSign b = s
    revert s
    decide
  have hfield : (unpackExponent b).toNat = b.toNat / 2 ^ 52 % 2 ^ 11 := by
    simp [unpackExponent, BitVec.extractLsb, Nat.shiftRight_eq_div_pow]
  have hfraction : (unpackMantissa b).toNat = b.toNat % 2 ^ 52 := by
    simp [unpackMantissa, BitVec.extractLsb]
  have htop : unpackExponent b = -1#_ ↔ (unpackExponent b).toNat = 0x7FF := by
    rw [← BitVec.toNat_inj]
    rfl
  have hzero : unpackExponent b = 0#_ ↔ (unpackExponent b).toNat = 0 := by
    rw [← BitVec.toNat_inj]
    rfl
  have hnone : unpackMantissa b = 0#_ ↔ (unpackMantissa b).toNat = 0 := by
    rw [← BitVec.toNat_inj]
    rfl
  have himplicit : (1#1 ++ unpackMantissa b).toNat =
      leastMantissa + (unpackMantissa b).toNat := by
    rw [BitVec.toNat_append, ← Nat.shiftLeft_add_eq_or_of_lt (BitVec.isLt _)]
    rfl
  rw [ofWord, ofFields, ← hsign, ← hfield, ← hfraction]
  delta UnpackedFloat.unpack
  dsimp only
  -- the last exponent is that of infinities and of what is no number, the first that of zeros and of
  -- the numbers without an implicit digit
  by_cases hlast : unpackExponent b = -1#_
  · rw [if_pos hlast, if_pos (htop.mp hlast)]
    by_cases hempty : unpackMantissa b = 0#_
    · rw [if_pos hempty, if_pos (hnone.mp hempty)]
      rfl
    · rw [if_neg hempty, if_neg (mt hnone.mpr hempty)]
      rfl
  · rw [if_neg hlast, if_neg (mt htop.mpr hlast)]
    by_cases hleast : unpackExponent b = 0#_
    · rw [if_pos hleast, if_pos (hzero.mp hleast)]
      by_cases hempty : unpackMantissa b = 0#_
      · rw [dif_pos hempty, hnone.mp hempty]
        rfl
      · rw [dif_neg hempty, hzero.mp hleast]
        rfl
    · rw [if_neg hleast, if_neg (mt hzero.mpr hleast), ofUnpacked_finite, himplicit]
      rfl

/-- The unpacked numbers that fit into a word: the mantissa of a finite one has 53 digits, unless
the exponent is the least one. -/
def Canonical : UnpackedFloat → Prop
  | .finite _ m e _ => m < 2 ^ 53 ∧ -1074 ≤ e ∧ e ≤ 971 ∧ (2 ^ 52 ≤ m ∨ e = -1074)
  | _ => True

/-- Whatever is unpacked is canonical. -/
theorem canonical_unpack (b : BitVec Format.binary64.numBits) :
    Canonical (UnpackedFloat.unpack .binary64 b) := by
  have hread := ofUnpacked_unpack b
  cases hu : UnpackedFloat.unpack .binary64 b with
  | finite s m e hm =>
    rw [hu, ofUnpacked_finite, ofWord, ofFields] at hread
    split at hread
    · split at hread <;> cases hread
    · split at hread
      · obtain ⟨-, rfl, rfl⟩ := Binary.finite.inj hread
        exact ⟨by omega, by omega, by omega, .inr rfl⟩
      · obtain ⟨-, rfl, rfl⟩ := Binary.finite.inj hread
        unfold leastMantissa
        exact ⟨by omega, by omega, by omega, .inl (by omega)⟩
  | _ => trivial

theorem toNat_packComponents (s : Sign) (e : BitVec 11) (m : BitVec 52) :
    (packComponents .binary64 s e m).toNat =
      s.toBitVec.toNat * 2 ^ 63 + e.toNat * 2 ^ 52 + m.toNat := by
  rw [packComponents, BitVec.toNat_append, BitVec.toNat_append,
    ← Nat.shiftLeft_add_eq_or_of_lt m.isLt, ← Nat.shiftLeft_add_eq_or_of_lt e.isLt]
  simp only [Nat.shiftLeft_eq]
  ring

theorem toNat_biased (e : Int) : (e + (Format.binary64.exponentBias : Int) +
    (Format.binary64.mantissaBitsWithoutImplicit : Int)).toNat = (e + 1075).toNat := by
  rw [add_assoc]
  rfl

/-- The word of a finite number.  The leading digit of a mantissa with 53 digits is left out. -/
theorem toNat_pack_finite {s : Sign} {m : Nat} {e : Int} {hm : 0 < m}
    (h : Canonical (.finite s m e hm)) :
    (UnpackedFloat.pack .binary64 (.finite s m e hm)).toNat = s.toBitVec.toNat * 2 ^ 63 +
      (if 2 ^ 52 ≤ m then (e + 1075).toNat else 0) * 2 ^ 52 + m % 2 ^ 52 := by
  obtain ⟨hlt, hlow, hhigh, -⟩ := h
  have hlog : m.log2 + 1 = Format.binary64.mantissaBits ↔ 2 ^ 52 ≤ m := by
    rw [show Format.binary64.mantissaBits = 52 + 1 from rfl, Nat.add_right_cancel_iff,
      Nat.log2_eq_iff hm.ne', and_iff_left hlt]
  delta UnpackedFloat.pack
  dsimp only
  rw [toNat_biased, if_neg (show ¬ 2 ^ 11 ≤ (e + 1075).toNat + 1 by omega)]
  simp only [hlog]
  split
  · rw [toNat_packComponents, BitVec.toNat_ofNat, BitVec.toNat_ofNat,
      Nat.mod_eq_of_lt (show (e + 1075).toNat < 2 ^ 11 by omega)]
  · rw [toNat_packComponents, BitVec.toNat_ofNat]
    rfl

/-- **Packing keeps a canonical number.** -/
theorem ofWord_pack {u : UnpackedFloat} (hu : Canonical u) :
    ofWord (UnpackedFloat.pack .binary64 u).toNat = ofUnpacked u := by
  cases u with
  | infinity s => cases s <;> decide +kernel
  | notANumber => decide +kernel
  | zero s => cases s <;> decide +kernel
  | finite s m e hm =>
    obtain ⟨hlt, hlow, hhigh, hnormal⟩ := hu
    have hsign : (s.toBitVec.toNat == 1) = (s == .negative) := by cases s <;> decide
    rw [toNat_pack_finite ⟨hlt, hlow, hhigh, hnormal⟩, ofWord_fields (by split <;> omega)
      (Nat.mod_lt m (Nat.two_pow_pos 52)), hsign, ofUnpacked_finite, ofFields]
    by_cases h : 2 ^ 52 ≤ m
    · have hmantissa : leastMantissa + m % 2 ^ 52 = m := by
        unfold leastMantissa
        omega
      have hexponent : ((e + 1075).toNat : Int) - 1075 = e := by omega
      rw [if_pos h, if_neg (by omega), if_neg (by omega), hmantissa, hexponent]
    · rw [if_neg h, if_neg (by omega), if_pos rfl, hnormal.resolve_left h,
        Nat.mod_eq_of_lt (by omega)]

/-! ### Doubles -/

theorem ofFloat_eq_ofUnpacked (x : Float) : ofFloat x = ofUnpacked x.toModel.unpack := by
  rw [ofFloat_eq_ofWord, Float.Model.unpack, ofUnpacked_unpack]
  rfl

theorem ofFloat_pack {u : UnpackedFloat} (hu : Canonical u) :
    ofFloat ⟨Float.Model.pack u⟩ = ofUnpacked u := by
  rw [ofFloat_eq_ofWord]
  exact ofWord_pack hu

theorem ofFloat_ofBits (w : UInt64) : ofFloat (Float.ofBits w) = ofWord w.toNat := by
  have hpack : Float.ofBits w = ⟨Float.Model.pack (UnpackedFloat.unpack .binary64 w.toBitVec)⟩ :=
    rfl
  rw [hpack, ofFloat_pack (canonical_unpack _), ofUnpacked_unpack]
  rfl

/-- A number with a sign. -/
def signed (negative : Bool) (q : ℚ) : ℚ := if negative then -q else q

/-- The value of a finite number. -/
def value? : Binary → Option ℚ
  | .finite negative m e => some (signed negative (m * 2 ^ e))
  | _ => none

@[simp] theorem signed_zero (negative : Bool) : signed negative 0 = 0 := by
  cases negative <;> simp [signed]

@[simp] theorem abs_signed (negative : Bool) (q : ℚ) : |signed negative q| = |q| := by
  cases negative <;> simp [signed]

end Binary

namespace Double

open Binary

/-- A double is finite and stands for a number. -/
def Denotes (x : Float) (v : ℚ) : Prop := (ofFloat x).value? = some v

variable {x y : Float} {v w : ℚ}

/-- The finite doubles are those that denote a rational. -/
theorem isFinite_iff : isFinite x = true ↔ ∃ v, Denotes x v := by
  rw [isFinite]
  cases h : ofFloat x <;> simp [Denotes, h, value?]

theorem Denotes.unique (h : Denotes x v) (h' : Denotes x w) : v = w :=
  Option.some.inj (h.symm.trans h')

theorem denotes_iff : Denotes x v ↔ (ofUnpacked x.toModel.unpack).value? = some v := by
  rw [Denotes, ofFloat_eq_ofUnpacked]

theorem denotes_pack_iff {u : UnpackedFloat} (hu : Canonical u) :
    Denotes ⟨Float.Model.pack u⟩ v ↔ (ofUnpacked u).value? = some v := by
  rw [Denotes, ofFloat_pack hu]

/-! ### Order -/

/-- Of two canonical numbers the one with the greater exponent is greater. -/
theorem magnitude_lt {m n : Nat} {e f : Int} (hm : m < 2 ^ 53) (he : -1074 ≤ e)
    (hn : 2 ^ 52 ≤ n ∨ f = -1074) (h : e < f) : (m : ℚ) * 2 ^ e < n * 2 ^ f := by
  have hn : 2 ^ 52 ≤ n := hn.resolve_right (by omega)
  calc (m : ℚ) * 2 ^ e
    _ < 2 ^ 53 * 2 ^ e := mul_lt_mul_of_pos_right (by exact_mod_cast hm) (two_zpow_pos e)
    _ = 2 ^ 52 * 2 ^ (e + 1) := by rw [two_zpow_add]; ring
    _ ≤ n * 2 ^ f := mul_le_mul (by exact_mod_cast hn) (two_zpow_le h) (two_zpow_pos _).le
      (by positivity)

theorem compare_magnitudes {s t : Sign} {m n : Nat} {e f : Int} {hm : 0 < m} {hn : 0 < n}
    (hu : Canonical (.finite s m e hm)) (hv : Canonical (.finite t n f hn)) :
    (compare e f).then (compare m n) = compare ((m : ℚ) * 2 ^ e) (n * 2 ^ f) := by
  rcases lt_trichotomy e f with h | rfl | h
  · rw [compare_lt_iff_lt.mpr h, compare_lt_iff_lt.mpr (magnitude_lt hu.1 hu.2.1 hv.2.2.2 h)]
    rfl
  · rw [compare_eq_iff_eq.mpr rfl]
    change compare m n = _
    have hpos := two_zpow_pos e
    rcases lt_trichotomy m n with h | rfl | h
    · rw [compare_lt_iff_lt.mpr h, eq_comm, compare_lt_iff_lt]
      exact mul_lt_mul_of_pos_right (by exact_mod_cast h) hpos
    · rw [compare_eq_iff_eq.mpr rfl, compare_eq_iff_eq.mpr rfl]
    · rw [compare_gt_iff_gt.mpr h, eq_comm, compare_gt_iff_gt]
      exact mul_lt_mul_of_pos_right (by exact_mod_cast h) hpos
  · rw [compare_gt_iff_gt.mpr h, compare_gt_iff_gt.mpr (magnitude_lt hv.1 hv.2.1 hu.2.2.2 h)]
    rfl

theorem compare_neg (a b : ℚ) : compare (-a) (-b) = (compare a b).swap := by
  rcases lt_trichotomy a b with h | rfl | h
  · rw [compare_lt_iff_lt.mpr h, compare_gt_iff_gt.mpr (neg_lt_neg h)]
    rfl
  · rw [compare_eq_iff_eq.mpr rfl, compare_eq_iff_eq.mpr rfl]
    rfl
  · rw [compare_gt_iff_gt.mpr h, compare_lt_iff_lt.mpr (neg_lt_neg h)]
    rfl

/-- Unpacked numbers compare as their values do. -/
theorem compare_eq {a b : UnpackedFloat} (ha : Canonical a) (hb : Canonical b)
    (hv : (ofUnpacked a).value? = some v) (hw : (ofUnpacked b).value? = some w) :
    UnpackedFloat.compare a b = some (compare v w) := by
  have hmagnitude {m : Nat} {e : Int} (hm : 0 < m) : (0 : ℚ) < m * 2 ^ e :=
    mul_pos (by exact_mod_cast hm) (two_zpow_pos e)
  -- by the signs first: only two numbers on one side of zero are compared by their magnitudes
  cases a with
  | notANumber => cases hv
  | infinity s => cases hv
  | zero s =>
    obtain rfl : 0 = v := by simpa [value?] using hv
    cases b with
    | notANumber => cases hw
    | infinity t => cases hw
    | zero t =>
      obtain rfl : 0 = w := by simpa [value?] using hw
      exact congrArg some (compare_eq_iff_eq.mpr rfl).symm
    | finite t n f hn =>
      obtain rfl := Option.some.inj hw
      cases t with
      | positive => exact congrArg some (compare_lt_iff_lt.mpr (hmagnitude hn)).symm
      | negative =>
        exact congrArg some (compare_gt_iff_gt.mpr (neg_lt_zero.mpr (hmagnitude hn))).symm
  | finite s m e hm =>
    obtain rfl := Option.some.inj hv
    cases b with
    | notANumber => cases hw
    | infinity t => cases hw
    | zero t =>
      obtain rfl : 0 = w := by simpa [value?] using hw
      cases s with
      | positive => exact congrArg some (compare_gt_iff_gt.mpr (hmagnitude hm)).symm
      | negative =>
        exact congrArg some (compare_lt_iff_lt.mpr (neg_lt_zero.mpr (hmagnitude hm))).symm
    | finite t n f hn =>
      obtain rfl := Option.some.inj hw
      have hopposite {p q : ℚ} (hp : 0 < p) (hq : 0 < q) : -p < q :=
        (neg_lt_zero.mpr hp).trans hq
      cases s with
      | positive =>
        cases t with
        | positive => exact congrArg some (compare_magnitudes ha hb)
        | negative =>
          have h := hopposite (hmagnitude (e := f) hn) (hmagnitude (e := e) hm)
          exact congrArg some (compare_gt_iff_gt.mpr h).symm
      | negative =>
        cases t with
        | positive =>
          have h := hopposite (hmagnitude (e := e) hm) (hmagnitude (e := f) hn)
          exact congrArg some (compare_lt_iff_lt.mpr h).symm
        | negative =>
          have hswap := congrArg Ordering.swap (compare_magnitudes ha hb)
          exact congrArg some (hswap.trans (compare_neg _ _).symm)

theorem lt_iff_compare : x < y ↔
    UnpackedFloat.compare x.toModel.unpack y.toModel.unpack = some .lt :=
  (decide_eq_true_iff (p := x.toModel < y.toModel)).trans beq_iff_eq

theorem le_iff_compare : x ≤ y ↔
    (UnpackedFloat.compare x.toModel.unpack y.toModel.unpack).any Ordering.isLE = true :=
  decide_eq_true_iff (p := x.toModel ≤ y.toModel)

/-- Doubles that are not finite are infinite, or no numbers. -/
theorem denotes_or (x : Float) : (∃ v, Denotes x v) ∨ x.toModel.unpack = .notANumber ∨
    ∃ s, x.toModel.unpack = .infinity s := by
  simp only [denotes_iff]
  cases x.toModel.unpack with
  | notANumber => exact .inr (.inl rfl)
  | infinity s => exact .inr (.inr ⟨s, rfl⟩)
  | zero s => exact .inl ⟨_, rfl⟩
  | finite s m e hm => exact .inl ⟨_, rfl⟩

theorem denotes_zero : Denotes 0.0 0 := by
  have hzero : ofFloat 0.0 = .finite false 0 (-1074) := by decide +kernel
  rw [Denotes, hzero]
  simp [value?, signed]

namespace Denotes

theorem compare_eq (hx : Denotes x v) (hy : Denotes y w) :
    UnpackedFloat.compare x.toModel.unpack y.toModel.unpack = some (compare v w) :=
  Double.compare_eq (canonical_unpack _) (canonical_unpack _) (denotes_iff.mp hx)
    (denotes_iff.mp hy)

theorem lt_iff (hx : Denotes x v) (hy : Denotes y w) : x < y ↔ v < w := by
  rw [lt_iff_compare, hx.compare_eq hy, Option.some_inj, compare_lt_iff_lt]

theorem le_iff (hx : Denotes x v) (hy : Denotes y w) : x ≤ y ↔ v ≤ w := by
  rw [le_iff_compare, hx.compare_eq hy, ← compare_le_iff_le]
  exact Ordering.isLE_iff_ne_gt

theorem beq_iff (hx : Denotes x v) (hy : Denotes y w) : (x == y) = true ↔ v = w := by
  have hbeq : (x == y) =
    (UnpackedFloat.compare x.toModel.unpack y.toModel.unpack == some .eq) := rfl
  rw [hbeq, hx.compare_eq hy, beq_iff_eq, Option.some_inj, compare_eq_iff_eq]

/-- A finite number lies between the infinities. -/
theorem compare_infinity (hx : Denotes x v) (s : Sign) :
    UnpackedFloat.compare x.toModel.unpack (.infinity s) =
        some (if s == .positive then .lt else .gt) ∧
      UnpackedFloat.compare (.infinity s) x.toModel.unpack =
        some (if s == .positive then .gt else .lt) := by
  rw [denotes_iff] at hx
  revert hx
  cases x.toModel.unpack with
  | notANumber => exact nofun
  | infinity t => exact nofun
  | zero t => cases s <;> exact fun _ => ⟨rfl, rfl⟩
  | finite t m e hm => cases s <;> cases t <;> exact fun _ => ⟨rfl, rfl⟩

/-- Every number that is at least zero is at least any zero. -/
theorem le_of_zero_le (hx : Denotes x 0) (hy : (0.0 : Float) ≤ y) : x ≤ y := by
  rcases denotes_or y with ⟨w, hw⟩ | h | ⟨s, h⟩
  · exact (hx.le_iff hw).mpr ((denotes_zero.le_iff hw).mp hy)
  · rw [le_iff_compare, h] at hy
    cases hy
  · rwa [le_iff_compare, h, (denotes_zero.compare_infinity s).1, ← (hx.compare_infinity s).1, ← h,
      ← le_iff_compare] at hy

/-- A number above zero is finite, or above every finite number. -/
theorem of_pos (hy : Denotes y w) (hpos : (0.0 : Float) < x) :
    (∃ v, Denotes x v ∧ 0 < v) ∨ y < x ∧ ¬ x ≤ y := by
  rcases denotes_or x with ⟨v, hv⟩ | h | ⟨s, h⟩
  · exact .inl ⟨v, hv, (denotes_zero.lt_iff hv).mp hpos⟩
  · rw [lt_iff_compare, h] at hpos
    cases hpos
  · cases s with
    | positive =>
      rw [lt_iff_compare, le_iff_compare, h, (hy.compare_infinity .positive).1,
        (hy.compare_infinity .positive).2]
      exact .inr ⟨rfl, nofun⟩
    | negative =>
      rw [lt_iff_compare, h, (denotes_zero.compare_infinity .negative).1] at hpos
      cases hpos

/-- A number above zero that a finite number reaches is finite. -/
theorem of_le (hy : Denotes y w) (hpos : (0.0 : Float) < x) (hle : x ≤ y) :
    ∃ v, Denotes x v ∧ 0 < v ∧ v ≤ w := by
  rcases hy.of_pos hpos with ⟨v, hv, hpos⟩ | ⟨-, hnot⟩
  · exact ⟨v, hv, hpos, (hv.le_iff hy).mp hle⟩
  · exact absurd hle hnot

/-- A number above zero that a finite number does not stay below is finite. -/
theorem of_not_lt (hy : Denotes y w) (hpos : (0.0 : Float) < x) (hnot : ¬ y < x) :
    ∃ v, Denotes x v ∧ 0 < v ∧ v ≤ w := by
  rcases hy.of_pos hpos with ⟨v, hv, hpos⟩ | ⟨hlt, -⟩
  · exact ⟨v, hv, hpos, not_lt.mp fun h => hnot ((hy.lt_iff hv).mpr h)⟩
  · exact absurd hlt hnot

end Denotes

/-- What compares equal to zero is a zero. -/
theorem denotes_of_beq_zero (h : (x == 0.0) = true) : Denotes x 0 := by
  have hbeq : (UnpackedFloat.compare x.toModel.unpack (0.0 : Float).toModel.unpack ==
    some .eq) = true := h
  rcases denotes_or x with ⟨v, hv⟩ | hx | ⟨s, hx⟩
  · obtain rfl := (hv.beq_iff denotes_zero).mp h
    exact hv
  · rw [hx] at hbeq
    cases hbeq
  · rw [hx, (denotes_zero.compare_infinity s).2] at hbeq
    cases s <;> cases hbeq

end Double

end HexPulse
