import HexPulse.Proofs.Scalar.Extended
import HexPulse.Proofs.Scalar.Nearest
import HexPulse.Proofs.Scalar.Sign

/-!
# HexPulse — Proofs — Scalar — Number

Doubles that are numbers, the infinite ones included.  Comparing is a linear order on them, so it
matters that distances are among them: the difference of a finite double and a number is a number
(`Double.isNumber_sub`), and so is the hypotenuse over two numbers (`Double.isNumber_hypot`), however
large they are.
-/

open Float.Model Float.Model.UnpackedFloat

namespace HexPulse

namespace Double

open Binary

variable {x y : Float}

/-- The double is a number: finite, or infinite on one side. -/
def IsNumber (x : Float) : Prop := ∃ v, Stands x v

/-- A double is a number unless it unpacks to none. -/
theorem isNumber_iff_unpack : IsNumber x ↔ x.toModel.unpack ≠ .notANumber := by
  refine ⟨fun ⟨v, hv⟩ hx => ?_, (stands_or x).resolve_right⟩
  rw [Stands, ofFloat_eq_ofUnpacked, hx] at hv
  cases hv

theorem isNumber_iff_ofFloat : IsNumber x ↔ ofFloat x ≠ .nan := by
  rw [isNumber_iff_unpack, ofFloat_eq_ofUnpacked]
  refine not_congr ⟨fun h => by rw [h]; rfl, fun h => ?_⟩
  cases hx : x.toModel.unpack with
  | notANumber => rfl
  | _ =>
    rw [hx] at h
    cases h

theorem IsNumber.of_side {s : Ordering} (h : side x = some s) : IsNumber x := by
  refine isNumber_iff_unpack.mpr fun hx => ?_
  rw [side, hx] at h
  cases h

/-- Only numbers compare. -/
theorem isNumber_of_le (h : x ≤ y) : IsNumber x ∧ IsNumber y := by
  rw [isNumber_iff_unpack, isNumber_iff_unpack]
  rw [le_iff_compare] at h
  constructor
  · intro hx
    rw [hx] at h
    cases h
  · intro hy
    rw [hy] at h
    cases hx : x.toModel.unpack <;> rw [hx] at h <;> cases h

/-- An integer that is at most a double is at most every greater one. -/
theorem intLe_of_le {k : Int} (h : Scalar.intLe k x = true) (hle : x ≤ y) :
    Scalar.intLe k y = true := by
  obtain ⟨⟨v, hv⟩, w, hw⟩ := isNumber_of_le hle
  exact hw.intLe_iff.mpr ((hv.intLe_iff.mp h).trans ((hv.le_iff hw).mp hle))

/-! ### Differences -/

/-- What is packed is a number if it was one before. -/
theorem isNumber_pack {u : UnpackedFloat} (hu : Canonical u) (hne : u ≠ .notANumber) :
    IsNumber ⟨Float.Model.pack u⟩ := by
  rwa [isNumber_iff_unpack, unpack_pack hu]

theorem isNumber_pack_zero (s : Sign) : IsNumber ⟨Float.Model.pack (.zero s)⟩ :=
  isNumber_pack (u := .zero s) trivial fun h => by cases h

theorem isNumber_pack_normalize {m e : Int} (he : -1074 ≤ e) (s : Sign) :
    IsNumber ⟨Float.Model.pack (UnpackedFloat.normalize .binary64 m e s)⟩ := by
  rw [UnpackedFloat.normalize]
  split
  · next h => exact .of_side (side_round .negative (by have := compare_lt_iff_lt.mp h; omega) he)
  · exact isNumber_pack_zero s
  · next h => exact .of_side (side_round .positive (by have := compare_gt_iff_gt.mp h; omega) he)

/-- A finite number and a number have a number as their sum. -/
theorem isNumber_pack_add {a b : UnpackedFloat} (ha : Canonical a) (hb : Canonical b)
    (hfinite : (ofUnpacked a).value?.isSome) (hnumber : b ≠ .notANumber) :
    IsNumber ⟨Float.Model.pack (UnpackedFloat.add .binary64 a b)⟩ := by
  cases a with
  | notANumber => cases hfinite
  | infinity s => cases hfinite
  | zero s =>
    cases b with
    | notANumber => exact absurd rfl hnumber
    | zero t =>
      change IsNumber ⟨Float.Model.pack (if s == t then .zero s else .zero .positive)⟩
      split
      · exact isNumber_pack_zero s
      · exact isNumber_pack_zero .positive
    | infinity t => exact isNumber_pack hb hnumber
    | finite t n f hn => exact isNumber_pack hb hnumber
  | finite s m e hm =>
    cases b with
    | notANumber => exact absurd rfl hnumber
    | zero t => exact isNumber_pack ha fun h => by cases h
    | infinity t => exact isNumber_pack hb hnumber
    | finite t n f hn => exact isNumber_pack_normalize (le_min ha.2.1 hb.2.1) .positive

theorem canonical_neg {b : UnpackedFloat} (hb : Canonical b) : Canonical b.neg := by
  cases b <;> exact hb

/-- **A finite double minus a number is a number.** -/
theorem isNumber_sub (hx : isFinite x = true) (hy : IsNumber y) : IsNumber (x - y) := by
  have hsub : x - y =
      ⟨Float.Model.pack (UnpackedFloat.add .binary64 x.toModel.unpack y.toModel.unpack.neg)⟩ := by
    rw [← sub_eq_add]
    rfl
  obtain ⟨q, hq⟩ := isFinite_iff.mp hx
  rw [denotes_iff] at hq
  rw [hsub]
  refine isNumber_pack_add (canonical_unpack _) (canonical_neg (canonical_unpack _)) ?_ ?_
  · rw [hq]
    rfl
  · rw [isNumber_iff_unpack] at hy
    cases hy' : y.toModel.unpack with
    | notANumber => exact absurd hy' hy
    | _ =>
      intro h
      cases h

/-! ### Hypotenuses -/

theorem isNumber_ofWordOf (negative : Bool) (word : Nat) : IsNumber (ofWordOf negative word) := by
  by_cases h : word < 0x7FF * leastMantissa
  · rw [isNumber_iff_ofFloat, ofFloat_ofWordOf h, ofWord, ofFields]
    rw [leastMantissa] at h
    have hfield : (negative.toNat * 2 ^ 63 + word) / 2 ^ 52 % 2 ^ 11 ≠ 0x7FF := by
      cases negative <;> simp only [Bool.toNat_false, Bool.toNat_true] <;> omega
    rw [if_neg hfield]
    intro hnan
    split at hnan <;> cases hnan
  · have hword : ofWordOf negative word = ofWordOf negative (0x7FF * leastMantissa) := by
      rw [ofWordOf, ofWordOf, if_pos (not_lt.mp h), if_pos le_rfl]
    rw [hword, isNumber_iff_ofFloat]
    cases negative <;> decide +kernel

/-- What is rounded to a double is a number. -/
theorem isNumber_nearest (negative : Bool) (m : Nat) (e : Int) : IsNumber (nearest negative m e) := by
  by_cases hm : m = 0
  · rw [nearest, if_pos hm, isNumber_iff_ofFloat]
    cases negative <;> decide +kernel
  · rw [nearest_eq negative hm rfl]
    exact isNumber_ofWordOf _ _

/-- **The hypotenuse over two numbers is a number**, however long the legs are. -/
theorem isNumber_hypot (hx : IsNumber x) (hy : IsNumber y) : IsNumber (Scalar.hypot x y) := by
  change IsNumber (Binary.hypot (ofFloat x) (ofFloat y))
  have hinfinite : IsNumber (1.0 / 0.0) := isNumber_iff_ofFloat.mpr (by decide +kernel)
  rw [isNumber_iff_ofFloat] at hx hy
  cases hx' : ofFloat x with
  | nan => exact absurd hx' hx
  | infinity s => exact hinfinite
  | finite s m e =>
    cases hy' : ofFloat y with
    | nan => exact absurd hy' hy
    | infinity t => exact hinfinite
    | finite t n f =>
      rw [Binary.hypot, nearestSqrt]
      split
      · exact ⟨_, denotes_zero.stands⟩
      · exact isNumber_nearest _ _ _

end Double

end HexPulse
