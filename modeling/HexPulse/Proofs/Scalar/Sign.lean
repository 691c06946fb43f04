import HexPulse.Proofs.Scalar.Rounding

/-!
# HexPulse — Proofs — Scalar — Sign

On which side of zero a sum of doubles lies.  Rounding takes no number to zero or past it, and what
is too large becomes infinite on its own side, so doubles on one side of zero add up to one on this
side (`Double.side_add`), without any bound.

* `Double.beq_zero_foldl_add`: a number that is added up some times gives zero only if it is zero.
-/

open Float.Model Float.Model.UnpackedFloat

namespace HexPulse

namespace Binary

/-! ### Packing and unpacking -/

/-- No two unpacked numbers are read as the same. -/
theorem ofUnpacked_injective : Function.Injective ofUnpacked := by
  have hsign {s t : Sign} (h : (s == .negative) = (t == .negative)) : s = t := by
    cases s <;> cases t <;> first | rfl | cases h
  intro u v h
  cases u with
  | notANumber => cases v <;> first | rfl | cases h
  | infinity s =>
    cases v with
    | infinity t => rw [hsign (Binary.infinity.inj h)]
    | _ => cases h
  | zero s =>
    cases v with
    | zero t => rw [hsign (Binary.finite.inj h).1]
    | finite t n f hn => exact absurd (Binary.finite.inj h).2.1 hn.ne
    | _ => cases h
  | finite s m e hm =>
    cases v with
    | zero t => exact absurd (Binary.finite.inj h).2.1 hm.ne'
    | finite t n f hn =>
      obtain ⟨hs, rfl, rfl⟩ := Binary.finite.inj h
      rw [hsign hs]
    | _ => cases h

/-- A canonical number is read as it was written. -/
theorem unpack_pack {u : UnpackedFloat} (hu : Canonical u) :
    (⟨Float.Model.pack u⟩ : Float).toModel.unpack = u := by
  refine ofUnpacked_injective ?_
  rw [← ofFloat_eq_ofUnpacked, ofFloat_pack hu]

theorem canonical_infinity (s : Sign) : Canonical (.infinity s) := trivial

/-- What is too large for a word is written as an infinity. -/
theorem pack_of_large {s : Sign} {m : Nat} {e : Int} {hm : 0 < m} (he : 972 ≤ e) :
    Float.Model.pack (.finite s m e hm) = Float.Model.pack (.infinity s) := by
  have htop : 2 ^ Format.binary64.exponentBits ≤ (e + 1075).toNat + 1 := by
    change 2 ^ 11 ≤ (e + 1075).toNat + 1
    omega
  rw [Float.Model.pack, Float.Model.pack]
  congr 1
  delta UnpackedFloat.pack
  dsimp only
  rw [toNat_biased, if_pos htop]

/-! ### Sides -/

/-- The side of zero that a sign stands for. -/
def sideOf : Sign → Ordering
  | .negative => .lt
  | .positive => .gt

/-- How a number compares with zero. -/
def side (u : UnpackedFloat) : Option Ordering := UnpackedFloat.compare u (.zero .positive)

theorem side_infinity (s : Sign) : side (.infinity s) = some (sideOf s) := by
  cases s <;> rfl

theorem side_finite (s : Sign) (m : Nat) (e : Int) (hm : 0 < m) :
    side (.finite s m e hm) = some (sideOf s) := by
  cases s <;> rfl

theorem sideOf_ne_eq (s : Sign) : sideOf s ≠ .eq := by cases s <;> exact nofun

theorem sideOf_injective : Function.Injective sideOf := by
  intro s t h
  cases s <;> cases t <;> first | rfl | cases h

end Binary

namespace Double

open Binary

/-- The least number of all keeps what rounds to at least itself away from zero. -/
theorem Rounds.pos {q v : ℚ} (h : Rounds q v) (hq : (2 : ℚ) ^ (-1074 : ℤ) ≤ q) : 0 < v :=
  (two_zpow_pos _).trans_le (h.ge _ (.zpow le_rfl) hq)

/-- The second shift of rounding: digits get a place that is canonical, but for its size. -/
theorem Digits.exists_shift {n : Nat} {t : Int} (h : Digits n t) (hn : n ≠ 0) :
    ∃ (m : Nat) (e : Int), shiftToTargetExponent .binary64 n t .exact = (⟨m, false, false⟩, e) ∧
      m ≠ 0 ∧ m < 2 ^ 53 ∧ -1074 ≤ e ∧ (2 ^ 52 ≤ m ∨ e = -1074) := by
  rcases h.le.lt_or_eq with hlt | rfl
  · exact ⟨n, t, shiftToTargetExponent_of_lt hlt h.least, hn, hlt, h.least, h.normal⟩
  · have hleast := h.least
    exact ⟨2 ^ 52, t + 1, shiftToTargetExponent_carry h.least, by norm_num, by norm_num, by omega,
      .inl le_rfl⟩

/-- Rounding keeps the sign of a number that is not zero, also where it is too large for a word. -/
theorem side_round {m : Nat} {e : Int} (s : Sign) (hm : m ≠ 0) (he : -1074 ≤ e) :
    side (⟨Float.Model.pack (UnpackedFloat.round .binary64 s m e)⟩ : Float).toModel.unpack =
      some (sideOf s) := by
  obtain ⟨k, hready, hvalue, hround⟩ := exists_round_eq s hm he
  obtain ⟨em, t, hshift, hdigits, hrounds⟩ := exists_digits (.exact (m * 2 ^ k)) hready
  have hpos : em.roundedMantissa ≠ 0 := by
    intro hzero
    have hleast : (2 : ℚ) ^ (-1074 : ℤ) ≤ m * 2 ^ e := by
      have hone : (1 : ℚ) ≤ m := by exact_mod_cast Nat.one_le_iff_ne_zero.mpr hm
      calc (2 : ℚ) ^ (-1074 : ℤ)
        _ ≤ 2 ^ e := two_zpow_le he
        _ ≤ m * 2 ^ e := le_mul_of_one_le_left (two_zpow_pos e).le hone
    rw [hvalue, hzero, Nat.cast_zero, zero_mul] at hrounds
    exact (hrounds.pos hleast).false
  obtain ⟨n, f, hcarry, hn, hlt, hlow, hnormal⟩ := hdigits.exists_shift hpos
  have hresult : UnpackedFloat.round .binary64 s m e = .finite s n f (Nat.pos_of_ne_zero hn) := by
    rw [hround, roundWithAccuracy, hshift]
    dsimp only
    rw [hcarry]
    exact dif_neg hn
  rw [hresult]
  rcases le_or_gt f 971 with htop | htop
  · have hcanonical : Canonical (.finite s n f (Nat.pos_of_ne_zero hn)) :=
      ⟨hlt, hlow, htop, hnormal⟩
    rw [unpack_pack hcanonical, side_finite]
  · rw [pack_of_large htop, unpack_pack (canonical_infinity s), side_infinity]

/-! ### Sums -/

theorem decreaseExponent_ne_zero {m : Nat} (hm : 0 < m) (e f : Int) :
    (decreaseExponent m e f).1 ≠ 0 := by
  change m <<< (e - f).toNat ≠ 0
  rw [Nat.shiftLeft_eq]
  positivity

/-- Numbers with one sign are added as their mantissas are. -/
theorem add_finite (s : Sign) {m n : Nat} (e f : Int) (hm : 0 < m) (hn : 0 < n) :
    ∃ k : Nat, k ≠ 0 ∧ UnpackedFloat.add .binary64 (.finite s m e hm) (.finite s n f hn) =
      UnpackedFloat.round .binary64 s k (min e f) := by
  have happly (j k : Nat) : s.apply j + s.apply k = s.apply ((j + k : Nat) : Int) := by
    cases s with
    | positive => rfl
    | negative =>
      change -(j : Int) + -(k : Int) = -((j + k : Nat) : Int)
      omega
  have hpos := decreaseExponent_ne_zero hm e (min e f)
  refine ⟨(decreaseExponent m e (min e f)).1 + (decreaseExponent n f (min e f)).1, by omega, ?_⟩
  rw [← normalize_apply s .positive (by omega), ← happly]
  rfl

theorem side_pack_add {a b : UnpackedFloat} (ha : Canonical a) (hb : Canonical b)
    (h : side a = some .eq ∨ side a = side b) :
    side (⟨Float.Model.pack (UnpackedFloat.add .binary64 a b)⟩ : Float).toModel.unpack =
      side b := by
  cases a with
  | notANumber =>
    have hnone : side b = none := (h.resolve_left nofun).symm
    rw [hnone]
    exact congrArg side (unpack_pack (u := .notANumber) trivial)
  | zero s =>
    have hadd : ∃ u, Canonical u ∧ side u = side b ∧
        UnpackedFloat.add .binary64 (.zero s) b = u := by
      cases b with
      | zero t =>
        refine ⟨if s == t then .zero s else .zero .positive, ?_, ?_, rfl⟩ <;> split <;> trivial
      | _ => exact ⟨_, hb, rfl, rfl⟩
    obtain ⟨u, hu, hside, hadd⟩ := hadd
    rw [hadd, unpack_pack hu, hside]
  | infinity s =>
    rw [side_infinity] at h
    have hside := h.resolve_left fun heq => sideOf_ne_eq s (Option.some.inj heq)
    have hadd : UnpackedFloat.add .binary64 (.infinity s) b = .infinity s := by
      cases b with
      | notANumber => cases hside
      | infinity t =>
        rw [side_infinity] at hside
        obtain rfl := sideOf_injective (Option.some.inj hside)
        cases s <;> rfl
      | _ => rfl
    rw [hadd, unpack_pack (canonical_infinity s), side_infinity, hside]
  | finite s m e hm =>
    rw [side_finite] at h
    have hside := h.resolve_left fun heq => sideOf_ne_eq s (Option.some.inj heq)
    cases b with
    | notANumber => cases hside
    | zero t => exact absurd (Option.some.inj hside) (sideOf_ne_eq s)
    | infinity t => exact congrArg side (unpack_pack (canonical_infinity t))
    | finite t n f hn =>
      rw [side_finite] at hside
      obtain rfl := sideOf_injective (Option.some.inj hside)
      obtain ⟨k, hk, hadd⟩ := add_finite s e f hm hn
      rw [hadd, side_round s hk (le_min ha.2.1 hb.2.1), side_finite]

/-- The side of zero on which a double lies; what is no number lies on none. -/
def side (x : Float) : Option Ordering := Binary.side x.toModel.unpack

/-- A double equals zero if it is on no side of it. -/
theorem beq_zero_iff {x : Float} : (x == 0.0) = true ↔ side x = some .eq := by
  have hzero : (0.0 : Float).toModel.unpack = .zero .positive := by
    refine ofUnpacked_injective ?_
    rw [← ofFloat_eq_ofUnpacked]
    decide +kernel
  have hbeq : (x == 0.0) =
    (UnpackedFloat.compare x.toModel.unpack (0.0 : Float).toModel.unpack == some .eq) := rfl
  rw [hbeq, hzero, beq_iff_eq]
  exact Iff.rfl

/-- **Doubles on one side of zero add up to one on this side**, and a zero adds nothing. -/
theorem side_add {x y : Float} (h : side x = some .eq ∨ side x = side y) :
    side (x + y) = side y :=
  side_pack_add (canonical_unpack _) (canonical_unpack _) h

/-- Adding a double over and over does not leave its side. -/
theorem side_foldl_add {β : Type} {x a : Float} (h : side x = side a) (bs : List β) :
    side (bs.foldl (fun sum _ => sum + a) x) = side a := by
  induction bs generalizing x with
  | nil => exact h
  | cons b bs ih => exact ih (side_add (.inr h))

/-- A number that is added up some times gives zero only if it is zero. -/
theorem beq_zero_foldl_add {β : Type} {bs : List β} (hbs : bs ≠ []) (a : Float) :
    (bs.foldl (fun sum _ => sum + a) 0.0 == 0.0) = (a == 0.0) := by
  obtain ⟨b, bs, rfl⟩ := List.exists_cons_of_ne_nil hbs
  have hfirst : side (0.0 + a) = side a := side_add (.inl (beq_zero_iff.mp (by decide +kernel)))
  rw [Bool.eq_iff_iff, beq_zero_iff, beq_zero_iff, List.foldl_cons, side_foldl_add hfirst]

end Double

end HexPulse
