import HexPulse.Proofs.Scalar.Extended
import HexPulse.Proofs.Scalar.Faithful
import HexPulse.Proofs.Scalar.Sign

/-!
# HexPulse — Proofs — Scalar — Ordered

Comparisons with positive numbers, also where not all numbers can be compared.  What is read as real
numbers is `Ordered`, and doubles are.

What doubles leave of a number less itself is zero, or no number (`Double.sub_same`); so nothing is
left of it, and finite points are at no distance from themselves.
-/

open Float.Model Float.Model.UnpackedFloat

namespace HexPulse

namespace Scalar

/-- A tenth is positive; and so is what is not less than a positive number, if it can be compared
with anything. -/
class Ordered (α : Type) [Scalar α] : Prop where
  tenth_pos : (0.0 : α) < 0.1
  pos_of_not_lt {a b c : α} (ha : (0.0 : α) < a) (hnot : ¬ b < a) (hc : b < c) : (0.0 : α) < b

namespace Faithful

instance (priority := low) ordered {α : Type} [Scalar α] [Faithful α] : Ordered α where
  tenth_pos := by
    rw [pos_iff, real_ofScientific]
    norm_num
  pos_of_not_lt {a b _} ha hnot _ := by
    rw [lt_iff, not_lt] at hnot
    rw [pos_iff] at ha ⊢
    exact ha.trans_le hnot

end Faithful

end Scalar

namespace Double

open Binary

instance ordered : Scalar.Ordered Float where
  tenth_pos := by decide +kernel
  pos_of_not_lt {a b c} ha hnot hc := by
    -- both are numbers, as each of them compares with something
    rcases stands_or a with ⟨v, hv⟩ | hnan
    · rcases stands_or b with ⟨w, hw⟩ | hnan
      · rw [hw.lt_iff hv, not_lt] at hnot
        rw [denotes_zero.stands.lt_iff hv] at ha
        rw [denotes_zero.stands.lt_iff hw]
        exact ha.trans_le hnot
      · exact absurd hc (not_lt_of_notANumber hnan c).2
    · exact absurd ha (not_lt_of_notANumber hnan 0.0).1

/-- A finite double less itself is zero, and any other double less itself is no number. -/
theorem sub_same (x : Float) : isFinite x = true ∧ x - x = 0.0 ∨
    isFinite x = false ∧ (x - x).toModel.unpack = .notANumber := by
  have hsub : x - x =
      ⟨Float.Model.pack (UnpackedFloat.sub .binary64 x.toModel.unpack x.toModel.unpack)⟩ := rfl
  have hfinite : isFinite x = (ofUnpacked x.toModel.unpack).value?.isSome := by
    rw [isFinite, ofFloat_eq_ofUnpacked]
    cases ofUnpacked x.toModel.unpack <;> rfl
  have hzero : (0.0 : Float) = ⟨Float.Model.pack (.zero .positive)⟩ := by decide +kernel
  have hnan : (⟨Float.Model.pack .notANumber⟩ : Float).toModel.unpack = .notANumber :=
    unpack_pack trivial
  rw [hsub, hfinite, hzero]
  cases x.toModel.unpack with
  | notANumber => exact .inr ⟨rfl, hnan⟩
  | infinity s => cases s <;> exact .inr ⟨rfl, hnan⟩
  | zero s => cases s <;> exact .inl ⟨rfl, rfl⟩
  | finite s m e hm =>
    have hnormalize : UnpackedFloat.sub .binary64 (.finite s m e hm) (.finite s m e hm) =
        UnpackedFloat.normalize .binary64
          (s.apply (decreaseExponent m e (min e e)).1 - s.apply (decreaseExponent m e (min e e)).1)
          (min e e) .positive := rfl
    rw [hnormalize, Int.sub_self]
    exact .inl ⟨rfl, rfl⟩

theorem not_pos_sub_same (x : Float) : ¬ (0.0 : Float) < x - x := by
  rcases sub_same x with ⟨-, h⟩ | ⟨-, h⟩
  · rw [h]
    decide +kernel
  · exact (not_lt_of_notANumber h 0.0).1

theorem distance_same {p : Point Float} (hx : isFinite p.x = true) (hy : isFinite p.y = true) :
    p.distance p = 0.0 := by
  have hsame {x : Float} (h : isFinite x = true) : x - x = 0.0 := by
    rcases sub_same x with ⟨-, he⟩ | ⟨hnot, -⟩
    · exact he
    · exact absurd h (Bool.eq_false_iff.mp hnot)
  rw [Point.distance, hsame hx, hsame hy]
  decide +kernel

end Double

end HexPulse
