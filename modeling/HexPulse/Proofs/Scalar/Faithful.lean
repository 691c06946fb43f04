import HexPulse.Proofs.Scalar.Exact
import Mathlib.Data.Real.Basic

/-!
# HexPulse — Proofs — Scalar — Faithful

Scalars that stand for real numbers.  Where arithmetic and order are those of the real numbers
(`Faithful`), times that pass in steps add up to the time that passed.  Nothing is asked of roots,
hypotenuses and rounding.
-/

namespace HexPulse.Scalar

/-- Numbers that are read as real numbers, with the arithmetic and the order of these. -/
class Faithful (α : Type) [Scalar α] where
  real : α → ℝ
  real_add (a b : α) : real (a + b) = real a + real b
  real_sub (a b : α) : real (a - b) = real a - real b
  real_mul (a b : α) : real (a * b) = real a * real b
  real_div (a b : α) (h : real b ≠ 0) : real (a / b) = real a / real b
  lt_iff (a b : α) : a < b ↔ real a < real b
  le_iff (a b : α) : a ≤ b ↔ real a ≤ real b
  real_ofScientific (m : Nat) (s : Bool) (e : Nat) :
    real (OfScientific.ofScientific m s e) = OfScientific.ofScientific m s e
  real_ofInt (n : Int) : real (Scalar.ofInt n) = n

namespace Faithful

variable {α : Type} [Scalar α] [Faithful α]

theorem real_zero : real (0.0 : α) = 0 :=
  (real_ofScientific 0 true 1).trans (by norm_num)

theorem real_two : real (2.0 : α) = 2 :=
  (real_ofScientific 20 true 1).trans (by norm_num)

/-- A scalar is above zero if the number is that it stands for. -/
theorem pos_iff (a : α) : (0.0 : α) < a ↔ 0 < real a := by
  rw [lt_iff, real_zero]

theorem not_pos_iff (a : α) : ¬ (0.0 : α) < a ↔ real a ≤ 0 := by
  rw [pos_iff, not_lt]

theorem real_half (a : α) : real (a / 2.0) = real a / 2 := by
  have htwo : real (2.0 : α) ≠ 0 := by
    rw [real_two]
    exact two_ne_zero
  rw [real_div a _ htwo, real_two]

/-- The greater of two scalars stands for the maximum. -/
theorem real_greater (a b : α) : real (greater a b) = max (real a) (real b) := by
  rw [greater]
  split
  · next h => exact (max_eq_right ((lt_iff a b).mp h).le).symm
  · next h => exact (max_eq_left (not_lt.mp (mt (lt_iff a b).mpr h))).symm

theorem real_lesser (a b : α) : real (lesser a b) = min (real a) (real b) := by
  rw [lesser]
  split
  · next h => exact (min_eq_right ((lt_iff b a).mp h).le).symm
  · next h => exact (min_eq_left (not_lt.mp (mt (lt_iff b a).mpr h))).symm

end Faithful

/-- Rational numbers are real numbers. -/
instance : Faithful ℚ where
  real x := x
  real_add := Rat.cast_add
  real_sub := Rat.cast_sub
  real_mul := Rat.cast_mul
  real_div a b _ := Rat.cast_div a b
  lt_iff _ _ := Rat.cast_lt.symm
  le_iff _ _ := Rat.cast_le.symm
  real_ofScientific m s e := Rat.cast_ofScientific m s e
  real_ofInt n := Rat.cast_intCast n

end HexPulse.Scalar
