import HexPulse.Proofs.Scalar.Faithful
import Mathlib.Algebra.Order.Round
import Mathlib.Analysis.Real.Sqrt

/-!
# HexPulse — Proofs — Scalar — Continuum

Real numbers as scalars, for what no rational number is: the root of three, and hypotenuses.  Only
their texts are not exact; a text is that of the number rounded down to millionths.
-/

namespace HexPulse.Continuum

/-- The nearest integer, a half going to the even neighbour. -/
noncomputable def nearest (x : ℝ) : Int :=
  if Int.fract x = 1 / 2 ∧ Even ⌊x⌋ then ⌊x⌋ else round x

noncomputable scoped instance reals : Scalar ℝ where
  decLt := inferInstance
  decLe := inferInstance
  abs x := |x|
  sqrtThree := √3
  hypot x y := √(x * x + y * y)
  isFinite _ := true
  ofInt n := n
  intLe n x := (n : ℝ) ≤ x
  intLt n x := (n : ℝ) < x
  round x := .ok (nearest x)
  roundTo n x := nearest (x * 10 ^ n) / 10 ^ n
  text x := Scalar.text ((⌊x * 10 ^ 6⌋ : ℚ) / 10 ^ 6)

noncomputable scoped instance faithful : Scalar.Faithful ℝ where
  real x := x
  real_add _ _ := rfl
  real_sub _ _ := rfl
  real_mul _ _ := rfl
  real_div _ _ _ := rfl
  lt_iff _ _ := Iff.rfl
  le_iff _ _ := Iff.rfl
  real_ofScientific _ _ _ := rfl
  real_ofInt _ := rfl

end HexPulse.Continuum
