import HexPulse.Scalar
import HexPulse.Decimal.Style

/-!
# HexPulse — Scalar — Double

Doubles as scalars.  The four operations and the comparisons are the machine's; rounding,
comparison with integers and the hypotenuse go through the exact number that the bits stand
for, so that they are rounded once.
-/

namespace HexPulse.Double

/-- The nearest integer to a double, a half going to the even neighbour. -/
def round (x : Float) : Except Fault Int :=
  match Binary.ofFloat x with
  | .nan => .error .nanToInteger
  | .infinity _ => .error .infinityToInteger
  | .finite negative m e =>
    let n : Int := Binary.roundScaled m e
    .ok (if negative then -n else n)

/-- A double rounded to `n` decimal places: the exact value, a half going to the even
neighbour. -/
def roundTo (n : Nat) (x : Float) : Float :=
  match Binary.ofFloat x with
  | .nan => x
  | .infinity _ => x
  | .finite negative m e =>
    let y := Decimal.toFloat ⟨Binary.roundScaled (m * Decimal.tenTo n) e, -(n : Int)⟩
    if negative then -y else y

/-- The text of a double: the fewest digits that read back. -/
def text (x : Float) : String := Decimal.plain.render (Binary.ofFloat x)

/-- A double is neither infinite nor the number that is not comparable with itself. -/
def isFinite (x : Float) : Bool :=
  match Binary.ofFloat x with
  | .finite .. => true
  | _ => false

/-- The square root of three, to the nearest double. -/
def sqrtThree : Float := 1.7320508075688772

end HexPulse.Double

namespace HexPulse

instance : Scalar Float where
  decLt := inferInstance
  decLe := inferInstance
  abs x := Float.ofBits (x.toBits &&& 0x7FFFFFFFFFFFFFFF)
  sqrtThree := Double.sqrtThree
  hypot x y := Binary.hypot (Binary.ofFloat x) (Binary.ofFloat y)
  isFinite := Double.isFinite
  ofInt := Binary.ofInt
  intLe n x := (Binary.compareInt n (Binary.ofFloat x)).any (· != .gt)
  intLt n x := (Binary.compareInt n (Binary.ofFloat x)).any (· == .lt)
  round := Double.round
  roundTo := Double.roundTo
  text := Double.text

end HexPulse
