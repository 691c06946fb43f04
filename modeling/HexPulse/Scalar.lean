import HexPulse.Fault

/-!
# HexPulse — Scalar

The arithmetic that the board is written over.  Everything that measures distance, time or
health is stated for any `Scalar`; the program runs on doubles (`HexPulse.Scalar.Double`), and
the same definitions make sense over exact numbers.

Comparisons are kept apart from one another: with a number that is not comparable with itself,
`a < b` and `¬ b ≤ a` differ, and the definitions say which of them decides.
-/

namespace HexPulse

/-- Numbers with the operations that the board needs. -/
class Scalar (α : Type) extends Add α, Sub α, Mul α, Div α, Neg α, LT α, LE α, BEq α,
    OfScientific α where
  decLt : DecidableLT α
  decLe : DecidableLE α
  /-- the magnitude -/
  abs : α → α
  /-- the square root of three -/
  sqrtThree : α
  /-- the length of the hypotenuse over two legs -/
  hypot : α → α → α
  isFinite : α → Bool
  /-- the nearest number to an integer -/
  ofInt : Int → α
  /-- the integer is at most the number, compared exactly -/
  intLe : Int → α → Bool
  /-- the integer is less than the number, compared exactly -/
  intLt : Int → α → Bool
  /-- the nearest integer, a half going to the even neighbour -/
  round : α → Except Fault Int
  /-- the number rounded to some decimal places, a half going to the even neighbour -/
  roundTo : Nat → α → α
  /-- the text of a number -/
  text : α → String

instance instDecidableLTScalar {α : Type} [Scalar α] : DecidableLT α := Scalar.decLt
instance instDecidableLEScalar {α : Type} [Scalar α] : DecidableLE α := Scalar.decLe

namespace Scalar

variable {α : Type} [Scalar α]

/-- The smaller of two numbers; the first where they are not comparable. -/
def lesser (a b : α) : α := if b < a then b else a

/-- The greater of two numbers; the first where they are not comparable. -/
def greater (a b : α) : α := if a < b then b else a

/-- Division, refused for a zero divisor. -/
def divide (a b : α) : Except Fault α :=
  if b == 0.0 then .error .divisionByZero else .ok (a / b)

/-- The number nearest to an integer, refused for an integer beyond every finite number. -/
def convert (n : Int) : Except Fault α :=
  let x : α := ofInt n
  if isFinite x then .ok x else .error .integerTooLarge

end Scalar

/-- A point of the world. -/
structure Point (α : Type) where
  x : α
  y : α
  deriving Repr

/-- The straight distance between two points. -/
def Point.distance {α : Type} [Scalar α] (a b : Point α) : α := Scalar.hypot (b.x - a.x) (b.y - a.y)

end HexPulse
