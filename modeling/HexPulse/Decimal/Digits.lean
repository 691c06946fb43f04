import HexPulse.Scalar.Binary

/-!
# HexPulse — Decimal — Digits

Which decimal digits stand for a binary number: the fewest that read back to it, or a fixed
number of them.  Both are decided by exact comparisons of natural numbers.
-/

namespace HexPulse

/-- The decimal number `digits · 10 ^ exponent`. -/
structure Decimal where
  digits : Nat
  exponent : Int
  deriving DecidableEq, Repr

namespace Decimal

open Binary (twoTo)

/-- A power of ten. -/
def tenTo (n : Nat) : Nat := Nat.pow 10 n

/-- Compares `a · 10 ^ i` with `n · 2 ^ j`. -/
def compareScaled (a : Nat) (i : Int) (n : Nat) (j : Int) : Ordering :=
  compare (a * tenTo i.toNat * twoTo (-j).toNat) (n * twoTo j.toNat * tenTo (-i).toNat)

/-- Drops the zeros at the end of the digits. -/
def strip : Nat → Decimal → Decimal
  | 0, d => d
  | fuel + 1, d =>
    if d.digits ≠ 0 ∧ d.digits % 10 = 0 then strip fuel ⟨d.digits / 10, d.exponent + 1⟩ else d

/-- The number of decimal digits in front of the point of `m · 2 ^ e`, for a positive `m`: the
least `k` with `m · 2 ^ e < 10 ^ k`, from an estimate that is never too high. -/
def scale (m : Nat) (e : Int) : Int :=
  let estimate := Int.fdiv ((e + m.log2) * 301029995) 1000000000 - 1
  let rec climb : Nat → Int → Int
    | 0, k => k
    | fuel + 1, k => if compareScaled 1 k m e == .gt then k else climb fuel (k + 1)
  climb 8 estimate

/-- The decimal lies among the reals that round to the double `m · 2 ^ e`.  The gap to the
double below is halved where `m` is a power of two in the normal range. -/
def readsBack (m : Nat) (e : Int) (d : Decimal) : Bool :=
  let narrow := m = Binary.leastMantissa ∧ -1074 < e
  let low := if narrow then 4 * m - 1 else 4 * m - 2
  let high := 4 * m + 2
  let inclusive := m % 2 == 0
  let below := compareScaled d.digits d.exponent low (e - 2)
  let above := compareScaled d.digits d.exponent high (e - 2)
  (below == .gt || (inclusive && below == .eq)) && (above == .lt || (inclusive && above == .eq))

/-- The two neighbours of `m · 2 ^ e` on the grid of multiples of `10 ^ g`: the digits of the
lower one. -/
def floorOn (m : Nat) (e g : Int) : Nat :=
  (m * twoTo e.toNat * tenTo (-g).toNat) / (twoTo (-e).toNat * tenTo g.toNat)

/-- The closest point of the grid of multiples of `10 ^ g` that reads back, the even one on a
tie; nothing if neither neighbour reads back. -/
def closestOn (m : Nat) (e g : Int) : Option Decimal :=
  let below := floorOn m e g
  let lower := readsBack m e ⟨below, g⟩
  let upper := readsBack m e ⟨below + 1, g⟩
  match lower, upper with
  | false, false => none
  | true, false => some ⟨below, g⟩
  | false, true => some ⟨below + 1, g⟩
  | true, true =>
    match compareScaled (2 * below + 1) g (2 * m) e with
    | .gt => some ⟨below, g⟩
    | .lt => some ⟨below + 1, g⟩
    | .eq => some ⟨if below % 2 = 0 then below else below + 1, g⟩

/-- The fewest digits that read back to the positive double `m · 2 ^ e`.  Seventeen are always
enough; past them the exact value is taken. -/
def shortest (m : Nat) (e : Int) : Decimal :=
  let k := scale m e
  let found := (List.range 17).findSome? fun (n : Nat) => closestOn m e (k - 1 - n)
  let d := found.getD ⟨m * twoTo e.toNat * Nat.pow 5 (-e).toNat, if e < 0 then e else 0⟩
  strip 800 d

/-- The positive number `m · 2 ^ e` rounded to `n` digits, a half going to the even neighbour. -/
def toDigits (n : Nat) (m : Nat) (e : Int) : Decimal :=
  let g := scale m e - n
  let num := m * twoTo e.toNat * tenTo (-g).toNat
  let den := twoTo (-e).toNat * tenTo g.toNat
  strip 800 ⟨Binary.roundQuotient num den, g⟩

/-- The double nearest to a decimal. -/
def toFloat (d : Decimal) : Float := Float.ofScientific d.digits (d.exponent < 0) d.exponent.natAbs

end Decimal

end HexPulse
