/-!
# HexPulse — Scalar — Binary

A double as an exact number: `Binary.ofFloat` reads the bits as a sign, a mantissa and a power
of two, and `nearest` goes back, rounding an exact `m · 2 ^ e` to the closest double with ties
to even.  Rounding, comparison with integers and the hypotenuse are computed on these exact
numbers, with no intermediate rounding.
-/

namespace HexPulse

/-- What a double stands for.  A finite one is `± mantissa · 2 ^ exponent`. -/
inductive Binary where
  | nan
  | infinity (negative : Bool)
  | finite (negative : Bool) (mantissa : Nat) (exponent : Int)
  deriving DecidableEq, Repr

namespace Binary

/-- A power of two. -/
def twoTo (n : Nat) : Nat := Nat.pow 2 n

/-- The least mantissa of a double in the normal range. -/
def leastMantissa : Nat := 0x10000000000000

/-- The number that a double's bits stand for. -/
def ofFloat (x : Float) : Binary :=
  let bits := x.toBits
  let negative := bits >>> 63 == 1
  let field := ((bits >>> 52) &&& 0x7FF).toNat
  let fraction := (bits &&& 0xFFFFFFFFFFFFF).toNat
  if field = 0x7FF then
    if fraction = 0 then .infinity negative else .nan
  else if field = 0 then .finite negative fraction (-1074)
  else .finite negative (leastMantissa + fraction) ((field : Int) - 1075)

/-- A quotient rounded to the nearest natural number, a half going to the even neighbour. -/
def roundQuotient (num den : Nat) : Nat :=
  let q := num / den
  let r := num % den
  match compare (2 * r) den with
  | .lt => q
  | .gt => q + 1
  | .eq => if q % 2 = 0 then q else q + 1

/-- `m · 2 ^ e` rounded to the nearest natural number, a half going to the even neighbour. -/
def roundScaled (m : Nat) (e : Int) : Nat :=
  if 0 ≤ e then m * twoTo e.toNat else roundQuotient m (twoTo (-e).toNat)

/-- The double nearest to `m · 2 ^ e`, ties to even; infinity beyond the largest finite one. -/
def nearest (negative : Bool) (m : Nat) (e : Int) : Float :=
  if m = 0 then (if negative then -0.0 else 0.0)
  else
    let top : Int := e + m.log2
    let quantum : Int := if top < -1022 then -1074 else top - 52
    let steps := roundScaled m (e - quantum)
    let infinite := 0x7FF * leastMantissa
    let word := (quantum + 1075).toNat * leastMantissa + steps - leastMantissa
    let word := if infinite ≤ word then infinite else word
    let word := if negative then 0x8000000000000000 + word else word
    Float.ofBits (UInt64.ofNat word)

/-- The double nearest to an integer. -/
def ofInt (n : Int) : Float := nearest (n < 0) n.natAbs 0

/-- How an integer compares with a number: less, equal or greater. -/
def compareInt (n : Int) : Binary → Option Ordering
  | .nan => none
  | .infinity negative => some (if negative then .gt else .lt)
  | .finite negative m e =>
    let m : Int := if negative then -(m : Int) else m
    some (compare (n * (twoTo (-e).toNat : Int)) (m * (twoTo e.toNat : Int)))

/-- The largest natural number whose square is at most `n`, by Newton's steps from above. -/
def floorSqrt (n : Nat) : Nat :=
  let rec descend : Nat → Nat → Nat
    | 0, guess => guess
    | fuel + 1, guess =>
      let next := (guess + n / guess) / 2
      if next < guess then descend fuel next else guess
  if n = 0 then 0 else descend (n.log2 + 64) (twoTo (n.log2 / 2 + 1))

/-- The double nearest to the square root of `s · 4 ^ h`.  The root is taken with at least 56
binary digits, and a last odd digit stands for whatever is left over. -/
def nearestSqrt (s : Nat) (h : Int) : Float :=
  if s = 0 then 0.0
  else
    let extra := 60 - s.log2 / 2
    let scaled := s * twoTo (2 * extra)
    let root := floorSqrt scaled
    let sticky := if root * root = scaled then 0 else 1
    nearest false (2 * root + sticky) (h - extra - 1)

/-- The hypotenuse over two legs, rounded once: the exact one to the nearest double, ties to even.
Libraries only promise to be within one unit in the last place. -/
def hypot : Binary → Binary → Float
  | .infinity _, _ => 1.0 / 0.0
  | _, .infinity _ => 1.0 / 0.0
  | .nan, _ => 0.0 / 0.0
  | _, .nan => 0.0 / 0.0
  | .finite _ m e, .finite _ n f =>
    let low := min e f
    let a := m * twoTo (e - low).toNat
    let b := n * twoTo (f - low).toNat
    nearestSqrt (a * a + b * b) low

end Binary

end HexPulse
