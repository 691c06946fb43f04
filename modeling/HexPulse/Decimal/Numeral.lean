import HexPulse.Decimal.Digits
import HexPulse.Scalar

/-!
# HexPulse — Decimal — Numeral

Numbers as they are written: a sign, digits, digits behind a point, a power of ten.  `scan` takes
a text apart; whether a form is allowed is for the reader of a format to say.
-/

namespace HexPulse

/-- The parts of a written number.  At least one digit stands before the power of ten. -/
structure Numeral where
  negative : Bool
  whole : List Char
  /-- the digits behind a point, if there is a point -/
  fraction : Option (List Char)
  /-- the power of ten: its sign, if it has one, and its digits -/
  power : Option (Option Char × List Char)
  deriving DecidableEq, Repr

namespace Numeral

/-- The natural number of decimal digits. -/
def digitsToNat (ds : List Char) : Nat := ds.foldl (fun n c => 10 * n + (c.toNat - 48)) 0

/-- A sign at the front of a text, if there is one. -/
def scanSign : List Char → Option Char × List Char
  | '+' :: cs => (some '+', cs)
  | '-' :: cs => (some '-', cs)
  | cs => (none, cs)

/-- The digits at the front of a text. -/
def scanDigits (cs : List Char) : List Char × List Char :=
  (cs.takeWhile Char.isDigit, cs.dropWhile Char.isDigit)

/-- The digits behind a point, if the text goes on with one. -/
def scanFraction : List Char → Option (List Char) × List Char
  | '.' :: cs => let (ds, cs) := scanDigits cs; (some ds, cs)
  | cs => (none, cs)

/-- Takes a written number apart. -/
def scan (cs : List Char) : Option Numeral :=
  let (sign, cs) := scanSign cs
  let (whole, cs) := scanDigits cs
  let (fraction, cs) := scanFraction cs
  if (whole ++ fraction.getD []).isEmpty then none
  else
    let number := Numeral.mk (sign == some '-') whole fraction
    match cs with
    | [] => some (number none)
    | c :: cs =>
      let (powerSign, cs) := scanSign cs
      let (ds, cs) := scanDigits cs
      if (c = 'e' ∨ c = 'E') ∧ ¬ ds.isEmpty ∧ cs.isEmpty then some (number (some (powerSign, ds)))
      else none

/-- The number is written with digits alone. -/
def isWhole (n : Numeral) : Bool := n.fraction.isNone && n.power.isNone

/-- The number in front of the point. -/
def toInt (n : Numeral) : Int :=
  let m : Int := digitsToNat n.whole
  if n.negative then -m else m

/-- The decimal that is written, without its sign. -/
def toDecimal (n : Numeral) : Decimal :=
  let fraction := n.fraction.getD []
  let power : Int := match n.power with
    | none => 0
    | some (sign, ds) => if sign = some '-' then -digitsToNat ds else digitsToNat ds
  ⟨digitsToNat (n.whole ++ fraction), power - fraction.length⟩

/-- The most digits that an integer may be written with. -/
def longestInteger : Nat := 4300

/-- The nearest number to what is written. -/
def toNumber {α : Type} [Scalar α] (n : Numeral) : α :=
  let d := n.toDecimal
  let x : α := OfScientific.ofScientific d.digits (d.exponent < 0) d.exponent.natAbs
  if n.negative then -x else x

end Numeral

end HexPulse
