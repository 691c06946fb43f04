import HexPulse.Decimal.Digits

/-!
# HexPulse — Decimal — Style

How a decimal is laid out: between two bounds on its leading exponent positionally, elsewhere
with a signed exponent.
-/

namespace HexPulse.Decimal

/-- The decisions of a layout.  A number whose leading digit stands for `10 ^ e` is written
positionally for `positionalFrom ≤ e < positionalBelow`. -/
structure Style where
  positionalFrom : Int
  positionalBelow : Int
  /-- whole numbers end in `.0` -/
  pointZero : Bool
  /-- the least number of digits of an exponent -/
  exponentWidth : Nat
  nan : String
  infinity : String

namespace Style

/-- A run of zeros. -/
def zeros (n : Nat) : String := "".pushn '0' n

/-- The layout of a positive decimal without zeros at its end. -/
def layout (style : Style) (d : Decimal) : String :=
  let ds := toString d.digits
  let lead : Int := d.exponent + ds.length - 1
  if style.positionalFrom ≤ lead ∧ lead < style.positionalBelow then
    if 0 ≤ d.exponent then
      ds ++ zeros d.exponent.toNat ++ (if style.pointZero then ".0" else "")
    else if 0 ≤ lead then
      let whole := lead.toNat + 1
      String.ofList (ds.toList.take whole) ++ "." ++ String.ofList (ds.toList.drop whole)
    else "0." ++ zeros (-lead - 1).toNat ++ ds
  else
    let tail := String.ofList (ds.toList.drop 1)
    let size := toString lead.natAbs
    String.ofList (ds.toList.take 1) ++ (if tail = "" then "" else "." ++ tail)
      ++ (if lead < 0 then "e-" else "e+") ++ zeros (style.exponentWidth - size.length) ++ size

/-- The text of a number in a layout, with the fewest digits that read back. -/
def render (style : Style) : Binary → String
  | .nan => style.nan
  | .infinity negative => (if negative then "-" else "") ++ style.infinity
  | .finite negative m e =>
    (if negative then "-" else "") ++
      (if m = 0 then (if style.pointZero then "0.0" else "0") else style.layout (shortest m e))

end Style

/-- Numbers are written positionally from `0.0001` up to below `10 ^ 16`, whole ones with a
zero behind the point, all others with a signed exponent of at least two digits. -/
def plain : Style where
  positionalFrom := -4
  positionalBelow := 16
  pointZero := true
  exponentWidth := 2
  nan := "nan"
  infinity := "inf"

end HexPulse.Decimal
