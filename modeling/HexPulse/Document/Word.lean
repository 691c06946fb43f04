import HexPulse.Data
import HexPulse.Decimal.Numeral

/-!
# HexPulse — Document — Word

What an unquoted word of a document stands for: nothing, a truth value, a number, or its own
text.  A number needs a point to be anything but an integer; its power of ten needs a sign.
-/

namespace HexPulse.Document

variable {α : Type} [Scalar α]

/-- A word in small letters, with a capital, or in capitals. -/
def isSpelled (word : String) (s : String) : Bool :=
  s = word || s = word.capitalize || s = word.map Char.toUpper

/-- A number written in base two, eight or sixteen. -/
def basedInt? : List Char → Option Int
  | '0' :: 'b' :: ds => based 2 ds
  | '0' :: 'x' :: ds => based 16 ds
  | '0' :: d :: ds => based 8 (d :: ds)
  | _ => none
where
  /-- The number of digits in a base. -/
  based (base : Nat) (ds : List Char) : Option Int :=
    let digit (c : Char) : Nat :=
      if c.isDigit then c.toNat - 48
      else if 'a' ≤ c ∧ c ≤ 'f' then c.toNat - 87
      else if 'A' ≤ c ∧ c ≤ 'F' then c.toNat - 55
      else base
    if ds.all fun c => digit c < base then some (ds.foldl (fun n c => base * n + digit c) 0 : Nat)
    else none

/-- A number that is written out. -/
def number? (s : String) : Option (Data α) :=
  let cs := s.toList.filter (· ≠ '_')
  let (sign, ds) := Numeral.scanSign cs
  match basedInt? ds, Numeral.scan cs with
  | some n, _ => some (.int (if sign = some '-' then -n else n))
  | none, none => none
  | none, some n =>
    if n.isWhole then
      if n.whole.head? = some '0' ∧ 1 < n.whole.length then none else some (.int n.toInt)
    else if n.fraction.isSome ∧ n.power.all (fun p => p.1.isSome) then some (.number n.toNumber)
    else none

/-- The numbers that have no digits. -/
def special? (s : String) : Option (Data α) :=
  let infinity : α := 1.0 / 0.0
  let (sign, rest) := Numeral.scanSign s.toList
  if isSpelled "inf" (String.ofList (rest.drop 1)) ∧ rest.head? = some '.' then
    some (.number (if sign = some '-' then -infinity else infinity))
  else if s = ".nan" ∨ s = ".NaN" ∨ s = ".NAN" then some (.number (0.0 / 0.0))
  else none

/-- What a word stands for. -/
def word (s : String) : Data α :=
  if s = "" ∨ s = "~" ∨ isSpelled "null" s then .null
  else if ["yes", "true", "on"].any (isSpelled · s) then .bool true
  else if ["no", "false", "off"].any (isSpelled · s) then .bool false
  else ((number? s).or (special? s)).getD (.text s)

end HexPulse.Document
