/-!
# HexPulse — Text — Unit

Texts as sequences of 16-bit units.  A character beyond 16 bits takes two of them, a first and a
second half.  A text that comes from a document is made of units (`Alphabet.units`): the halves of
such a character are sorted, and shown, by themselves.
-/

namespace HexPulse.Text

/-- The 16-bit units of a character. -/
def units (c : Char) : List Nat :=
  if c.toNat < 0x10000 then [c.toNat]
  else
    let n := c.toNat - 0x10000
    [0xD800 + n / 0x400, 0xDC00 + n % 0x400]

/-- The character is made of two halves. -/
def isHalved (c : Char) : Bool := 1 < (units c).length

/-- What texts are made of. -/
inductive Alphabet where
  | characters
  | units
  deriving DecidableEq, Repr

namespace Alphabet

/-- A text stands before another in the order of a dictionary, or is the same. -/
def le : Alphabet → String → String → Bool
  | .characters, s, t => decide (s ≤ t)
  | .units, s, t =>
    let unitsOf (s : String) : List Nat := s.toList.flatMap Text.units
    !List.lex (unitsOf t) (unitsOf s) (fun a b => decide (a < b))

/-- A text as it is shown where no half can be written: each of the three bytes that a half would
take is replaced. -/
def shown : Alphabet → String → String
  | .characters, s => s
  | .units, s =>
    String.ofList (s.toList.flatMap fun c =>
      if isHalved c then List.replicate (3 * (Text.units c).length) '\uFFFD' else [c])

end Alphabet

end HexPulse.Text
