import HexPulse.Text.Printable
import HexPulse.Text.Unit

/-!
# HexPulse — Text — Quoted

Quoted texts.  The quote is single, or double around a text that holds single quotes and no
double ones.  The quote itself, the backslash and what is not printable are escaped.  A text that
comes from a document is one of 16-bit units: a character of two units is shown as two escapes.
-/

namespace HexPulse.Text

/-- The digits of a number in base sixteen, at least `width` of them. -/
def hex (width n : Nat) : String :=
  let digits := String.ofList (Nat.toDigits 16 n)
  "".pushn '0' (width - digits.length) ++ digits

/-- One character of a text between two quotes. -/
def escape (quote c : Char) : String :=
  if c = quote ∨ c = '\\' then String.ofList ['\\', c]
  else if c = '\n' then "\\n"
  else if c = '\r' then "\\r"
  else if c = '\t' then "\\t"
  else if isPrintable c then String.singleton c
  else if c.toNat < 0x100 then "\\x" ++ hex 2 c.toNat
  else if c.toNat < 0x10000 then "\\u" ++ hex 4 c.toNat
  else "\\U" ++ hex 8 c.toNat

/-- The escape of one 16-bit unit. -/
def escapedUnit (n : Nat) : String := "\\u" ++ hex 4 n

/-- One character of a text of 16-bit units between two quotes. -/
def escapeUnits (quote c : Char) : String :=
  match units c with
  | [_] => escape quote c
  | ns => String.join (ns.map escapedUnit)

/-- The quote that is put around a text. -/
def quoteFor (s : String) : Char :=
  if s.toList.contains '\'' && !s.toList.contains '"' then '"' else '\''

/-- The text between quotes, with a way to escape its characters. -/
def quotedBy (escape : Char → Char → String) (s : String) : String :=
  let quote := quoteFor s
  String.singleton quote ++ String.join (s.toList.map (escape quote)) ++ String.singleton quote

/-- The text between quotes. -/
def quoted : String → String := quotedBy escape

/-- The text of 16-bit units between quotes. -/
def quotedUnits : String → String := quotedBy escapeUnits

end HexPulse.Text
