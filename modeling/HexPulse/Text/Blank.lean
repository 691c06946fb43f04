/-!
# HexPulse — Text — Blank

The characters that are trimmed from the ends of a name: the white space of Unicode 15.1, with
the four information separators.
-/

namespace HexPulse.Text

/-- Closed ranges of blank code points, ascending and apart. -/
def blankRanges : List (Nat × Nat) :=
  [(0x09, 0x0D), (0x1C, 0x20), (0x85, 0x85), (0xA0, 0xA0), (0x1680, 0x1680), (0x2000, 0x200A),
   (0x2028, 0x2029), (0x202F, 0x202F), (0x205F, 0x205F), (0x3000, 0x3000)]

/-- The number lies in one of the ranges. -/
def inRanges (ranges : List (Nat × Nat)) (n : Nat) : Bool :=
  ranges.any fun r => r.1 ≤ n && n ≤ r.2

/-- The character is blank. -/
def isBlank (c : Char) : Bool := inRanges blankRanges c.toNat

/-- The characters without those at the two ends that pass a test. -/
def trimWhile (p : Char → Bool) (cs : List Char) : List Char :=
  ((cs.dropWhile p).reverse.dropWhile p).reverse

/-- The text without the blanks at its two ends. -/
def trim (s : String) : String := String.ofList (trimWhile isBlank s.toList)

/-- The character is white space; the information separators are not. -/
def isSpace (c : Char) : Bool := isBlank c && !inRanges [(0x1C, 0x1F)] c.toNat

end HexPulse.Text
