import HexPulse.Text.Blank

/-!
# HexPulse — Text — Line

A text taken apart into lines.  Besides the line feed and the carriage return, the tabulation and
feed controls, three of the information separators and the separators of lines and paragraphs end
a line; a carriage return with a line feed behind it ends one line, not two.
-/

namespace HexPulse.Text

/-- The character ends a line. -/
def endsLine (c : Char) : Bool :=
  inRanges [(0x0A, 0x0D), (0x1C, 0x1E), (0x85, 0x85), (0x2028, 0x2029)] c.toNat

/-- The lines of a text behind the start of its first line, which is given backwards. -/
def linesFrom : List Char → List Char → List (List Char)
  | [], [] => []
  | line, [] => [line.reverse]
  | line, '\r' :: '\n' :: cs => line.reverse :: linesFrom [] cs
  | line, c :: cs => if endsLine c then line.reverse :: linesFrom [] cs else linesFrom (c :: line) cs

/-- The lines of a text.  There is none behind the last line end. -/
def lines (s : String) : List String := (linesFrom [] s.toList).map String.ofList

end HexPulse.Text
