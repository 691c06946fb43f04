import HexPulse.Document.Block
import HexPulse.Document.Word
import HexPulse.Text.Blank

/-!
# HexPulse — Document

Settings and scenarios are read from documents: data between brackets, or laid out by
indentation.  A document holds printed characters, blanks and line ends only.
-/

namespace HexPulse.Document

variable {α : Type} [Scalar α]

/-- Why a text is no document. -/
inductive Flaw where
  /-- it holds a character that no document may hold -/
  | character (c : Char)
  /-- its parts do not fit together -/
  | malformed
  deriving DecidableEq, Repr

/-- Closed ranges of the code points that a document may hold, ascending and apart. -/
def allowedRanges : List (Nat × Nat) :=
  [(0x09, 0x0A), (0x0D, 0x0D), (0x20, 0x7E), (0x85, 0x85), (0xA0, 0xD7FF), (0xE000, 0xFFFD),
   (0x10000, 0x10FFFF)]

/-- The value that the characters of a document stand for. -/
def value? (cs : List Char) : Option (Data α) :=
  let start := skipSpace cs
  if start.head?.any fun c => c = '\x7b' || c = '[' || c = '"' then readFlow word start
  else readBlock word cs

/-- The data that a document holds. -/
def read (text : String) : Except Flaw (Data α) :=
  let cs := text.toList
  match cs.find? fun c => !Text.inRanges allowedRanges c.toNat with
  | some c => .error (.character c)
  | none =>
    match value? cs with
    | some d => .ok d
    | none => .error .malformed

end HexPulse.Document
